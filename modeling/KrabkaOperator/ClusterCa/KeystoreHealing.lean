-- SUMMARY: When a call of the keystore program repairs the keystore that it finds: the stored certificates must parse, and what passes for reusable must be in order.
import KrabkaOperator.Base.Within
import KrabkaOperator.ClusterCa.LeafNames

/-!
# Repair of the keystore

A call without faults fails exactly if the stored certificate of a requested broker
is a text that does not parse, also when the leaf is to be replaced anyway. Bytes
that are no text count as expired. Of a leaf that it keeps, a call checks the digest
next to it and the date, not the names of the certificate and not the key.
-/

namespace ClusterCa

open Kube Crd Operator

variable {lib : CaLib} {kafka : Kafka} {ca : CaMaterial} {force : Bool} {P : Int → Prop}
  {draft draft' : KeystoreDraft} {req : BrokerCertRequest} {reqs : List BrokerCertRequest}
  {data data' : BTreeMap ByteString}

/-! ## The requests of a call -/

theorem kube_within {α : Type} {n : Nat} (x : Except KubeError α) : (kube x).Within n := by
  cases x with
  | ok a => exact Prog.within_ret
  | error e => exact Prog.within_fail

theorem within_orFail {α β : Type} {n : Nat} {f : String → ReconcileError} {x : Except String α}
    {k : α → Op β} (h : ∀ a, (k a).Within n) : (orFail f x >>= k).Within n := by
  cases x with
  | ok a => exact h a
  | error e => exact Prog.within_fail

theorem getOpt_within {name : String} : (getOpt name).Within 1 :=
  Prog.within_request kube_within

theorem applySecret_within {name : String} {cfg : SecretConfig} : (applySecret name cfg).Within 1 :=
  Prog.within_request kube_within

/-- A turn reads the clock at most once, and draws at most once. -/
theorem ensureLeaf_within : (ensureLeaf lib kafka ca force draft req).Within 2 := by
  have hissue : ∀ reusable : Bool, (if reusable && !force then
      pure { draft with reused := draft.reused ++ [req.brokerId] }
    else do
      let d ← draw
      let leaf ← orFail .ca (lib.issueBrokerCert ca.certPem ca.keyPem req.cn req.sans
        req.extraSans (WhichCa.spec .cluster kafka).validityDays d)
      pure (draft.issue lib req leaf) : Op KeystoreDraft).Within 1 := by
    intro reusable
    split
    · exact Prog.within_ret
    · exact Prog.within_request fun d => within_orFail fun leaf => Prog.within_ret
  unfold ensureLeaf
  cases draft.data[crtKey req.brokerId]? >>= ByteString.utf8? with
  | some pem => exact Prog.within_request fun t => within_orFail hissue
  | none => exact (within_orFail hissue).mono (Nat.le_succ 1)

theorem ensureLeafs_within :
    (ensureLeafs lib kafka ca force draft reqs).Within (2 * reqs.length) := by
  induction reqs generalizing draft with
  | nil => exact Prog.within_ret
  | cons req reqs ih =>
    have hlength : 2 * (req :: reqs).length = 2 + 2 * reqs.length := by
      rw [List.length_cons]
      omega
    rw [hlength]
    exact ensureLeaf_within.bind fun draft₁ => ih

/-- A call needs two requests for each broker and two for the Secret. -/
theorem ensureBrokerKeystore_within :
    (ensureBrokerKeystore lib kafka reqs ca force).Within (2 * reqs.length + 2) := by
  have hcount : 2 * reqs.length + 2 = 1 + (2 * reqs.length + 1) := by omega
  rw [hcount]
  refine getOpt_within.bind fun existing => ensureLeafs_within.bind fun draft => ?_
  dsimp only
  cases kafka.uid with
  | none => exact Prog.within_fail
  | some uid => exact applySecret_within.bind fun _ => Prog.within_ret (n := 0)

/-! ## Which calls succeed -/

/-- The stored certificate of a broker parses, if it is a text at all. -/
def Parses (lib : CaLib) (data : BTreeMap ByteString) (req : BrokerCertRequest) : Prop :=
  ∀ pem, data[crtKey req.brokerId]? = some (.text pem) → ∃ t, lib.certNotAfter pem = .ok t

theorem Parses.congr (h : Parses lib data req) (hsame : SameEntries data data' req) :
    Parses lib data' req :=
  fun pem hpem => h pem (hsame.crt.symm.trans hpem)

theorem renewIfExpiring_isOk {pem : Pem} {renewal : Nat} {t : Int} :
    (∃ b, renewIfExpiring lib pem renewal t = .ok b) ↔ ∃ t', lib.certNotAfter pem = .ok t' := by
  simp only [renewIfExpiring]
  cases lib.certNotAfter pem with
  | ok t' => exact ⟨fun _ => ⟨t', rfl⟩, fun _ => ⟨_, rfl⟩⟩
  | error e =>
    constructor
    · rintro ⟨b, hb⟩
      cases hb
    · rintro ⟨t', ht'⟩
      cases ht'

/-- The reuse decision needs a certificate that parses. -/
theorem reusableAt_isOk {t : Int} :
    (∃ b, reusableAt lib kafka data req t = .ok b) ↔ Parses lib data req := by
  simp only [reusableAt, leafReusable, Parses]
  cases hpem : data[crtKey req.brokerId]? >>= ByteString.utf8? with
  | none =>
    have hnone : ∀ pem, data[crtKey req.brokerId]? ≠ some (.text pem) := by
      intro pem hcrt
      rw [hcrt] at hpem
      cases hpem
    exact ⟨fun _ pem hcrt => absurd hcrt (hnone pem), fun _ => ⟨_, rfl⟩⟩
  | some pem =>
    obtain ⟨b, hb, hutf8⟩ := Option.bind_eq_some_iff.mp hpem
    rw [eq_text_of_utf8? hutf8] at hb
    have hwindow := @renewIfExpiring_isOk lib pem (WhichCa.spec .cluster kafka).renewalDays t
    simp only [hb, Option.some_inj, ByteString.text.injEq, forall_eq', ← hwindow,
      Checks.bind_eq_ok]
    constructor
    · rintro ⟨reusable, expiring, hexpiring, -⟩
      exact ⟨expiring, hexpiring⟩
    · rintro ⟨expiring, hexpiring⟩
      exact ⟨_, expiring, hexpiring, rfl⟩

/-- The library issues what the requests ask for, at the times in `P`. -/
def Issues (lib : CaLib) (kafka : Kafka) (ca : CaMaterial) (P : Int → Prop)
    (reqs : List BrokerCertRequest) : Prop :=
  ∀ req ∈ reqs, ∀ d : Draw, P d.clock → ∃ leaf, lib.issueBrokerCert ca.certPem ca.keyPem req.cn
    req.sans req.extraSans (WhichCa.spec .cluster kafka).validityDays d = .ok leaf

section Sat

variable {C : Type} {f : C → Choice} {w : World}

theorem ensureLeaf_isOk (hissue : Issues lib kafka ca P (req :: reqs))
    (hf : ∀ c, P (f c).clock) :
    Prog.Sat (Prog.via answer f) (fun _ _ _ => True)
      (fun x _ => (∃ draft', x = .ok draft') ↔ Parses lib draft.data req)
      (ensureLeaf lib kafka ca force draft req) w := by
  have hrest : ∀ t, Prog.Sat (Prog.via answer f) (fun _ _ _ => True)
      (fun x _ => (∃ draft', x = .ok draft') ↔ Parses lib draft.data req)
      (do
        let reusable ← orFail .certParse (reusableAt lib kafka draft.data req t)
        if reusable && !force then
          pure { draft with reused := draft.reused ++ [req.brokerId] }
        else
          let d ← draw
          let leaf ← orFail .ca (lib.issueBrokerCert ca.certPem ca.keyPem req.cn req.sans
            req.extraSans (WhichCa.spec .cluster kafka).validityDays d)
          pure (draft.issue lib req leaf)) w := by
    intro t
    refine sat_orFail_via (fun e he => ?_) fun reusable hreusable => ?_
    · rw [← @reusableAt_isOk lib kafka req draft.data t, he]
      constructor
      · rintro ⟨draft', h⟩
        cases h
      · rintro ⟨b, h⟩
        cases h
    have hparses : Parses lib draft.data req := reusableAt_isOk.mp ⟨reusable, hreusable⟩
    split
    · exact ⟨fun _ => hparses, fun _ => ⟨_, rfl⟩⟩
    · refine sat_draw_via trivial fun c => ?_
      obtain ⟨leaf, hleaf⟩ := hissue req List.mem_cons_self ⟨w.draws, (f c).clock⟩ (hf c)
      refine sat_orFail_via (fun e he => ?_) fun leaf' _ => ?_
      · rw [hleaf] at he
        cases he
      · exact ⟨fun _ => hparses, fun _ => ⟨_, rfl⟩⟩
  unfold ensureLeaf
  cases draft.data[crtKey req.brokerId]? >>= ByteString.utf8? with
  | some pem => exact sat_now_via trivial fun c => hrest _
  | none => exact hrest 0

/-- The loop succeeds exactly if all stored certificates of its brokers parse: the turns before
    that of a broker do not touch its entries. -/
theorem ensureLeafs_isOk (hlib : lib.Lawful) (hissue : Issues lib kafka ca P reqs)
    (hone : OneEach reqs) (hf : ∀ c, P (f c).clock) (hP : ∃ t, P t) :
    Prog.Sat (Prog.via answer f) (fun _ _ _ => True)
      (fun x _ => (∃ draft', x = .ok draft') ↔ ∀ req ∈ reqs, Parses lib draft.data req)
      (ensureLeafs lib kafka ca force draft reqs) w := by
  induction reqs generalizing draft w with
  | nil => exact ⟨fun _ req hreq => absurd hreq List.not_mem_nil, fun _ => ⟨draft, rfl⟩⟩
  | cons req reqs ih =>
    have hturn := (ensureLeaf_isOk hissue hf).and
      (@ensureLeaf_sat lib kafka ca force P C f w hlib hf hP draft req)
    refine Prog.Sat.bind (hturn.mono (fun _ _ _ _ => trivial) ?_)
    rintro x w' ⟨hok, hturn⟩
    cases x with
    | error e =>
      constructor
      · rintro ⟨draft', h⟩
        cases h
      · intro h
        obtain ⟨draft', h⟩ := hok.mpr (h req List.mem_cons_self)
        cases h
    | ok draft₁ =>
      have hhead : Parses lib draft.data req := hok.mp ⟨draft₁, rfl⟩
      have htail : ∀ req' ∈ reqs, Parses lib draft₁.data req' ↔ Parses lib draft.data req' := by
        intro req' hreq'
        have hsame := (hturn draft₁ rfl).1.sameEntries (hone.head_ne hreq')
        exact ⟨fun h => h.congr hsame.symm, fun h => h.congr hsame⟩
      refine (ih (fun a ha => hissue a (List.mem_cons_of_mem _ ha)) hone.tail).mono
        (fun _ _ _ h => h) fun x v hx => ?_
      rw [hx, List.forall_mem_cons]
      constructor
      · intro h
        exact ⟨hhead, fun req' hreq' => (htail req' hreq').mp (h req' hreq')⟩
      · rintro ⟨-, h⟩ req' hreq'
        exact (htail req' hreq').mpr (h req' hreq')

section Faultless

variable {α : Type} {Q : Except ReconcileError α → World → Prop} {name : String}

theorem eq_of_faultless (hfault : ∀ c, (f c).fault = .none) (c : C) : f c = ⟨.none, (f c).clock⟩ := by
  rw [← hfault c]

theorem sat_getOpt_faultless {k : Option Secret → Op α} (hfault : ∀ c, (f c).fault = .none)
    (hk : Prog.Sat (Prog.via answer f) (fun _ _ _ => True) Q (k (w.secret? name)) w) :
    Prog.Sat (Prog.via answer f) (fun _ _ _ => True) Q (getOpt name >>= k) w := by
  intro c
  simp only [Prog.via]
  rw [eq_of_faultless hfault c]
  exact ⟨trivial, hk⟩

theorem sat_applySecret_faultless {cfg : SecretConfig} {k : Unit → Op α}
    (hfault : ∀ c, (f c).fault = .none)
    (hk : Prog.Sat (Prog.via answer f) (fun _ _ _ => True) Q (k ()) (w.applySecret name cfg)) :
    Prog.Sat (Prog.via answer f) (fun _ _ _ => True) Q (applySecret name cfg >>= k) w := by
  intro c
  simp only [Prog.via]
  rw [eq_of_faultless hfault c]
  exact ⟨trivial, hk⟩

end Faultless

/-- A call without faults succeeds exactly if the stored certificates of its brokers parse. -/
theorem ensureBrokerKeystore_isOk (hlib : lib.Lawful) (hissue : Issues lib kafka ca P reqs)
    (hone : OneEach reqs) (huid : kafka.uid.isSome = true) (hf : ∀ c, P (f c).clock)
    (hfault : ∀ c, (f c).fault = .none) (hP : ∃ t, P t) :
    Prog.Sat (Prog.via answer f) (fun _ _ _ => True)
      (fun x _ => (∃ status, x = .ok status) ↔
        ∀ req ∈ reqs, Parses lib (storedEntries w (brokerKeystoreName kafka.name)) req)
      (ensureBrokerKeystore lib kafka reqs ca force) w := by
  have hloop := @ensureLeafs_isOk lib kafka ca force P
    ⟨storedEntries w (brokerKeystoreName kafka.name), [], []⟩ reqs C f w hlib hissue hone hf hP
  refine sat_getOpt_faultless hfault (Prog.Sat.bind (hloop.mono (fun _ _ _ h => h) ?_))
  intro x a hx
  cases x with
  | error e =>
    rw [← hx]
    constructor
    · rintro ⟨status, h⟩
      cases h
    · rintro ⟨draft, h⟩
      cases h
  | ok draft =>
    obtain ⟨uid, huid⟩ := Option.isSome_iff_exists.mp huid
    have hparses := hx.mp ⟨draft, rfl⟩
    rw [huid]
    exact sat_applySecret_faultless hfault ⟨fun _ => hparses, fun _ => ⟨_, rfl⟩⟩

/-- A call that returns has parsed the stored certificates of its brokers. -/
theorem ensureBrokerKeystore_parses (hlib : lib.Lawful) (hissue : Issues lib kafka ca P reqs)
    (hone : OneEach reqs) (hf : ∀ c, P (f c).clock) (hP : ∃ t, P t) :
    Prog.Sat (Prog.via answer f) (fun _ _ _ => True)
      (fun x _ => ∀ status, x = .ok status →
        ∀ req ∈ reqs, Parses lib (storedEntries w (brokerKeystoreName kafka.name)) req)
      (ensureBrokerKeystore lib kafka reqs ca force) w := by
  have hloop := @ensureLeafs_isOk lib kafka ca force P
    ⟨storedEntries w (brokerKeystoreName kafka.name), [], []⟩ reqs C f w hlib hissue hone hf hP
  refine sat_getOpt_via trivial (fun e status h => by cases h)
    (Prog.Sat.bind (hloop.mono (fun _ _ _ h => h) ?_))
  intro x a hx
  cases x with
  | error e => exact fun status h => by cases h
  | ok draft =>
    have hparses := hx.mp ⟨draft, rfl⟩
    cases kafka.uid with
    | none => exact fun status h => by cases h
    | some uid =>
      exact sat_applySecret_via trivial trivial (fun e v status h => by cases h)
        fun status _ => hparses

end Sat

/-! ## What a call repairs -/

/-- Every request is answered, at a time in `P`. -/
def Faultless (P : Int → Prop) (cs : List Choice) : Prop :=
  ∀ c ∈ cs, c.fault = .none ∧ P c.clock

theorem faultless_replicate {t : Int} {n : Nat} (ht : P t) :
    Faultless P (List.replicate n ⟨.none, t⟩) := by
  intro c hc
  obtain rfl := List.eq_of_mem_replicate hc
  exact ⟨rfl, ht⟩

/-- A leaf that the library has issued, certificate and key together, for the names of a request. -/
def IssuedFor (lib : CaLib) (req : BrokerCertRequest) (leaf : CaMaterial) : Prop :=
  ∃ caCert caKey cn sans extraSans days d,
    lib.issueBrokerCert caCert caKey cn sans extraSans days d = .ok leaf ∧
    ∀ s, s ∈ sans ++ extraSans ↔ s ∈ req.sans ++ req.extraSans

/-- The certificate of a broker parses. It is outside of its renewal window at a time in `P`, unless
    new certificates are not either. -/
structure Current (lib : CaLib) (kafka : Kafka) (P : Int → Prop) (data : BTreeMap ByteString)
    (req : BrokerCertRequest) (pem : Pem) : Prop where
  stored : data[crtKey req.brokerId]? = some (.text pem)
  parses : ∃ t, lib.certNotAfter pem = .ok t
  outside : (WhichCa.spec .cluster kafka).renewalDays < (WhichCa.spec .cluster kafka).validityDays →
    ∃ t, P t ∧ renewIfExpiring lib pem (WhichCa.spec .cluster kafka).renewalDays t = .ok false

/-- The leaf of a broker is in order. -/
def Healthy (lib : CaLib) (kafka : Kafka) (P : Int → Prop) (data : BTreeMap ByteString)
    (req : BrokerCertRequest) : Prop :=
  LeafWith lib (IssuedFor lib req) data req ∧ ∃ pem, Current lib kafka P data req pem

/-- Every faultless call succeeds and leaves the leafs of its brokers in order. -/
def Heals (lib : CaLib) (kafka : Kafka) (ca : CaMaterial) (force : Bool) (P : Int → Prop)
    (reqs : List BrokerCertRequest) (w : World) : Prop :=
  ∀ cs, Faultless P cs → 2 * reqs.length + 2 ≤ cs.length → ∃ status w',
    (ensureBrokerKeystore lib kafka reqs ca force).run answer cs w = (.done status, w') ∧
    ∀ req ∈ reqs, Healthy lib kafka (ClockOf cs)
      (storedEntries w' (brokerKeystoreName kafka.name)) req

/-- The stored certificates parse, and what the call would reuse was issued for the request. -/
structure Repairable (lib : CaLib) (kafka : Kafka) (force : Bool) (P : Int → Prop)
    (reqs : List BrokerCertRequest) (data : BTreeMap ByteString) : Prop where
  parses : ∀ req ∈ reqs, Parses lib data req
  reusable : force = false → ∀ req ∈ reqs, ∀ t, P t →
    reusableAt lib kafka data req t = .ok true → LeafWith lib (IssuedFor lib req) data req

section Main

variable {w : World}

theorem run_done_iff (hlib : lib.Lawful) (hissue : Issues lib kafka ca P reqs)
    (hone : OneEach reqs) (huid : kafka.uid.isSome = true) {cs : List Choice}
    (hcs : Faultless P cs) (hlength : 2 * reqs.length + 2 ≤ cs.length) :
    (∃ status w', (ensureBrokerKeystore lib kafka reqs ca force).run answer cs w =
        (.done status, w')) ↔
      ∀ req ∈ reqs, Parses lib (storedEntries w (brokerKeystoreName kafka.name)) req := by
  have hP : ∃ t, P t := by
    cases cs with
    | nil => exact absurd hlength (by simp)
    | cons c cs => exact ⟨c.clock, (hcs c List.mem_cons_self).2⟩
  have hsat := @ensureBrokerKeystore_isOk lib kafka ca force P reqs {c // c ∈ cs} Subtype.val w hlib
    hissue hone huid (fun c => (hcs c.val c.property).2) (fun c => (hcs c.val c.property).1) hP
  have hrun := hsat.run cs.attach
  rw [Prog.run_via, List.attach_map_subtype_val] at hrun
  have hend : ((ensureBrokerKeystore lib kafka reqs ca force).run answer cs w).1 ≠ .stopped :=
    ensureBrokerKeystore_within.run_ne_stopped hlength w
  cases hout : (ensureBrokerKeystore lib kafka reqs ca force).run answer cs w with
  | mk out w' =>
    rw [hout] at hrun hend
    cases out with
    | done status => exact ⟨fun _ => hrun.mp ⟨status, rfl⟩, fun _ => ⟨status, w', rfl⟩⟩
    | failed e =>
      constructor
      · rintro ⟨status, v, h⟩
        cases h
      · intro h
        obtain ⟨status, h⟩ := hrun.mpr h
        cases h
    | stopped => exact absurd rfl hend

/-- What the decision has looked at. -/
theorem renewIfExpiring_of_reusable {pem : Pem} {t : Int}
    (h : reusableAt lib kafka data req t = .ok true)
    (hcrt : data[crtKey req.brokerId]? = some (.text pem)) :
    renewIfExpiring lib pem (WhichCa.spec .cluster kafka).renewalDays t = .ok false := by
  have hparses := reusableAt_isOk.mp ⟨true, h⟩ pem hcrt
  obtain ⟨expiring, hexpiring⟩ :=
    (@renewIfExpiring_isOk lib pem (WhichCa.spec .cluster kafka).renewalDays t).mpr hparses
  rw [(complete_of_reusable h).reusable hcrt hexpiring] at h
  rw [hexpiring]
  simpa using h

/-- A complete leaf passes for a request exactly if it has the digest of the request and is outside of
    its window. -/
theorem Complete.reusable_iff {req' : BrokerCertRequest} {t : Int} (h : Complete lib data req)
    (hid : req'.brokerId = req.brokerId) :
    reusableAt lib kafka data req' t = .ok true ↔
      computeSanDigest lib req.sans req.extraSans = computeSanDigest lib req'.sans req'.extraSans ∧
        ∀ pem, data[crtKey req.brokerId]? = some (.text pem) →
          renewIfExpiring lib pem (WhichCa.spec .cluster kafka).renewalDays t = .ok false := by
  constructor
  · intro hreuse
    have hdigest := (complete_of_reusable hreuse).digest
    rw [hid, h.digest, Option.some_inj, ByteString.text.injEq, String.toList_inj] at hdigest
    refine ⟨hdigest, fun pem hcrt => renewIfExpiring_of_reusable hreuse ?_⟩
    rw [hid]
    exact hcrt
  · rintro ⟨hdigest, hwindow⟩
    obtain ⟨pem, hcrt⟩ := h.crt
    have hcomplete : Complete lib data req' :=
      ⟨hid ▸ h.crt, hid ▸ h.key, hid ▸ hdigest ▸ h.digest⟩
    exact hcomplete.reusable (hid ▸ hcrt) (hwindow pem hcrt)

/-- A kept leaf is in order if what is reusable was issued for the request. -/
theorem Kept.healthy (h : Kept lib kafka force P data data' req)
    (hleaf : ∀ t, P t → reusableAt lib kafka data req t = .ok true →
      LeafWith lib (IssuedFor lib req) data req) : Healthy lib kafka P data' req := by
  obtain ⟨t, ht, hreuse⟩ := h.reusable
  obtain ⟨pem, hcrt⟩ := (complete_of_reusable hreuse).crt
  refine ⟨(hleaf t ht hreuse).congr h.same, pem, h.same.crt.trans hcrt, ?_, fun _ => ⟨t, ht, ?_⟩⟩
  · exact reusableAt_isOk.mp ⟨_, hreuse⟩ pem hcrt
  · exact renewIfExpiring_of_reusable hreuse hcrt

/-- A new leaf is in order. -/
theorem Issued.healthy (hdated : lib.Dated) (h : Issued lib kafka ca force P data data' req) :
    Healthy lib kafka P data' req := by
  obtain ⟨leaf, hcrt, -, d, hd, hmade⟩ := h.stored.pair
  have hnotAfter := hdated.issueBrokerCert_notAfter hmade
  refine ⟨h.stored.mono ?_, leaf.certPem, hcrt, ⟨_, hnotAfter⟩, fun hwindow => ⟨d.clock, hd, ?_⟩⟩
  · rintro leaf' ⟨d', -, hmade'⟩
    exact ⟨_, _, _, _, _, _, d', hmade', fun s => Iff.rfl⟩
  · rw [renewIfExpiring_dated hnotAfter, decide_eq_true hwindow, Bool.not_true]

theorem Healthy.congr (h : Healthy lib kafka P data req) (hsame : SameEntries data data' req) :
    Healthy lib kafka P data' req := by
  obtain ⟨hleaf, pem, hcrt, hparses, houtside⟩ := h
  exact ⟨hleaf.congr hsame, pem, hsame.crt.trans hcrt, hparses, houtside⟩

/-- A call repairs what it finds exactly if the stored certificates of its brokers parse and the
    leafs that it would reuse were issued for their requests. -/
theorem heals_iff (hlib : lib.Lawful) (hdated : lib.Dated) (hissue : Issues lib kafka ca P reqs)
    (hone : OneEach reqs) (huid : kafka.uid.isSome = true) (hP : ∃ t, P t) (w : World) :
    Heals lib kafka ca force P reqs w ↔
      Repairable lib kafka force P reqs (storedEntries w (brokerKeystoreName kafka.name)) := by
  constructor
  · intro hheals
    -- A run at one time, which is long enough.
    have hrun : ∀ t, P t → ∃ status w', (ensureBrokerKeystore lib kafka reqs ca force).run answer
        (List.replicate (2 * reqs.length + 2) ⟨.none, t⟩) w = (.done status, w') ∧
        ∀ req ∈ reqs, Healthy lib kafka (ClockOf (List.replicate (2 * reqs.length + 2) ⟨.none, t⟩))
          (storedEntries w' (brokerKeystoreName kafka.name)) req := by
      intro t ht
      exact hheals _ (faultless_replicate ht) (List.length_replicate ▸ le_rfl)
    constructor
    · obtain ⟨t, ht⟩ := hP
      obtain ⟨status, w', hdone, -⟩ := hrun t ht
      exact (run_done_iff hlib hissue hone huid (faultless_replicate ht)
        (List.length_replicate ▸ le_rfl)).mp ⟨status, w', hdone⟩
    · rintro rfl req hreq t ht hreuse
      obtain ⟨status, w', hdone, hhealthy⟩ := hrun t ht
      have hcomplete := complete_of_reusable hreuse
      obtain ⟨pem, hcrt⟩ := hcomplete.crt
      obtain ⟨-, -, hsame⟩ := reused_of_complete hlib hone hreq hdone hcomplete hcrt fun c hc => by
        obtain rfl := List.eq_of_mem_replicate hc
        exact renewIfExpiring_of_reusable hreuse hcrt
      exact (hhealthy req hreq).1.congr hsame.symm
  · rintro ⟨hparses, hreusable⟩ cs hcs hlength
    obtain ⟨status, w', hdone⟩ := (run_done_iff hlib hissue hone huid hcs hlength).mpr hparses
    refine ⟨status, w', hdone, fun req hreq => ?_⟩
    obtain ⟨a, draft, -, hturns, rfl, -⟩ := served_of_run hlib hdone
    have hhealthy : Healthy lib kafka (ClockOf cs) draft.data req := by
      rcases hturns.served hone hreq with ⟨hkept, -⟩ | ⟨hnew, -⟩
      · refine hkept.healthy fun t ht hreuse => ?_
        obtain ⟨c, hc, rfl⟩ := ht
        exact hreusable hkept.force req hreq _ (hcs c hc).2 hreuse
      · exact hnew.healthy hdated
    exact hhealthy.congr (sameEntries_stored hreq hhealthy.1.complete.exists_entry)

/-! ## What a call leaves alone -/

/-- Every call that returns keeps the leaf of a request. If it issues no other leaf either, then it
    serves the certificates that are stored. -/
def Spares (lib : CaLib) (kafka : Kafka) (ca : CaMaterial) (force : Bool) (P : Int → Prop)
    (reqs : List BrokerCertRequest) (req : BrokerCertRequest) (w : World) : Prop :=
  let stored := storedEntries w (brokerKeystoreName kafka.name)
  ∀ cs status w', (∀ c ∈ cs, P c.clock) →
    (ensureBrokerKeystore lib kafka reqs ca force).run answer cs w = (.done status, w') →
    req.brokerId ∉ status.issued ∧
    SameEntries stored (storedEntries w' (brokerKeystoreName kafka.name)) req ∧
    ((∀ id ∈ status.issued, id = req.brokerId) →
      status.leafMaterial = leafMaterial (stored.filter fun key _ => retained reqs key))

/-- A call without force keeps exactly what is reusable. -/
theorem spares_iff (hlib : lib.Lawful) (hissue : Issues lib kafka ca P reqs) (hone : OneEach reqs)
    (huid : kafka.uid.isSome = true) (hP : ∃ t, P t) (hreq : req ∈ reqs) :
    Spares lib kafka ca force P reqs req w ↔
      ((∀ req' ∈ reqs, Parses lib (storedEntries w (brokerKeystoreName kafka.name)) req') →
        force = false ∧ ∀ t, P t → reusableAt lib kafka
          (storedEntries w (brokerKeystoreName kafka.name)) req t = .ok true) := by
  constructor
  · intro hspares hparses
    have hkept : ∀ t, P t → force = false ∧ reusableAt lib kafka
        (storedEntries w (brokerKeystoreName kafka.name)) req t = .ok true := by
      intro t ht
      have hfaultless : Faultless P (List.replicate (2 * reqs.length + 2) ⟨.none, t⟩) :=
        faultless_replicate ht
      obtain ⟨status, w', hrun⟩ := (run_done_iff hlib hissue hone huid hfaultless
        (List.length_replicate ▸ le_rfl)).mpr hparses
      obtain ⟨hnot, -⟩ := hspares _ status w' (fun c hc => (hfaultless c hc).2) hrun
      obtain ⟨a, draft, -, hturns, -, rfl⟩ := served_of_run hlib hrun
      rcases hturns.served hone hreq with ⟨hkept, -⟩ | ⟨-, hmem⟩
      · obtain ⟨t', ⟨c, hc, rfl⟩, hreuse⟩ := hkept.reusable
        obtain rfl := List.eq_of_mem_replicate hc
        exact ⟨hkept.force, hreuse⟩
      · exact absurd hmem hnot
    obtain ⟨t, ht⟩ := hP
    exact ⟨(hkept t ht).1, fun t' ht' => (hkept t' ht').2⟩
  · intro hcond cs status w' hcs hrun
    have hsat := @ensureBrokerKeystore_parses lib kafka ca force P reqs {c // c ∈ cs} Subtype.val w
      hlib hissue hone (fun c => hcs c.val c.property) hP
    have hvia : (ensureBrokerKeystore lib kafka reqs ca force).run (Prog.via answer Subtype.val)
        cs.attach w = (.done status, w') := by
      rw [Prog.run_via, List.attach_map_subtype_val]
      exact hrun
    obtain ⟨hforce, hreusable⟩ := hcond (hsat.run_done hvia status rfl)
    obtain ⟨a, draft, -, hturns, rfl, rfl⟩ := served_of_run hlib hrun
    rcases hturns.served hone hreq with ⟨hkept, hreused⟩ | ⟨hnew, -⟩
    · have hnot : req.brokerId ∉ draft.issued := fun hmem =>
        hturns.notMem_reused hone hmem hreused
      obtain ⟨t, -, hreuse⟩ := hkept.reusable
      have hcomplete := (complete_of_reusable hreuse).congr hkept.same
      refine ⟨hnot, hkept.same.trans (sameEntries_stored hreq hcomplete.exists_entry), ?_⟩
      intro honly
      have hnil : draft.issued = [] := by
        refine List.eq_nil_iff_forall_not_mem.mpr fun id hid => hnot ?_
        rw [← honly id hid]
        exact hid
      rw [keystoreStatus, hturns.data_of_issued_nil hone hnil]
    · rcases hnew.due with hdue | ⟨t, ⟨c, hc, rfl⟩, hreuse⟩
      · exact absurd (hforce.symm.trans hdue) (by decide)
      · rw [hreusable _ (hcs c hc)] at hreuse
        cases hreuse

end Main

/-! ## A damaged entry -/

namespace Sample

/-- The keystore after a pass, with one entry replaced by someone else. -/
def damaged (key : String) (v : ByteString) : World :=
  let w := (afterPass (Kafka.minimal "demo") World.empty).2
  let name := brokerKeystoreName "demo"
  w.setSecret name (((w.secret? name).getD Secret.empty).merge "kubectl"
    ⟨∅, BTreeMap.ofList [(key, v)]⟩)

/-- A pass over a keystore without faults. -/
def repair (force : Bool) (w : World) : Prog.Outcome ReconcileError BrokerKeystoreStatus × World :=
  (ensureBrokerKeystore SampleLib.named (Kafka.minimal "demo") [twoNames] caOne force).run answer
    (List.replicate 4 {}) w

/-- A certificate that is no PEM text, one that is no text, and a key that is no text. -/
def notPem : World := damaged (crtKey 0) (.text "junk".toList)
def notText : World := damaged (crtKey 0) (.binary [255])
def otherKey : World := damaged (keyKey 0) (.binary [255])

end Sample

open Sample in
/-- A certificate that is no text is replaced. -/
theorem heals_notText : Heals SampleLib.named (Kafka.minimal "demo") caOne false (fun _ => True)
    [twoNames] notText := by
  have hcrt : (storedEntries notText (brokerKeystoreName "demo"))[crtKey 0]? =
      some (.binary [255]) := by decide +kernel
  refine (heals_iff SampleLib.named_lawful SampleLib.named_dated ?_ (by decide) rfl ⟨0, trivial⟩
    notText).mpr ⟨?_, ?_⟩
  · intro req hreq d _
    obtain rfl := List.mem_singleton.mp hreq
    exact ⟨_, rfl⟩
  · intro req hreq pem hpem
    obtain rfl := List.mem_singleton.mp hreq
    cases hcrt.symm.trans hpem
  · rintro - req hreq t - hreuse
    obtain rfl := List.mem_singleton.mp hreq
    obtain ⟨pem, hpem⟩ := (complete_of_reusable hreuse).crt
    cases hcrt.symm.trans hpem

open Sample in
/-- A certificate that is a text but no PEM stops the call, even a forced one. A key that is no text is
    kept next to its certificate. -/
theorem damaged_entry_stays :
    ¬ Heals SampleLib.named (Kafka.minimal "demo") caOne true (fun _ => True) [twoNames] notPem ∧
    (repair true notPem).1 = .failed (.certParse "no PEM block") ∧
    ¬ Heals SampleLib.named (Kafka.minimal "demo") caOne false (fun _ => True) [twoNames] otherKey := by
  have hfailed : (repair true notPem).1 = .failed (.certParse "no PEM block") := by decide +kernel
  refine ⟨fun h => ?_, hfailed, fun h => ?_⟩
  · obtain ⟨status, w', hrun, -⟩ := h (List.replicate 4 {}) (faultless_replicate trivial) (by decide)
    rw [repair, hrun] at hfailed
    cases hfailed
  · have hkey : (storedEntries (repair false otherKey).2 (brokerKeystoreName "demo"))[keyKey 0]? =
        some (.binary [255]) := by decide +kernel
    obtain ⟨status, w', hrun, hhealthy⟩ :=
      h (List.replicate 4 {}) (faultless_replicate trivial) (by decide)
    rw [repair, hrun] at hkey
    obtain ⟨leaf, -, hleaf, -⟩ := (hhealthy twoNames List.mem_cons_self).1.pair
    cases hkey.symm.trans hleaf

end ClusterCa
