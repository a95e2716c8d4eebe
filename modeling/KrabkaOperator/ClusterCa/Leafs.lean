-- SUMMARY: What the keystore program writes: each turn keeps a reusable leaf or stores one that the given key signs, and the write lists wanted entries only.
import KrabkaOperator.ClusterCa.Frame
import KrabkaOperator.ClusterCa.Keystore

/-!
# The leafs of the keystore

`Turn` is one turn of the loop over the requests, `Turns` the whole loop. The
program reads the keystore once, changes nothing but the draws until its last
request, and that request applies the entries that the loop leaves.
-/

namespace ClusterCa

open Kube Crd Operator

/-! ## Keys of the entries -/

private theorem entryKey_injective {i j : Int} {suffix : String}
    (h : toString i ++ suffix = toString j ++ suffix) : i = j := by
  have hlist := congrArg String.toList h
  simp only [String.toList_append] at hlist
  exact Decimal.toString_injective (String.toList_inj.mp (List.append_cancel_right hlist))

theorem crtKey_injective {i j : Int} (h : crtKey i = crtKey j) : i = j := entryKey_injective h

theorem keyKey_injective {i j : Int} (h : keyKey i = keyKey j) : i = j := entryKey_injective h

theorem digestKey_injective {i j : Int} (h : digestKey i = digestKey j) : i = j :=
  entryKey_injective h

/-- Keys with different endings are different. -/
private theorem append_ne_append {a b s t : String} (hst : ¬ s.toList <:+ t.toList)
    (hts : ¬ t.toList <:+ s.toList) : a ++ s ≠ b ++ t := by
  intro h
  have hlist := congrArg String.toList h
  simp only [String.toList_append] at hlist
  have hs : s.toList <:+ a.toList ++ s.toList := List.suffix_append _ _
  have ht : t.toList <:+ a.toList ++ s.toList := hlist ▸ List.suffix_append _ _
  rcases List.suffix_or_suffix_of_suffix hs ht with h' | h'
  · exact hst h'
  · exact hts h'

theorem crtKey_ne_keyKey {i j : Int} : crtKey i ≠ keyKey j :=
  append_ne_append (by decide) (by decide)

theorem crtKey_ne_digestKey {i j : Int} : crtKey i ≠ digestKey j :=
  append_ne_append (by decide) (by decide)

theorem keyKey_ne_digestKey {i j : Int} : keyKey i ≠ digestKey j :=
  append_ne_append (by decide) (by decide)

/-- Two brokers share no entry. -/
theorem wantKeys_disjoint {req req' : BrokerCertRequest} (h : req.brokerId ≠ req'.brokerId)
    {k : String} (hk : k ∈ wantKeys [req]) : k ∉ wantKeys [req'] := by
  simp only [wantKeys, List.flatMap_cons, List.flatMap_nil, List.append_nil, List.mem_cons,
    List.not_mem_nil, or_false] at hk ⊢
  rcases hk with rfl | rfl | rfl
  · rintro (h' | h' | h')
    · exact h (crtKey_injective h')
    · exact crtKey_ne_keyKey h'
    · exact crtKey_ne_digestKey h'
  · rintro (h' | h' | h')
    · exact crtKey_ne_keyKey h'.symm
    · exact h (keyKey_injective h')
    · exact keyKey_ne_digestKey h'
  · rintro (h' | h' | h')
    · exact crtKey_ne_digestKey h'.symm
    · exact keyKey_ne_digestKey h'.symm
    · exact h (digestKey_injective h')

theorem crtKey_mem_wantKeys {id : Int} {requests : List BrokerCertRequest}
    (h : crtKey id ∈ wantKeys requests) : ∃ req ∈ requests, req.brokerId = id := by
  simp only [wantKeys, List.mem_flatMap, List.mem_cons, List.not_mem_nil, or_false] at h
  obtain ⟨req, hreq, h | h | h⟩ := h
  · exact ⟨req, hreq, (crtKey_injective h).symm⟩
  · exact absurd h crtKey_ne_keyKey
  · exact absurd h crtKey_ne_digestKey

/-- The ids of brokers are `i32`. -/
def IsNodeId (id : Int) : Prop := -(2 ^ 31 : Int) ≤ id ∧ id < 2 ^ 31

instance (id : Int) : Decidable (IsNodeId id) := inferInstanceAs (Decidable (_ ∧ _))

/-- A key that starts with the text of an id and a dot is read back as that text. -/
theorem keyNodeId?_append {id : Int} {suffix : String} {rest : List Char}
    (h : suffix.toList = '.' :: rest) :
    keyNodeId? (toString id ++ suffix) = Decimal.parseI32 (toString id) := by
  have hlist : (toString id ++ suffix).toList = (toString id).toList ++ '.' :: rest := by
    rw [String.toList_append, h]
  have htake : (toString id ++ suffix).toList.takeWhile (· ≠ '.') = (toString id).toList := by
    rw [hlist, List.takeWhile_append_of_pos]
    · simp
    · intro c hc
      have hne : c ≠ '.' := fun heq => Decimal.not_mem_toString (by decide) (by decide) (heq ▸ hc)
      simpa using hne
  have hdot : '.' ∈ (toString id ++ suffix).toList := by
    rw [hlist]
    exact List.mem_append_right _ List.mem_cons_self
  rw [keyNodeId?, if_pos hdot, htake, String.ofList_toList]

theorem keyNodeId?_crtKey {id : Int} (h : IsNodeId id) : keyNodeId? (crtKey id) = some id :=
  (keyNodeId?_append rfl).trans (Decimal.parseI32_toString h)

/-- A key of a broker is read as the id of no other broker. -/
theorem eq_of_keyNodeId? {req : BrokerCertRequest} {k : String} {id : Int}
    (hk : k ∈ wantKeys [req]) (h : keyNodeId? k = some id) : id = req.brokerId := by
  simp only [wantKeys, List.flatMap_cons, List.flatMap_nil, List.append_nil, List.mem_cons,
    List.not_mem_nil, or_false] at hk
  have hparse : Decimal.parseI32 (toString req.brokerId) = some id := by
    rcases hk with rfl | rfl | rfl
    · exact (keyNodeId?_append rfl).symm.trans h
    · exact (keyNodeId?_append rfl).symm.trans h
    · exact (keyNodeId?_append rfl).symm.trans h
  exact Decimal.eq_of_parseSigned_toString hparse

/-- The write keeps the leafs of requested brokers only. -/
theorem exists_of_retained_crtKey {id : Int} {requests : List BrokerCertRequest} (hid : IsNodeId id)
    (h : retained requests (crtKey id) = true) : ∃ req ∈ requests, req.brokerId = id := by
  rw [retained, keyNodeId?_crtKey hid] at h
  exact crtKey_mem_wantKeys (by simpa using h)

/-! ## The loop -/

section Loop

variable (lib : CaLib) (kafka : Kafka) (ca : CaMaterial) (force : Bool) (P : Int → Prop)

/-- The reuse decision of the keystore of a `Kafka`. -/
def reusableAt (data : BTreeMap ByteString) (req : BrokerCertRequest) (t : Int) :
    Except String Bool :=
  leafReusable lib (WhichCa.spec .cluster kafka).renewalDays data req t

/-- One turn for a request, with a clock in `P`. -/
inductive Turn (draft : KeystoreDraft) (req : BrokerCertRequest) : KeystoreDraft → Prop
  | kept {t : Int} (hforce : force = false) (ht : P t)
      (h : reusableAt lib kafka draft.data req t = .ok true) :
      Turn draft req { draft with reused := draft.reused ++ [req.brokerId] }
  | issued {leaf : CaMaterial}
      (signed : lib.certSigner leaf.certPem = some (lib.publicKeyOf ca.keyPem))
      (made : ∃ d, P d.clock ∧ lib.issueBrokerCert ca.certPem ca.keyPem req.cn req.sans
        req.extraSans (WhichCa.spec .cluster kafka).validityDays d = .ok leaf)
      (h : force = true ∨ ∃ t, P t ∧ reusableAt lib kafka draft.data req t = .ok false) :
      Turn draft req (draft.issue lib req leaf)

/-- The turns for all requests, in order. -/
inductive Turns : KeystoreDraft → List BrokerCertRequest → KeystoreDraft → Prop
  | nil {draft : KeystoreDraft} : Turns draft [] draft
  | cons {draft draft' draft'' : KeystoreDraft} {req : BrokerCertRequest}
      {reqs : List BrokerCertRequest} (head : Turn lib kafka ca force P draft req draft')
      (tail : Turns draft' reqs draft'') : Turns draft (req :: reqs) draft''

/-- A request of the loop: it reads the clock, or draws. -/
def LoopStep (a : World) (r : Req) (b : World) : Prop :=
  (r = .now ∨ r = .draw) ∧ OnlyDraws a b

variable {lib kafka ca force P} {C : Type} {f : C → Choice} {w : World}

/-- Without a readable certificate the decision does not look at the clock. -/
theorem reusableAt_unreadable {data : BTreeMap ByteString} {req : BrokerCertRequest}
    (h : data[crtKey req.brokerId]? >>= ByteString.utf8? = none) (t t' : Int) :
    reusableAt lib kafka data req t = reusableAt lib kafka data req t' := by
  simp only [reusableAt, leafReusable, h]

theorem ensureLeaf_sat (hlib : lib.Lawful) (hf : ∀ c, P (f c).clock) (hP : ∃ t, P t)
    (draft : KeystoreDraft) (req : BrokerCertRequest) :
    Prog.Sat (Prog.via answer f) LoopStep
      (fun x w' => ∀ draft', x = .ok draft' →
        Turn lib kafka ca force P draft req draft' ∧ OnlyDraws w w')
      (ensureLeaf lib kafka ca force draft req) w := by
  -- What follows the clock reading.
  have hrest : ∀ t, (∃ t', P t' ∧
      reusableAt lib kafka draft.data req t' = reusableAt lib kafka draft.data req t) →
      Prog.Sat (Prog.via answer f) LoopStep
        (fun x w' => ∀ draft', x = .ok draft' →
          Turn lib kafka ca force P draft req draft' ∧ OnlyDraws w w')
        (do
          let reusable ← orFail .certParse (reusableAt lib kafka draft.data req t)
          if reusable && !force then
            pure { draft with reused := draft.reused ++ [req.brokerId] }
          else
            let d ← draw
            let leaf ← orFail .ca (lib.issueBrokerCert ca.certPem ca.keyPem req.cn req.sans
              req.extraSans (WhichCa.spec .cluster kafka).validityDays d)
            pure (draft.issue lib req leaf)) w := by
    rintro t ⟨t', ht', heq⟩
    refine sat_orFail_via (fun _ _ draft' h => nomatch h) fun reusable hreusable => ?_
    rw [hreusable] at heq
    by_cases hkeep : (reusable && !force) = true
    · rw [if_pos hkeep]
      simp only [Bool.and_eq_true, Bool.not_eq_true'] at hkeep
      rintro draft' ⟨⟩
      exact ⟨.kept hkeep.2 ht' (hkeep.1 ▸ heq), .refl w⟩
    · rw [if_neg hkeep]
      refine sat_draw_via ⟨.inr rfl, .draw w⟩ fun c => ?_
      refine sat_orFail_via (fun _ _ draft' h => nomatch h) fun leaf hleaf => ?_
      rintro draft' ⟨⟩
      refine ⟨.issued (hlib.issueBrokerCert_signer hleaf) ⟨_, hf c, hleaf⟩ ?_, .draw w⟩
      cases hforce : force with
      | true => exact .inl rfl
      | false =>
        have hfalse : reusable = false := by simpa [hforce] using hkeep
        exact .inr ⟨t', ht', hfalse ▸ heq⟩
  unfold ensureLeaf
  cases hpem : draft.data[crtKey req.brokerId]? >>= ByteString.utf8? with
  | some pem =>
    exact sat_now_via ⟨.inl rfl, .refl w⟩ fun c => hrest _ ⟨_, hf c, rfl⟩
  | none =>
    obtain ⟨t, ht⟩ := hP
    exact hrest 0 ⟨t, ht, reusableAt_unreadable hpem t 0⟩

theorem ensureLeafs_sat (hlib : lib.Lawful) (hf : ∀ c, P (f c).clock) (hP : ∃ t, P t)
    (draft : KeystoreDraft) (reqs : List BrokerCertRequest) :
    Prog.Sat (Prog.via answer f) LoopStep
      (fun x w' => ∀ draft', x = .ok draft' →
        Turns lib kafka ca force P draft reqs draft' ∧ OnlyDraws w w')
      (ensureLeafs lib kafka ca force draft reqs) w := by
  induction reqs generalizing draft w with
  | nil =>
    rintro draft' ⟨⟩
    exact ⟨.nil, .refl w⟩
  | cons req reqs ih =>
    refine Prog.Sat.bind ((ensureLeaf_sat hlib hf hP draft req).mono (fun _ _ _ h => h) ?_)
    intro x w' hx
    cases x with
    | error e => exact fun draft' h => nomatch h
    | ok draft₁ =>
      obtain ⟨hturn, hdraws⟩ := hx draft₁ rfl
      refine (ih draft₁ (w := w')).mono (fun _ _ _ h => h) fun x v hx draft' hx' => ?_
      obtain ⟨hturns, hdraws'⟩ := hx draft' hx'
      exact ⟨.cons hturn hturns, hdraws.trans hdraws'⟩

/-- The entry is a leaf that `key` signs. -/
def SignedBy (lib : CaLib) (key : Pem) (v : ByteString) : Prop :=
  ∃ pem, v = .text pem ∧ lib.certSigner pem = some (lib.publicKeyOf key)

section Entries

variable {draft draft' : KeystoreDraft} {req : BrokerCertRequest} {reqs : List BrokerCertRequest}

theorem getElem?_issue_crtKey {leaf : CaMaterial} :
    (draft.issue lib req leaf).data[crtKey req.brokerId]? = some (.text leaf.certPem) := by
  simp only [KeystoreDraft.issue, Std.ExtTreeMap.getElem?_insert,
    Std.LawfulEqCmp.compare_eq_iff_eq, crtKey_ne_keyKey.symm, crtKey_ne_digestKey.symm, if_false,
    if_true]

theorem getElem?_issue_of_notMem {leaf : CaMaterial} {k : String}
    (h : k ∉ wantKeys [req]) : (draft.issue lib req leaf).data[k]? = draft.data[k]? := by
  simp only [wantKeys, List.flatMap_cons, List.flatMap_nil, List.append_nil, List.mem_cons,
    List.not_mem_nil, or_false, not_or] at h
  simp only [KeystoreDraft.issue, Std.ExtTreeMap.getElem?_insert,
    Std.LawfulEqCmp.compare_eq_iff_eq, Ne.symm h.1, Ne.symm h.2.1, Ne.symm h.2.2, if_false]

theorem Turn.getElem?_of_notMem (h : Turn lib kafka ca force P draft req draft') {k : String}
    (hk : k ∉ wantKeys [req]) : draft'.data[k]? = draft.data[k]? := by
  cases h with
  | kept => rfl
  | issued => exact getElem?_issue_of_notMem hk

theorem crtKey_notMem_wantKeys {id : Int} (h : ∀ req ∈ reqs, req.brokerId ≠ id) :
    crtKey id ∉ wantKeys reqs := by
  intro hmem
  obtain ⟨req, hreq, hid⟩ := crtKey_mem_wantKeys hmem
  exact h req hreq hid

/-- The leaf of a broker is new and signed by the given key, or it is the old one. A
    forced loop leaves no old leaf of a requested broker. -/
theorem Turns.leaf (h : Turns lib kafka ca force P draft reqs draft') {id : Int} {v : ByteString}
    (hv : draft'.data[crtKey id]? = some v) :
    SignedBy lib ca.keyPem v ∨
      (draft.data[crtKey id]? = some v ∧ (force = true → ∀ req ∈ reqs, req.brokerId ≠ id)) := by
  induction h with
  | nil => exact .inr ⟨hv, fun _ req hreq => nomatch hreq⟩
  | @cons draft draft₁ draft₂ req reqs head tail ih =>
    rcases ih hv with hsigned | ⟨hold, hforced⟩
    · exact .inl hsigned
    cases head with
    | kept hforce =>
      exact .inr ⟨hold, fun hf => absurd (hforce.symm.trans hf) (by decide)⟩
    | @issued leaf signed =>
      by_cases hid : req.brokerId = id
      · subst hid
        rw [getElem?_issue_crtKey, Option.some_inj] at hold
        exact .inl ⟨_, hold.symm, signed⟩
      · rw [getElem?_issue_of_notMem (crtKey_notMem_wantKeys (by simpa using hid))] at hold
        refine .inr ⟨hold, fun hf req' hreq' => ?_⟩
        rcases List.mem_cons.mp hreq' with rfl | hmem
        · exact hid
        · exact hforced hf req' hmem

theorem Turns.getElem?_of_notMem (h : Turns lib kafka ca force P draft reqs draft') {k : String}
    (hk : k ∉ wantKeys reqs) : draft'.data[k]? = draft.data[k]? := by
  induction h with
  | nil => rfl
  | @cons draft draft₁ draft₂ req reqs head tail ih =>
    simp only [wantKeys, List.flatMap_cons, List.mem_append, not_or] at hk ih
    rw [ih hk.2, head.getElem?_of_notMem]
    simpa [wantKeys] using hk.1

end Entries

end Loop

/-! ## The program -/

section Program

/-- The entries of a Secret, without their managers. -/
def storedEntries (w : World) (name : String) : BTreeMap ByteString :=
  ((w.secret? name).map fun s => s.data.values).getD ∅

/-- The entries that the program applies when it finds `old`. -/
def KeystoreData (lib : CaLib) (kafka : Kafka) (ca : CaMaterial) (force : Bool) (P : Int → Prop)
    (requests : List BrokerCertRequest) (old data : BTreeMap ByteString) : Prop :=
  ∃ draft, Turns lib kafka ca force P ⟨old, [], []⟩ requests draft ∧
    data = draft.data.filter fun key _ => retained requests key

/-- One request of the program that has found the entries `old`. -/
structure KeystoreStep (lib : CaLib) (kafka : Kafka) (ca : CaMaterial) (force : Bool)
    (P : Int → Prop) (requests : List BrokerCertRequest) (w₀ a : World) (r : Req) (b : World) :
    Prop where
  before : OnlyDraws w₀ a
  after : ((r = .getSecret (brokerKeystoreName kafka.name) ∨ r = .now ∨ r = .draw) ∧
      OnlyDraws a b) ∨
    ∃ data, KeystoreData lib kafka ca force P requests
        (storedEntries w₀ (brokerKeystoreName kafka.name)) data ∧
      r = .applySecret (brokerKeystoreName kafka.name) ⟨∅, data⟩ ∧
      (b = a ∨ b = a.applySecret (brokerKeystoreName kafka.name) ⟨∅, data⟩)

/-- The result of the program. -/
def KeystorePost (lib : CaLib) (kafka : Kafka) (ca : CaMaterial) (force : Bool) (P : Int → Prop)
    (requests : List BrokerCertRequest) (w₀ : World)
    (x : Except ReconcileError BrokerKeystoreStatus) (w : World) : Prop :=
  ∀ status, x = .ok status → ∃ a data, OnlyDraws w₀ a ∧
    KeystoreData lib kafka ca force P requests
      (storedEntries w₀ (brokerKeystoreName kafka.name)) data ∧
    w = a.applySecret (brokerKeystoreName kafka.name) ⟨∅, data⟩ ∧
    status.leafMaterial = leafMaterial data

variable {lib : CaLib} {kafka : Kafka} {ca : CaMaterial} {force : Bool} {P : Int → Prop}
  {requests : List BrokerCertRequest} {C : Type} {f : C → Choice}

/-- What the program reports after its loop. -/
def keystoreStatus (requests : List BrokerCertRequest) (draft : KeystoreDraft) :
    BrokerKeystoreStatus where
  issued := draft.issued
  reused := draft.reused
  pruned := (((draft.data.keys.filter fun key => !retained requests key).filterMap
    keyNodeId?).insertionSort (· ≤ ·)).destutter (· ≠ ·)
  leafMaterial := leafMaterial (draft.data.filter fun key _ => retained requests key)

/-- A run that returns has gone through the turns for all requests. -/
def KeystoreServed (lib : CaLib) (kafka : Kafka) (ca : CaMaterial) (force : Bool) (P : Int → Prop)
    (requests : List BrokerCertRequest) (w₀ : World)
    (x : Except ReconcileError BrokerKeystoreStatus) (w : World) : Prop :=
  ∀ status, x = .ok status → ∃ a draft, OnlyDraws w₀ a ∧
    Turns lib kafka ca force P ⟨storedEntries w₀ (brokerKeystoreName kafka.name), [], []⟩ requests
      draft ∧
    w = a.applySecret (brokerKeystoreName kafka.name)
      ⟨∅, draft.data.filter fun key _ => retained requests key⟩ ∧
    status = keystoreStatus requests draft

/-- The same without what was reused and pruned. -/
def KeystoreTurns (lib : CaLib) (kafka : Kafka) (ca : CaMaterial) (force : Bool) (P : Int → Prop)
    (requests : List BrokerCertRequest) (w₀ : World)
    (x : Except ReconcileError BrokerKeystoreStatus) (w : World) : Prop :=
  ∀ status, x = .ok status → ∃ a draft, OnlyDraws w₀ a ∧
    Turns lib kafka ca force P ⟨storedEntries w₀ (brokerKeystoreName kafka.name), [], []⟩ requests
      draft ∧
    w = a.applySecret (brokerKeystoreName kafka.name)
      ⟨∅, draft.data.filter fun key _ => retained requests key⟩ ∧
    status.issued = draft.issued ∧
    status.leafMaterial = leafMaterial (draft.data.filter fun key _ => retained requests key)

theorem ensureBrokerKeystore_served (hlib : lib.Lawful) (hf : ∀ c, P (f c).clock) (hP : ∃ t, P t)
    (w : World) :
    Prog.Sat (Prog.via answer f) (KeystoreStep lib kafka ca force P requests w)
      (KeystoreServed lib kafka ca force P requests w)
      (ensureBrokerKeystore lib kafka requests ca force) w := by
  refine sat_getOpt_via ⟨.refl w, .inl ⟨.inl rfl, .refl w⟩⟩ (fun e status h => nomatch h) ?_
  have hloop := @ensureLeafs_sat lib kafka ca force P C f w hlib hf hP
    ⟨storedEntries w (brokerKeystoreName kafka.name), [], []⟩ requests
  have hstage := hloop.stage (S := KeystoreStep lib kafka ca force P requests w) (I := OnlyDraws w)
    (fun a r b ha h => ⟨⟨ha, .inl ⟨.inr h.1, h.2⟩⟩, ha.trans h.2⟩) (.refl w)
  refine Prog.Sat.bind (hstage.mono (fun _ _ _ h => h) ?_)
  rintro x a ⟨hx, ha⟩
  cases x with
  | error e => exact fun status h => nomatch h
  | ok draft =>
    obtain ⟨hturns, -⟩ := hx draft rfl
    have hdata : KeystoreData lib kafka ca force P requests
        (storedEntries w (brokerKeystoreName kafka.name))
        (draft.data.filter fun key _ => retained requests key) := ⟨draft, hturns, rfl⟩
    cases kafka.uid with
    | none => exact fun status h => nomatch h
    | some uid =>
      refine sat_applySecret_via ⟨ha, .inr ⟨_, hdata, rfl, .inl rfl⟩⟩
        ⟨ha, .inr ⟨_, hdata, rfl, .inr rfl⟩⟩ (fun e v status h => nomatch h) ?_
      rintro status ⟨⟩
      exact ⟨a, draft, ha, hturns, rfl, rfl⟩

theorem ensureBrokerKeystore_turns (hlib : lib.Lawful) (hf : ∀ c, P (f c).clock) (hP : ∃ t, P t)
    (w : World) :
    Prog.Sat (Prog.via answer f) (KeystoreStep lib kafka ca force P requests w)
      (KeystoreTurns lib kafka ca force P requests w)
      (ensureBrokerKeystore lib kafka requests ca force) w := by
  refine (ensureBrokerKeystore_served hlib hf hP w).mono (fun _ _ _ h => h) ?_
  intro x w' hx status hstatus
  obtain ⟨a, draft, ha, hturns, hw', hdone⟩ := hx status hstatus
  exact ⟨a, draft, ha, hturns, hw', congrArg (·.issued) hdone, congrArg (·.leafMaterial) hdone⟩

theorem ensureBrokerKeystore_sat (hlib : lib.Lawful) (hf : ∀ c, P (f c).clock) (hP : ∃ t, P t)
    (w : World) :
    Prog.Sat (Prog.via answer f) (KeystoreStep lib kafka ca force P requests w)
      (KeystorePost lib kafka ca force P requests w)
      (ensureBrokerKeystore lib kafka requests ca force) w := by
  refine (ensureBrokerKeystore_turns hlib hf hP w).mono (fun _ _ _ h => h) ?_
  intro x w' hx status hstatus
  obtain ⟨a, draft, ha, hturns, hw', -, hmaterial⟩ := hx status hstatus
  exact ⟨a, _, ha, ⟨draft, hturns, rfl⟩, hw', hmaterial⟩

namespace KeystoreData

variable {old data : BTreeMap ByteString}

private theorem getElem?_filter_eq {m : BTreeMap ByteString} {p : String → Bool} {k : String}
    {v : ByteString} (h : (m.filter fun key _ => p key)[k]? = some v) :
    m[k]? = some v ∧ p k = true := by
  rw [Std.ExtTreeMap.getElem?_filter', Option.filter_eq_some_iff] at h
  exact h

/-- The leafs that the write lists. -/
theorem leaf (h : KeystoreData lib kafka ca force P requests old data) {id : Int}
    (hid : IsNodeId id) {v : ByteString} (hv : data[crtKey id]? = some v) :
    SignedBy lib ca.keyPem v ∨ (force = false ∧ old[crtKey id]? = some v) := by
  obtain ⟨draft, hturns, rfl⟩ := h
  obtain ⟨hdraft, hretained⟩ := getElem?_filter_eq hv
  obtain ⟨req, hreq, hreqId⟩ := exists_of_retained_crtKey hid hretained
  rcases hturns.leaf hdraft with hsigned | ⟨hold, hforced⟩
  · exact .inl hsigned
  · refine .inr ⟨?_, hold⟩
    by_contra hf
    exact hforced (Bool.eq_true_of_not_eq_false hf) req hreq hreqId

/-- An entry of no node is listed as it was. -/
theorem other (h : KeystoreData lib kafka ca force P requests old data) {k : String}
    {v : ByteString} (hk : k ∉ wantKeys requests) (hv : data[k]? = some v) : old[k]? = some v := by
  obtain ⟨draft, hturns, rfl⟩ := h
  rw [← (getElem?_filter_eq hv).1]
  exact (hturns.getElem?_of_notMem hk).symm

end KeystoreData

end Program

end ClusterCa
