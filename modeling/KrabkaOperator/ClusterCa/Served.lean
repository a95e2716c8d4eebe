-- SUMMARY: What the keystore program does for each of its requests, and what it stores and reports.
import KrabkaOperator.Base.Checks
import KrabkaOperator.ClusterCa.Leafs

/-!
# Served requests

With one request for each broker, the turn of a broker is the only one that touches
its entries. So the loop either keeps the stored leaf of a broker, which was
reusable, or replaces its three entries.
-/

namespace ClusterCa

open Kube Crd Operator

variable {lib : CaLib} {kafka : Kafka} {ca : CaMaterial} {force : Bool} {P : Int → Prop}
  {draft draft' : KeystoreDraft} {req req' : BrokerCertRequest} {reqs : List BrokerCertRequest}
  {data data' : BTreeMap ByteString} {Good Good' : CaMaterial → Prop}

/-! ## The entries of one broker -/

/-- The entries of a broker hold a good leaf, with the digest of the requested names. -/
structure LeafWith (lib : CaLib) (Good : CaMaterial → Prop) (data : BTreeMap ByteString)
    (req : BrokerCertRequest) : Prop where
  pair : ∃ leaf, data[crtKey req.brokerId]? = some (.text leaf.certPem) ∧
    data[keyKey req.brokerId]? = some (.text leaf.keyPem) ∧ Good leaf
  digest : data[digestKey req.brokerId]? =
    some (.text (computeSanDigest lib req.sans req.extraSans).toList)

/-- The entries of a broker are the same. -/
def SameEntries (data data' : BTreeMap ByteString) (req : BrokerCertRequest) : Prop :=
  ∀ k ∈ wantKeys [req], data'[k]? = data[k]?

theorem mem_wantKeys_single {k : String} : k ∈ wantKeys [req] ↔
    k = crtKey req.brokerId ∨ k = keyKey req.brokerId ∨ k = digestKey req.brokerId := by
  simp [wantKeys]

theorem SameEntries.crt (h : SameEntries data data' req) :
    data'[crtKey req.brokerId]? = data[crtKey req.brokerId]? :=
  h _ (mem_wantKeys_single.mpr (.inl rfl))

theorem SameEntries.key (h : SameEntries data data' req) :
    data'[keyKey req.brokerId]? = data[keyKey req.brokerId]? :=
  h _ (mem_wantKeys_single.mpr (.inr (.inl rfl)))

theorem SameEntries.digest (h : SameEntries data data' req) :
    data'[digestKey req.brokerId]? = data[digestKey req.brokerId]? :=
  h _ (mem_wantKeys_single.mpr (.inr (.inr rfl)))

theorem SameEntries.symm (h : SameEntries data data' req) : SameEntries data' data req :=
  fun k hk => (h k hk).symm

theorem SameEntries.trans {data'' : BTreeMap ByteString} (h : SameEntries data data' req)
    (h' : SameEntries data' data'' req) : SameEntries data data'' req :=
  fun k hk => (h' k hk).trans (h k hk)

/-- Only the entries of the broker matter. -/
theorem LeafWith.congr (h : LeafWith lib Good data req) (hsame : SameEntries data data' req) :
    LeafWith lib Good data' req := by
  obtain ⟨leaf, hcrt, hkey, hgood⟩ := h.pair
  exact ⟨⟨leaf, hsame.crt.trans hcrt, hsame.key.trans hkey, hgood⟩, hsame.digest.trans h.digest⟩

theorem LeafWith.mono (h : LeafWith lib Good data req) (hmono : ∀ leaf, Good leaf → Good' leaf) :
    LeafWith lib Good' data req := by
  obtain ⟨leaf, hcrt, hkey, hgood⟩ := h.pair
  exact ⟨⟨leaf, hcrt, hkey, hmono leaf hgood⟩, h.digest⟩

theorem leafWith_issue {leaf : CaMaterial} (h : Good leaf) :
    LeafWith lib Good (draft.issue lib req leaf).data req where
  pair := by
    refine ⟨leaf, getElem?_issue_crtKey, ?_, h⟩
    simp only [KeystoreDraft.issue, Std.ExtTreeMap.getElem?_insert,
      Std.LawfulEqCmp.compare_eq_iff_eq, keyKey_ne_digestKey.symm, if_false, if_true]
  digest := by simp [KeystoreDraft.issue]

/-- The decision looks at the entries of the broker only. -/
theorem reusableAt_congr (hsame : SameEntries data data' req) (t : Int) :
    reusableAt lib kafka data' req t = reusableAt lib kafka data req t := by
  simp only [reusableAt, leafReusable, Std.ExtTreeMap.contains_eq_isSome_getElem?, hsame.crt,
    hsame.key, hsame.digest]

/-- The entries of a broker are there, with a readable certificate and the digest of the requested
    names. -/
structure Complete (lib : CaLib) (data : BTreeMap ByteString) (req : BrokerCertRequest) : Prop where
  crt : ∃ pem, data[crtKey req.brokerId]? = some (.text pem)
  key : ∃ b, data[keyKey req.brokerId]? = some b
  digest : data[digestKey req.brokerId]? =
    some (.text (computeSanDigest lib req.sans req.extraSans).toList)

theorem LeafWith.complete (h : LeafWith lib Good data req) : Complete lib data req := by
  obtain ⟨leaf, hcrt, hkey, -⟩ := h.pair
  exact ⟨⟨_, hcrt⟩, ⟨_, hkey⟩, h.digest⟩

theorem Complete.congr (h : Complete lib data req) (hsame : SameEntries data data' req) :
    Complete lib data' req :=
  ⟨hsame.crt ▸ h.crt, hsame.key ▸ h.key, hsame.digest ▸ h.digest⟩

theorem Complete.exists_entry (h : Complete lib data req) :
    ∀ k ∈ wantKeys [req], ∃ v, data[k]? = some v := by
  obtain ⟨pem, hcrt⟩ := h.crt
  intro k hk
  rcases mem_wantKeys_single.mp hk with rfl | rfl | rfl
  · exact ⟨_, hcrt⟩
  · exact h.key
  · exact ⟨_, h.digest⟩

/-- Such a leaf is reusable unless it is about to expire. -/
theorem Complete.reusable {pem : Pem} (h : Complete lib data req)
    (hcrt : data[crtKey req.brokerId]? = some (.text pem)) {t : Int} {expiring : Bool}
    (hexpiring : renewIfExpiring lib pem (WhichCa.spec .cluster kafka).renewalDays t =
      .ok expiring) : reusableAt lib kafka data req t = .ok (!expiring) := by
  obtain ⟨b, hkey⟩ := h.key
  simp only [reusableAt, leafReusable, Std.ExtTreeMap.contains_eq_isSome_getElem?, hcrt, hkey,
    h.digest, Option.bind_eq_bind, Option.bind_some, ByteString.utf8?_text, hexpiring]
  simp [bind, Except.bind, pure, Except.pure]

theorem eq_text_of_utf8? {b : ByteString} {s : List Char} (h : b.utf8? = some s) : b = .text s := by
  cases b with
  | text s' => rw [Option.some_inj.mp h]
  | binary bytes => cases h

/-- What a reusable leaf has. -/
theorem complete_of_reusable {t : Int} (h : reusableAt lib kafka data req t = .ok true) :
    Complete lib data req := by
  simp only [reusableAt, leafReusable] at h
  cases hpem : data[crtKey req.brokerId]? >>= ByteString.utf8? with
  | none =>
    -- An unreadable certificate counts as expiring.
    simp only [hpem] at h
    simp [bind, Except.bind, pure, Except.pure] at h
  | some pem =>
    simp only [hpem, Checks.bind_eq_ok] at h
    obtain ⟨expiring, hexpiring, h⟩ := h
    have hall := Except.ok.inj h
    simp only [Bool.and_eq_true, Bool.not_eq_true', decide_eq_true_eq] at hall
    obtain ⟨⟨⟨-, hkey⟩, hout⟩, hdigest⟩ := hall
    rw [Std.ExtTreeMap.contains_eq_isSome_getElem?, Option.isSome_iff_exists] at hkey
    obtain ⟨b, hb, hutf8⟩ := Option.bind_eq_some_iff.mp hpem
    obtain ⟨digest, hentry, htext⟩ := Option.bind_eq_some_iff.mp hdigest
    exact ⟨⟨pem, eq_text_of_utf8? hutf8 ▸ hb⟩, hkey, eq_text_of_utf8? htext ▸ hentry⟩

/-! ### Entries of a Secret -/

theorem mem_keys_iff {key : String} : key ∈ data.keys ↔ ∃ v, data[key]? = some v := by
  rw [Std.ExtTreeMap.mem_keys, Std.ExtTreeMap.mem_iff_isSome_getElem?, Option.isSome_iff_exists]

/-- Someone else has set an entry too: it stays when the operator stops listing it. -/
def HeldByOthers (w : World) (name key : String) : Prop :=
  ∃ s o, w.secret? name = some s ∧ s.data[key]? = some o ∧
    (Fields.release fieldManager o).isSome = true

section Apply

variable {w : World} {name key : String} {annotations : BTreeMap String} {v : ByteString}

/-- An apply stores what it lists. -/
theorem getElem?_stored_of_some (h : data[key]? = some v) :
    (storedEntries (w.applySecret name ⟨annotations, data⟩) name)[key]? = some v := by
  rw [storedEntries, World.secret?_applySecret_self, Option.map_some, Option.getD_some,
    Fields.getElem?_values]
  exact Fields.value?_apply_of_some h

/-- Of what it does not list, an apply leaves what others hold. -/
theorem getElem?_stored_of_none (h : data[key]? = none) :
    (storedEntries (w.applySecret name ⟨annotations, data⟩) name)[key]? = some v ↔
      HeldByOthers w name key ∧ (storedEntries w name)[key]? = some v := by
  rw [storedEntries, World.secret?_applySecret_self, Option.map_some, Option.getD_some,
    Fields.getElem?_values, storedEntries]
  simp only [Secret.apply, Fields.value?, Fields.apply, Std.ExtTreeMap.getElem?_union,
    Std.ExtTreeMap.getElem?_map, h, Option.map_none, Option.none_or,
    Std.ExtTreeMap.getElem?_filterMap', HeldByOthers]
  cases hs : w.secret? name with
  | none => simp [Secret.empty]
  | some s =>
    cases ho : s.data[key]? with
    | none => simp [ho, Fields.value?]
    | some o =>
      cases hr : Fields.release fieldManager o with
      | none => simp [ho, hr]
      | some o' => simp [ho, hr, Fields.value?, Fields.release_value hr]

end Apply

/-! ## The loop -/

/-- There is one request for each broker. -/
def OneEach (reqs : List BrokerCertRequest) : Prop := (reqs.map (·.brokerId)).Nodup

instance : Decidable (OneEach reqs) := inferInstanceAs (Decidable (List.Nodup _))

theorem OneEach.tail (h : OneEach (req :: reqs)) : OneEach reqs := (List.nodup_cons.mp h).2

theorem OneEach.head_ne (h : OneEach (req :: reqs)) (hreq' : req' ∈ reqs) :
    req.brokerId ≠ req'.brokerId := by
  intro heq
  exact (List.nodup_cons.mp h).1 (List.mem_map.mpr ⟨req', hreq', heq.symm⟩)

theorem OneEach.eq (h : OneEach reqs) (hreq : req ∈ reqs) (hreq' : req' ∈ reqs)
    (hid : req.brokerId = req'.brokerId) : req = req' :=
  List.inj_on_of_nodup_map h hreq hreq' hid

/-- The leaf was made for a request, with the key of `ca`. -/
def MadeFor (lib : CaLib) (kafka : Kafka) (ca : CaMaterial) (P : Int → Prop)
    (req : BrokerCertRequest) (leaf : CaMaterial) : Prop :=
  ∃ d, P d.clock ∧ lib.issueBrokerCert ca.certPem ca.keyPem req.cn req.sans req.extraSans
    (WhichCa.spec .cluster kafka).validityDays d = .ok leaf

/-- The stored leaf of a broker was kept. -/
structure Kept (lib : CaLib) (kafka : Kafka) (force : Bool) (P : Int → Prop)
    (data data' : BTreeMap ByteString) (req : BrokerCertRequest) : Prop where
  force : force = false
  reusable : ∃ t, P t ∧ reusableAt lib kafka data req t = .ok true
  same : SameEntries data data' req

/-- A broker got a new leaf. -/
structure Issued (lib : CaLib) (kafka : Kafka) (ca : CaMaterial) (force : Bool) (P : Int → Prop)
    (data data' : BTreeMap ByteString) (req : BrokerCertRequest) : Prop where
  due : force = true ∨ ∃ t, P t ∧ reusableAt lib kafka data req t = .ok false
  stored : LeafWith lib (MadeFor lib kafka ca P req) data' req

/-- What the loop did for a request, with the report that it makes. -/
def Served (lib : CaLib) (kafka : Kafka) (ca : CaMaterial) (force : Bool) (P : Int → Prop)
    (draft draft' : KeystoreDraft) (req : BrokerCertRequest) : Prop :=
  (Kept lib kafka force P draft.data draft'.data req ∧ req.brokerId ∈ draft'.reused) ∨
    (Issued lib kafka ca force P draft.data draft'.data req ∧ req.brokerId ∈ draft'.issued)

theorem Turn.sameEntries (h : Turn lib kafka ca force P draft req draft')
    (hid : req.brokerId ≠ req'.brokerId) : SameEntries draft.data draft'.data req' :=
  fun _ hk => h.getElem?_of_notMem (wantKeys_disjoint (Ne.symm hid) hk)

theorem Turns.sameEntries (h : Turns lib kafka ca force P draft reqs draft')
    (hid : ∀ req ∈ reqs, req.brokerId ≠ req'.brokerId) :
    SameEntries draft.data draft'.data req' := by
  induction h with
  | nil => exact fun _ _ => rfl
  | cons head tail ih =>
    obtain ⟨hfirst, hrest⟩ := List.forall_mem_cons.mp hid
    exact (head.sameEntries hfirst).trans (ih hrest)

/-- The reports only grow. -/
theorem Turn.reports (h : Turn lib kafka ca force P draft req draft') :
    draft.issued ⊆ draft'.issued ∧ draft.reused ⊆ draft'.reused := by
  cases h with
  | kept => exact ⟨List.Subset.refl _, List.subset_append_left _ _⟩
  | issued => exact ⟨List.subset_append_left _ _, List.Subset.refl _⟩

theorem Turns.reports (h : Turns lib kafka ca force P draft reqs draft') :
    draft.issued ⊆ draft'.issued ∧ draft.reused ⊆ draft'.reused := by
  induction h with
  | nil => exact ⟨List.Subset.refl _, List.Subset.refl _⟩
  | cons head tail ih =>
    exact ⟨List.Subset.trans head.reports.1 ih.1, List.Subset.trans head.reports.2 ih.2⟩

/-- The own turn of a request. -/
theorem Turn.served (h : Turn lib kafka ca force P draft req draft') :
    Served lib kafka ca force P draft draft' req := by
  cases h with
  | kept hforce ht hreuse =>
    exact .inl ⟨⟨hforce, ⟨_, ht, hreuse⟩, fun _ _ => rfl⟩,
      List.mem_append_right _ (List.mem_singleton_self _)⟩
  | issued signed made hdue =>
    exact .inr ⟨⟨hdue, leafWith_issue made⟩,
      List.mem_append_right _ (List.mem_singleton_self _)⟩

/-- Other turns before and after the own one change nothing. -/
theorem Served.congr {draft₀ draft₁ : KeystoreDraft}
    (h : Served lib kafka ca force P draft draft' req)
    (hbefore : SameEntries draft₀.data draft.data req)
    (hafter : SameEntries draft'.data draft₁.data req) (hissued : draft'.issued ⊆ draft₁.issued)
    (hreused : draft'.reused ⊆ draft₁.reused) : Served lib kafka ca force P draft₀ draft₁ req := by
  rcases h with ⟨hkept, hmem⟩ | ⟨hnew, hmem⟩
  · obtain ⟨t, ht, hreuse⟩ := hkept.reusable
    rw [reusableAt_congr hbefore] at hreuse
    exact .inl ⟨⟨hkept.force, ⟨t, ht, hreuse⟩, (hbefore.trans hkept.same).trans hafter⟩,
      hreused hmem⟩
  · refine .inr ⟨⟨hnew.due.imp_right ?_, hnew.stored.congr hafter⟩, hissued hmem⟩
    rintro ⟨t, ht, hreuse⟩
    exact ⟨t, ht, (reusableAt_congr hbefore t) ▸ hreuse⟩

/-- Every request is served. -/
theorem Turns.served (h : Turns lib kafka ca force P draft reqs draft') (hone : OneEach reqs)
    (hreq : req ∈ reqs) : Served lib kafka ca force P draft draft' req := by
  induction h with
  | nil => cases hreq
  | @cons draft draft₁ draft₂ req' reqs head tail ih =>
    rcases List.mem_cons.mp hreq with rfl | hlater
    · have hafter : SameEntries draft₁.data draft₂.data req :=
        tail.sameEntries fun a ha => (hone.head_ne ha).symm
      exact head.served.congr (fun _ _ => rfl) hafter tail.reports.1 tail.reports.2
    · exact (ih hone.tail hlater).congr (head.sameEntries (hone.head_ne hlater)) (fun _ _ => rfl)
        (List.Subset.refl _) (List.Subset.refl _)

/-- Each request ends up in one of the two reports. -/
theorem Turns.perm (h : Turns lib kafka ca force P draft reqs draft') :
    (draft'.issued ++ draft'.reused).Perm
      (draft.issued ++ draft.reused ++ reqs.map (·.brokerId)) := by
  induction h with
  | nil => simp
  | @cons draft draft₁ draft₂ req reqs head tail ih =>
    refine ih.trans ?_
    rw [List.map_cons, ← List.singleton_append, ← List.append_assoc]
    refine List.Perm.append_right _ ?_
    cases head with
    | kept => simp
    | issued =>
      simp only [KeystoreDraft.issue, List.append_assoc]
      exact (List.perm_append_comm).append_left _

/-- No broker is in both reports. -/
theorem Turns.notMem_reused
    (h : Turns lib kafka ca force P ⟨data, [], []⟩ reqs draft') (hone : OneEach reqs) {id : Int}
    (hissued : id ∈ draft'.issued) : id ∉ draft'.reused := by
  have hnodup : (draft'.issued ++ draft'.reused).Nodup := by
    rw [h.perm.nodup_iff]
    exact hone
  intro hreused
  exact (List.nodup_append.mp hnodup).2.2 _ hissued _ hreused rfl

theorem mem_wantKeys {k : String} : k ∈ wantKeys reqs ↔ ∃ req ∈ reqs, k ∈ wantKeys [req] := by
  simp only [wantKeys, List.mem_flatMap, List.flatMap_cons, List.flatMap_nil, List.append_nil]

/-- A loop that issues nothing changes no entry. -/
theorem Turns.data_of_issued_nil (h : Turns lib kafka ca force P ⟨data, [], []⟩ reqs draft')
    (hone : OneEach reqs) (hissued : draft'.issued = []) : draft'.data = data := by
  refine Std.ExtTreeMap.ext_getElem? fun k => ?_
  by_cases hwant : k ∈ wantKeys reqs
  · obtain ⟨req, hreq, hk⟩ := mem_wantKeys.mp hwant
    rcases h.served hone hreq with ⟨hkept, -⟩ | ⟨-, hmem⟩
    · exact hkept.same k hk
    · rw [hissued] at hmem
      cases hmem
  · exact h.getElem?_of_notMem hwant

/-! ## Runs -/

/-- A clock of the run. -/
def ClockOf (cs : List Choice) (t : Int) : Prop := ∃ c ∈ cs, c.clock = t

/-- A call that returns has served its requests at the clocks of the run. -/
theorem served_of_run (hlib : lib.Lawful) {cs : List Choice} {w w' : World}
    {status : BrokerKeystoreStatus}
    (hrun : (ensureBrokerKeystore lib kafka reqs ca force).run answer cs w = (.done status, w')) :
    ∃ a draft, OnlyDraws w a ∧ Turns lib kafka ca force (ClockOf cs)
        ⟨storedEntries w (brokerKeystoreName kafka.name), [], []⟩ reqs draft ∧
      w' = a.applySecret (brokerKeystoreName kafka.name)
        ⟨∅, draft.data.filter fun key _ => retained reqs key⟩ ∧
      status = keystoreStatus reqs draft := by
  have hclock : ∃ t, ClockOf cs t := by
    cases cs with
    | nil => cases hrun
    | cons c cs => exact ⟨c.clock, c, List.mem_cons_self, rfl⟩
  have hsat := @ensureBrokerKeystore_served lib kafka ca force (ClockOf cs) reqs {c // c ∈ cs}
    Subtype.val hlib (fun c => ⟨c.val, c.property, rfl⟩) hclock w
  have hvia : (ensureBrokerKeystore lib kafka reqs ca force).run (Prog.via answer Subtype.val)
      cs.attach w = (.done status, w') := by
    rw [Prog.run_via, List.attach_map_subtype_val]
    exact hrun
  exact hsat.run_done hvia status rfl

/-- The write lists the entries of each requested broker. -/
theorem retained_of_mem {k : String} (hreq : req ∈ reqs) (hk : k ∈ wantKeys [req]) :
    retained reqs k = true := by
  have hmem : k ∈ wantKeys reqs := by
    rw [wantKeys, List.mem_flatMap]
    exact ⟨req, hreq, by simpa [wantKeys] using hk⟩
  simp [retained, hmem]

/-- The entries that the loop leaves for its requests are stored. -/
theorem sameEntries_stored {w : World} {name : String} (hreq : req ∈ reqs)
    (hsome : ∀ k ∈ wantKeys [req], ∃ v, data[k]? = some v) :
    SameEntries data
      (storedEntries (w.applySecret name ⟨∅, data.filter fun key _ => retained reqs key⟩) name)
      req := by
  intro k hk
  obtain ⟨v, hv⟩ := hsome k hk
  have hfilter : (data.filter fun key _ => retained reqs key)[k]? = some v := by
    rw [Std.ExtTreeMap.getElem?_filter', hv]
    simp [retained_of_mem hreq hk]
  rw [hv]
  exact getElem?_stored_of_some hfilter

/-- Each served broker has its three entries. -/
theorem Served.complete (h : Served lib kafka ca force P draft draft' req) :
    Complete lib draft'.data req := by
  rcases h with ⟨hkept, -⟩ | ⟨hnew, -⟩
  · obtain ⟨t, -, hreuse⟩ := hkept.reusable
    exact (complete_of_reusable hreuse).congr hkept.same
  · exact hnew.stored.complete

theorem Served.complete_stored (h : Served lib kafka ca force P draft draft' req) {w : World}
    {name : String} (hreq : req ∈ reqs) :
    Complete lib (storedEntries (w.applySecret name
      ⟨∅, draft'.data.filter fun key _ => retained reqs key⟩) name) req :=
  h.complete.congr (sameEntries_stored hreq h.complete.exists_entry)

/-- After a call every request has its three entries. -/
theorem complete_of_run (hlib : lib.Lawful) (hone : OneEach reqs) (hreq : req ∈ reqs)
    {cs : List Choice} {w w' : World} {status : BrokerKeystoreStatus}
    (hrun : (ensureBrokerKeystore lib kafka reqs ca force).run answer cs w = (.done status, w')) :
    Complete lib (storedEntries w' (brokerKeystoreName kafka.name)) req := by
  obtain ⟨a, draft, -, hturns, rfl, -⟩ := served_of_run hlib hrun
  exact (hturns.served hone hreq).complete_stored hreq

/-- A pass without force keeps a complete leaf that is outside its renewal window at each clock of the
    pass. -/
theorem reused_of_complete (hlib : lib.Lawful) (hone : OneEach reqs) (hreq : req ∈ reqs)
    {cs : List Choice} {w w' : World} {status : BrokerKeystoreStatus} {pem : Pem}
    (hrun : (ensureBrokerKeystore lib kafka reqs ca false).run answer cs w = (.done status, w'))
    (hleaf : Complete lib (storedEntries w (brokerKeystoreName kafka.name)) req)
    (hcrt : (storedEntries w (brokerKeystoreName kafka.name))[crtKey req.brokerId]? =
      some (.text pem))
    (hwindow : ∀ c ∈ cs, renewIfExpiring lib pem (WhichCa.spec .cluster kafka).renewalDays c.clock =
      .ok false) :
    req.brokerId ∈ status.reused ∧ req.brokerId ∉ status.issued ∧
      SameEntries (storedEntries w (brokerKeystoreName kafka.name))
        (storedEntries w' (brokerKeystoreName kafka.name)) req := by
  obtain ⟨a, draft, -, hturns, rfl, rfl⟩ := served_of_run hlib hrun
  rcases hturns.served hone hreq with ⟨hkept, hreused⟩ | ⟨hnew, -⟩
  · refine ⟨hreused, fun hissued => hturns.notMem_reused hone hissued hreused, ?_⟩
    exact hkept.same.trans (sameEntries_stored hreq (hleaf.congr hkept.same).exists_entry)
  · obtain ⟨t, ⟨c, hc, rfl⟩, hreuse⟩ := hnew.due.resolve_left (by decide)
    rw [hleaf.reusable hcrt (hwindow c hc)] at hreuse
    cases hreuse

end ClusterCa
