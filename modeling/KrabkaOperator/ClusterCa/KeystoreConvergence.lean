-- SUMMARY: A call of the keystore program settles the keystore: which entries are left, and that a second call changes nothing of what the brokers are served.
import KrabkaOperator.ClusterCa.LeafNames

/-!
# Convergence of the keystore

A call leaves the entries of the requested brokers, the entries of no broker, and
what another manager holds. A second call with the same requests finds every leaf
reusable, and the entries of others do not count for what it serves.
-/

namespace ClusterCa

open Kube Crd Operator

variable {lib : CaLib} {kafka : Kafka} {ca : CaMaterial} {force : Bool} {P : Int → Prop}
  {draft : KeystoreDraft} {reqs reqs' : List BrokerCertRequest} {data : BTreeMap ByteString}

/-! ## The entries after a call -/

/-- The loop adds the entries of the requested brokers and no others. -/
theorem Turns.mem_keys (h : Turns lib kafka ca force P ⟨data, [], []⟩ reqs draft)
    (hone : OneEach reqs) {k : String} :
    k ∈ draft.data.keys ↔ k ∈ wantKeys reqs ∨ k ∈ data.keys := by
  by_cases hwant : k ∈ wantKeys reqs
  · obtain ⟨req, hreq, hk⟩ := mem_wantKeys.mp hwant
    have hentry := (h.served hone hreq).complete.exists_entry k hk
    simp only [mem_keys_iff, hentry, hwant, true_or]
  · simp only [mem_keys_iff, h.getElem?_of_notMem hwant, hwant, false_or]

/-- The entries that the call lists. -/
theorem mem_listed (h : Turns lib kafka ca force P ⟨data, [], []⟩ reqs draft)
    (hone : OneEach reqs) {k : String} :
    k ∈ (draft.data.filter fun key _ => retained reqs key).keys ↔
      k ∈ wantKeys reqs ∨ (k ∈ data.keys ∧ keyNodeId? k = none) := by
  have hfilter : k ∈ (draft.data.filter fun key _ => retained reqs key).keys ↔
      k ∈ draft.data.keys ∧ retained reqs k = true := by
    simp only [mem_keys_iff, Std.ExtTreeMap.getElem?_filter', Option.filter_eq_some_iff,
      exists_and_right]
  rw [hfilter, h.mem_keys hone, retained, Bool.or_eq_true, List.contains_iff_mem,
    Option.isNone_iff_eq_none]
  constructor
  · rintro ⟨hwant | hold, hwant' | hnone⟩
    · exact .inl hwant
    · exact .inl hwant
    · exact .inl hwant'
    · exact .inr ⟨hold, hnone⟩
  · rintro (hwant | ⟨hold, hnone⟩)
    · exact ⟨.inl hwant, .inl hwant⟩
    · exact ⟨.inr hold, .inr hnone⟩

theorem HeldByOthers.mem_keys {w : World} {name k : String} (h : HeldByOthers w name k) :
    k ∈ (storedEntries w name).keys := by
  obtain ⟨s, o, hs, ho, -⟩ := h
  refine mem_keys_iff.mpr ⟨o.value, ?_⟩
  rw [storedEntries, hs, Option.map_some, Option.getD_some, Fields.getElem?_values, Fields.value?, ho,
    Option.map_some]

theorem HeldByOthers.congr {w w' : World} {name k : String} (h : HeldByOthers w name k)
    (hsecret : w'.secret? name = w.secret? name) : HeldByOthers w' name k := by
  obtain ⟨s, o, hs, ho, hrelease⟩ := h
  exact ⟨s, o, hsecret.trans hs, ho, hrelease⟩

/-- The keys of the Secret after an apply. -/
theorem mem_keys_stored {w : World} {name k : String} {annotations : BTreeMap String} :
    k ∈ (storedEntries (w.applySecret name ⟨annotations, data⟩) name).keys ↔
      k ∈ data.keys ∨ HeldByOthers w name k := by
  rw [mem_keys_iff]
  cases hdata : data[k]? with
  | some v =>
    have hlisted : k ∈ data.keys := mem_keys_iff.mpr ⟨v, hdata⟩
    simp only [hlisted, true_or, iff_true]
    exact ⟨v, getElem?_stored_of_some hdata⟩
  | none =>
    have hnot : k ∉ data.keys := by
      rw [mem_keys_iff, hdata]
      rintro ⟨v, hv⟩
      cases hv
    simp only [hnot, false_or, getElem?_stored_of_none hdata]
    constructor
    · rintro ⟨v, hheld, -⟩
      exact hheld
    · intro hheld
      obtain ⟨v, hv⟩ := mem_keys_iff.mp hheld.mem_keys
      exact ⟨v, hheld, hv⟩

/-! ## A second call -/

/-- The requests ask for the same names for the same brokers. -/
structure SameRequests (reqs reqs' : List BrokerCertRequest) : Prop where
  ids : (reqs'.map (·.brokerId)).Perm (reqs.map (·.brokerId))
  names : ∀ req' ∈ reqs', ∃ req ∈ reqs, req.brokerId = req'.brokerId ∧
    ∀ s, s ∈ req.sans ++ req.extraSans ↔ s ∈ req'.sans ++ req'.extraSans

theorem SameRequests.oneEach (h : SameRequests reqs reqs') (hone : OneEach reqs) : OneEach reqs' :=
  h.ids.nodup_iff.mpr hone

theorem wantKeys_eq_of_id {req req' : BrokerCertRequest} (h : req.brokerId = req'.brokerId) :
    wantKeys [req] = wantKeys [req'] := by
  simp [wantKeys, h]

theorem SameRequests.mem_wantKeys (h : SameRequests reqs reqs') {k : String} :
    k ∈ wantKeys reqs' ↔ k ∈ wantKeys reqs := by
  have hids : ∀ {as bs : List BrokerCertRequest},
      (as.map (·.brokerId)).Perm (bs.map (·.brokerId)) → k ∈ wantKeys as → k ∈ wantKeys bs := by
    intro as bs hperm hk
    obtain ⟨a, ha, hk⟩ := ClusterCa.mem_wantKeys.mp hk
    obtain ⟨b, hb, hid⟩ := List.mem_map.mp (hperm.mem_iff.mp (List.mem_map_of_mem ha))
    exact ClusterCa.mem_wantKeys.mpr ⟨b, hb, wantKeys_eq_of_id hid ▸ hk⟩
  exact ⟨hids h.ids, hids h.ids.symm⟩

theorem SameRequests.retained_eq (h : SameRequests reqs reqs') : retained reqs' = retained reqs := by
  funext k
  have hcontains : (wantKeys reqs').contains k = (wantKeys reqs).contains k := by
    rw [Bool.eq_iff_iff, List.contains_iff_mem, List.contains_iff_mem]
    exact h.mem_wantKeys
  rw [retained, retained, hcontains]

/-- A complete leaf is complete for a request for the same names. -/
theorem Complete.of_same (hsan : lib.SanOrdered) {req req' : BrokerCertRequest}
    (h : Complete lib data req) (hid : req.brokerId = req'.brokerId)
    (hnames : ∀ s, s ∈ req.sans ++ req.extraSans ↔ s ∈ req'.sans ++ req'.extraSans) :
    Complete lib data req' :=
  ⟨hid ▸ h.crt, hid ▸ h.key, hid ▸ computeSanDigest_congr hsan hnames ▸ h.digest⟩

/-- No certificate of a requested broker is in its renewal window at a clock of the run. -/
def OutsideWindow (lib : CaLib) (kafka : Kafka) (reqs : List BrokerCertRequest) (cs : List Choice)
    (data : BTreeMap ByteString) : Prop :=
  ∀ req ∈ reqs, ∀ pem, data[crtKey req.brokerId]? = some (.text pem) → ∀ c ∈ cs,
    renewIfExpiring lib pem (WhichCa.spec .cluster kafka).renewalDays c.clock = .ok false

/-- A loop without force over complete leafs outside their windows changes nothing. -/
theorem Turns.idle {cs : List Choice}
    (h : Turns lib kafka ca false (ClockOf cs) ⟨data, [], []⟩ reqs draft) (hone : OneEach reqs)
    (hcomplete : ∀ req ∈ reqs, Complete lib data req) (hwindow : OutsideWindow lib kafka reqs cs data) :
    draft.issued = [] ∧ draft.data = data := by
  have hreused : ∀ req ∈ reqs, req.brokerId ∈ draft.reused := by
    intro req hreq
    rcases h.served hone hreq with ⟨-, hreused⟩ | ⟨hnew, -⟩
    · exact hreused
    · obtain ⟨t, ⟨c, hc, rfl⟩, hreuse⟩ := hnew.due.resolve_left (by decide)
      obtain ⟨pem, hcrt⟩ := (hcomplete req hreq).crt
      rw [(hcomplete req hreq).reusable hcrt (hwindow req hreq pem hcrt c hc)] at hreuse
      cases hreuse
  have hissued : draft.issued = [] := by
    refine List.eq_nil_iff_forall_not_mem.mpr fun id hid => ?_
    have hmem : id ∈ reqs.map (·.brokerId) := h.perm.mem_iff.mp (List.mem_append_left _ hid)
    obtain ⟨req, hreq, rfl⟩ := List.mem_map.mp hmem
    exact h.notMem_reused hone hid (hreused req hreq)
  exact ⟨hissued, h.data_of_issued_nil hone hissued⟩

/-- What a call has listed is what the next call retains of the Secret. -/
theorem filter_stored {w : World} {name : String}
    (h : Turns lib kafka ca force P ⟨storedEntries w name, [], []⟩ reqs draft) (hone : OneEach reqs) :
    (storedEntries (w.applySecret name ⟨∅, draft.data.filter fun key _ => retained reqs key⟩)
      name).filter (fun key _ => retained reqs key) =
        draft.data.filter fun key _ => retained reqs key := by
  refine Std.ExtTreeMap.ext_getElem? fun k => ?_
  rw [Std.ExtTreeMap.getElem?_filter']
  cases hlisted : (draft.data.filter fun key _ => retained reqs key)[k]? with
  | some v =>
    rw [getElem?_stored_of_some hlisted]
    rw [Std.ExtTreeMap.getElem?_filter', Option.filter_eq_some_iff] at hlisted
    exact Option.filter_eq_some_iff.mpr ⟨rfl, hlisted.2⟩
  | none =>
    refine Option.eq_none_iff_forall_ne_some.mpr fun v hv => ?_
    rw [Option.filter_eq_some_iff, getElem?_stored_of_none hlisted] at hv
    obtain ⟨⟨-, hold⟩, hretained⟩ := hv
    -- An old entry that is retained would have been listed.
    have hdraft : k ∈ draft.data.keys := (h.mem_keys hone).mpr (.inr (mem_keys_iff.mpr ⟨v, hold⟩))
    obtain ⟨v', hv'⟩ := mem_keys_iff.mp hdraft
    rw [Std.ExtTreeMap.getElem?_filter', hv', Option.filter_some, if_pos hretained] at hlisted
    cases hlisted

theorem mem_pruned {id : Int} : id ∈ (keystoreStatus reqs draft).pruned ↔
    ∃ k ∈ draft.data.keys, retained reqs k = false ∧ keyNodeId? k = some id := by
  simp only [keystoreStatus, Canonical.mem_destutter, List.mem_insertionSort, List.mem_filterMap,
    List.mem_filter, Bool.not_eq_true', and_assoc]

/-- After a call the Secret has the entries of the requested brokers, its earlier entries of no
    broker, and what others hold; each broker is reported once. A second call with the same requests,
    without force and outside the renewal windows, issues nothing, serves the same certificates, and
    prunes at most what others hold. -/
theorem keystore_converges (hlib : lib.Lawful) (hsan : lib.SanOrdered) (hone : OneEach reqs)
    {cs : List Choice} {w w' : World} {status : BrokerKeystoreStatus}
    (hrun : (ensureBrokerKeystore lib kafka reqs ca force).run answer cs w = (.done status, w')) :
    let name := brokerKeystoreName kafka.name
    (∀ k, k ∈ (storedEntries w' name).keys ↔ k ∈ wantKeys reqs ∨
      (k ∈ (storedEntries w name).keys ∧ keyNodeId? k = none) ∨ HeldByOthers w name k) ∧
    (status.issued ++ status.reused).Perm (reqs.map (·.brokerId)) ∧
    ∀ (reqs' : List BrokerCertRequest) (ca' : CaMaterial) (cs' : List Choice) (w₁ w₂ : World)
      (status' : BrokerKeystoreStatus), SameRequests reqs reqs' → w₁.secret? name = w'.secret? name →
      OutsideWindow lib kafka reqs' cs' (storedEntries w₁ name) →
      (ensureBrokerKeystore lib kafka reqs' ca' false).run answer cs' w₁ = (.done status', w₂) →
      status'.issued = [] ∧ status'.leafMaterial = status.leafMaterial ∧
        ∀ id ∈ status'.pruned, ∃ k, HeldByOthers w name k ∧ keyNodeId? k = some id := by
  intro name
  obtain ⟨a, draft, hdraws, hturns, rfl, rfl⟩ := served_of_run hlib hrun
  have hsecret : a.secret? name = w.secret? name := hdraws.secret? name
  have hentries : storedEntries w name = storedEntries a name := by
    rw [storedEntries, storedEntries, hsecret]
  have hkeys : ∀ k, k ∈ (storedEntries (a.applySecret name
      ⟨∅, draft.data.filter fun key _ => retained reqs key⟩) name).keys ↔ k ∈ wantKeys reqs ∨
        (k ∈ (storedEntries w name).keys ∧ keyNodeId? k = none) ∨ HeldByOthers w name k := by
    intro k
    rw [mem_keys_stored, mem_listed hturns hone, or_assoc]
    have hheld : HeldByOthers a name k ↔ HeldByOthers w name k :=
      ⟨fun h => h.congr hsecret.symm, fun h => h.congr hsecret⟩
    rw [hheld]
  refine ⟨hkeys, hturns.perm, ?_⟩
  intro reqs' ca' cs' w₁ w₂ status' hsame hw₁ hwindow hrun'
  have hone' := hsame.oneEach hone
  have hstored : storedEntries w₁ name = storedEntries (a.applySecret name
      ⟨∅, draft.data.filter fun key _ => retained reqs key⟩) name := by
    rw [storedEntries, storedEntries, hw₁]
  obtain ⟨a', draft', -, hturns', -, rfl⟩ := served_of_run hlib hrun'
  have hcomplete : ∀ req' ∈ reqs', Complete lib (storedEntries w₁ name) req' := by
    intro req' hreq'
    obtain ⟨req, hreq, hid, hnames⟩ := hsame.names req' hreq'
    rw [hstored]
    exact ((hturns.served hone hreq).complete_stored hreq).of_same hsan hid hnames
  obtain ⟨hissued, hdata⟩ := hturns'.idle hone' hcomplete hwindow
  refine ⟨hissued, ?_, fun id hid => ?_⟩
  · have hfilter := filter_stored (hentries ▸ hturns) hone
    rw [keystoreStatus, keystoreStatus, hdata, hstored, hsame.retained_eq, hfilter]
  · obtain ⟨k, hk, hretained, hnode⟩ := mem_pruned.mp hid
    rw [hdata, hstored] at hk
    rw [hsame.retained_eq] at hretained
    simp only [retained, Bool.or_eq_false_iff] at hretained
    rcases (hkeys k).mp hk with hwant | ⟨-, hnone⟩ | hheld
    · rw [List.contains_iff_mem.mpr hwant] at hretained
      cases hretained.1
    · rw [hnone] at hnode
      cases hnode
    · exact ⟨k, hheld, hnode⟩

/-! ## An entry that someone else holds -/

namespace Sample

/-- A namespace whose keystore has an entry under `7.crt` that the operator did not make. -/
def withForeign : World :=
  World.empty.setSecret (brokerKeystoreName "demo")
    ⟨∅, BTreeMap.ofList [("7.crt", ⟨.text [], ["kubectl"]⟩), ("note", ⟨.text [], ["kubectl"]⟩)]⟩

/-- The end of the first pass. -/
def foreignPass : Prog.Outcome ReconcileError BrokerKeystoreStatus × World :=
  afterPass (Kafka.minimal "demo") withForeign

/-- The names of `twoNames` in another order. -/
def twoNames' : BrokerCertRequest := ⟨0, "b", [.ip (.v4 1 0 0 2)], [.dns "a"]⟩

def secondPass (w : World) : Prog.Outcome ReconcileError BrokerKeystoreStatus × World :=
  (ensureBrokerKeystore SampleLib.named (Kafka.minimal "demo") [twoNames'] caOne false).run answer
    (List.replicate 8 {}) w

end Sample

open Sample in
/-- The second pass issues nothing, and it serves what the first one served. -/
theorem keystore_converges_twoNames : ∃ status status',
    foreignPass.1 = .done status ∧
    (secondPass foreignPass.2).1 = .done status' ∧
    status'.issued = [] ∧ status'.leafMaterial = status.leafMaterial := by
  obtain ⟨status, hdone, -⟩ := Prog.Outcome.exists_of_isDone (fun _ => true)
    (x := foreignPass.1) (by decide)
  obtain ⟨status', hdone', -⟩ := Prog.Outcome.exists_of_isDone (fun _ => true)
    (x := (secondPass foreignPass.2).1) (by decide +kernel)
  have hrun : foreignPass =
      (.done status, foreignPass.2) := Prod.ext hdone rfl
  have hsame : SameRequests [twoNames] [twoNames'] :=
    ⟨by decide, by simp [twoNames, twoNames']; tauto⟩
  have hwindow : OutsideWindow SampleLib.named (Kafka.minimal "demo") [twoNames']
      (List.replicate 8 {}) (storedEntries foreignPass.2
        (brokerKeystoreName "demo")) := by
    intro req hreq pem hpem c hc
    obtain rfl := List.mem_singleton.mp hreq
    obtain rfl := List.eq_of_mem_replicate hc
    have hcheck : ((storedEntries foreignPass.2
        (brokerKeystoreName "demo"))[crtKey 0]?.any fun b => b.utf8?.any fun pem =>
          decide (renewIfExpiring SampleLib.named pem 30 0 = .ok false)) = true := by decide +kernel
    rw [show (storedEntries foreignPass.2
      (brokerKeystoreName "demo"))[crtKey 0]? = some (.text pem) from hpem] at hcheck
    exact of_decide_eq_true hcheck
  obtain ⟨hissued, hmaterial, -⟩ := (keystore_converges SampleLib.named_lawful
    SampleLib.named_sanOrdered (show OneEach [twoNames] by decide) hrun).2.2 [twoNames'] caOne
      (List.replicate 8 {}) _ (secondPass foreignPass.2).2 status' hsame rfl hwindow
      (Prod.ext hdone' rfl)
  exact ⟨status, status', hdone, hdone', hissued, hmaterial⟩

open Sample in
/-- An entry of a broker that is not requested stays when someone else holds it, and each pass prunes
    it again. -/
theorem foreign_entry_stays :
    "7.crt" ∉ wantKeys [twoNames] ∧ keyNodeId? "7.crt" = some 7 ∧
    "7.crt" ∈ (storedEntries foreignPass.2
      (brokerKeystoreName "demo")).keys ∧
    ((secondPass foreignPass.2).1.isDone fun status =>
      status.pruned = [7]) = true := by
  decide +kernel

end ClusterCa
