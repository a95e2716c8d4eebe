-- SUMMARY: The first bootstrap node and the first directory ids stay as long as no pass patches a key that is set, and a run in which one is overwritten.
import KrabkaOperator.Bootstrap.Pass

/-!
# The first write

Between the read of a pass and its patch, another pass may patch the same keys. The
later patch wins, and both passes go on with their own values.
-/

namespace Bootstrap

open Kube Crd Operator Interleave

abbrev Dialogue := Prog.Dialogue Resp

variable {lib : UuidLib}

/-! ## What a pass has obtained -/

/-- A pass has read or written the bootstrap node. -/
def Obtained (log : Dialogue) (c : QuorumBootstrapController) : Prop :=
  (∃ data state, ⟨.getSecret, .ok data⟩ ∈ log ∧
    quorumBootstrapStateFromSecret data = .ok (some state) ∧ state.controller = c) ∨
  ⟨.mergeSecret (bootstrapPatch c), .ok ()⟩ ∈ log

/-- A pass has read or written the directory id of a node. -/
def ObtainedId (lib : UuidLib) (log : Dialogue) (nodeId : Int) (u : lib.Uuid) : Prop :=
  (∃ data, ⟨.getSecret, .ok data⟩ ∈ log ∧
    quorumDirectoryIdFromSecret lib data nodeId = .ok (some u)) ∨
  ⟨.mergeSecret (directoryPatch lib nodeId u), .ok ()⟩ ∈ log

/-- A patch of a pass. -/
inductive PassPatch (lib : UuidLib) : Patch → Prop
  | bootstrap (c : QuorumBootstrapController) (h : NodePool.IsI32 c.nodeId) :
      PassPatch lib (bootstrapPatch c)
  | directory (nodeId : Int) (u : lib.Uuid) : PassPatch lib (directoryPatch lib nodeId u)
  | initialized : PassPatch lib initializedPatch

/-- A request that patches the Secret does so in one of three ways. -/
def PatchesOnly (lib : UuidLib) (r : Req) : Prop := ∀ patch, r = .mergeSecret patch → PassPatch lib patch

/-! ## The condition -/

/-- No key but the one that marks the quorum as initialized is patched while it is set. -/
def KeepsFirst (e : Event lib) (s : State) : Prop :=
  match e with
  | .call i _ => ∀ patch, next (s.party i).1 = some (.mergeSecret patch) →
      ∀ key ∈ patch.map (·.1), key ≠ initializedKey → s.world.data[key]? = none
  | _ => True

instance : (e : Event lib) → (s : State) → Decidable (KeepsFirst e s)
  | .call i _, s =>
    match h : next (s.party i).1 with
    | some (.mergeSecret patch) =>
      decidable_of_iff (∀ key ∈ patch.map Prod.fst,
          key ≠ initializedKey → s.world.data[key]? = none) <| by
        constructor
        · intro hkeys patch' heq
          cases h.symm.trans heq
          exact hkeys
        · intro hkeys
          exact hkeys patch h
    | some .listPools | some .getSecret | some .newUuid | some .rest | none =>
      .isTrue fun _ heq => nomatch h.symm.trans heq
  | .start .., _ | .pools _, _ | .format .., _ => .isTrue trivial

/-! ## The requests of a pass -/

section Requests

variable {α : Type}

theorem makes_kube {x : Except KubeError α} : Prog.Makes (PatchesOnly lib) (kube x) := by
  cases x <;> trivial

theorem getSecret_makes : Prog.Makes (PatchesOnly lib) getSecret :=
  Prog.makes_request (fun _ => nofun) fun _ => makes_kube

theorem rest_makes : Prog.Makes (PatchesOnly lib) rest :=
  Prog.makes_request (fun _ => nofun) fun _ => makes_kube

theorem mergeSecret_makes {patch : Patch} (h : PassPatch lib patch) :
    Prog.Makes (PatchesOnly lib) (mergeSecret patch) := by
  refine Prog.makes_request ?_ fun _ => makes_kube
  rintro patch' heq
  cases heq
  exact h

theorem ensureQuorumBootstrapState_makes {candidate : QuorumBootstrapController}
    (h : NodePool.IsI32 candidate.nodeId) :
    Prog.Makes (PatchesOnly lib) (ensureQuorumBootstrapState candidate) := by
  unfold ensureQuorumBootstrapState
  refine getSecret_makes.bind fun data => ?_
  split
  · trivial
  · trivial
  · exact (mergeSecret_makes (.bootstrap candidate h)).bind fun _ => trivial

theorem ensureQuorumDirectoryId_makes (nodeId : Int) :
    Prog.Makes (PatchesOnly lib) (ensureQuorumDirectoryId lib nodeId) := by
  unfold ensureQuorumDirectoryId
  refine getSecret_makes.bind fun data => ?_
  split
  · trivial
  · trivial
  · refine Prog.Makes.bind (Prog.makes_request (fun _ => nofun) fun _ => trivial) fun n => ?_
    exact (mergeSecret_makes (.directory nodeId (lib.drawn n))).bind fun _ => trivial

theorem ensureDirectoryIds_makes (nodeIds : List Int) :
    Prog.Makes (PatchesOnly lib) (ensureDirectoryIds lib nodeIds) := by
  induction nodeIds with
  | nil => trivial
  | cons nodeId nodeIds ih =>
    exact (ensureQuorumDirectoryId_makes nodeId).bind fun u => ih.bind fun us => trivial

theorem firstPool?_mem {pools : List KafkaNodePool} {pool : KafkaNodePool}
    (h : firstPool? pools = some pool) : pool ∈ pools := by
  induction pools generalizing pool with
  | nil => cases h
  | cons p pools ih =>
    unfold firstPool? at h
    cases hrest : firstPool? pools with
    | none =>
      rw [hrest] at h
      cases h
      exact List.mem_cons_self
    | some other =>
      rw [hrest] at h
      dsimp only at h
      split at h
      · cases h
        exact List.mem_cons_self
      · cases h
        exact List.mem_cons_of_mem _ (ih hrest)

/-- The candidate has the first id of a pool that the checks accept. -/
theorem selectQuorumBootstrap_isI32 {check : KafkaNodePool → Except (String × String) Unit}
    {pools : List KafkaNodePool} {candidate : QuorumBootstrapController}
    (h : selectQuorumBootstrap check pools = some candidate) : NodePool.IsI32 candidate.nodeId := by
  obtain ⟨pool, hpool, rfl⟩ := Option.map_eq_some_iff.mp h
  have hmem := List.mem_filter.mp (firstPool?_mem hpool)
  have hvalid : NodePool.validate check pool = .ok () := by
    have hok := (Bool.and_eq_true _ _ |>.mp hmem.2).1
    cases hcheck : NodePool.validate check pool with
    | error e =>
      rw [hcheck] at hok
      cases hok
    | ok u => rfl
  obtain ⟨-, hlow, hhigh⟩ := NodePool.validate_nodes hvalid
  unfold NodePool.maxNodeId at hhigh
  unfold NodePool.IsI32 NodePool.maxI32
  dsimp only
  omega

theorem reconcilePool_makes (pass : Pass lib) :
    Prog.Makes (PatchesOnly lib) (reconcilePool lib pass) := by
  unfold reconcilePool
  refine rest_makes.bind fun _ => ?_
  refine Prog.Makes.bind (Prog.makes_request (fun _ => nofun) fun _ => makes_kube) fun siblings => ?_
  refine rest_makes.bind fun _ => ?_
  split
  · trivial
  · rename_i candidate hcandidate
    refine (ensureQuorumBootstrapState_makes
      (selectQuorumBootstrap_isI32 hcandidate)).bind fun bootstrap => ?_
    refine (ensureDirectoryIds_makes _).bind fun directoryIds => ?_
    refine rest_makes.bind fun _ => ?_
    refine Prog.Makes.bind (Prog.makes_when ?_) fun _ => rest_makes
    exact mergeSecret_makes .initialized

end Requests

/-! ## What the functions return -/

/-- The guard of every pass. -/
abbrev Guard (lib : UuidLib) (_ : Dialogue) (r : Req) : Prop := PatchesOnly lib r

section Rules

variable {α : Type} {Q : α → Dialogue → Prop} {log : Dialogue}

theorem getSecret_behavesTo {f : Data → Op α}
    (h : ∀ data, BehavesTo (Guard lib) Q (f data) (log ++ [⟨.getSecret, .ok data⟩])) :
    BehavesTo (Guard lib) Q (getSecret >>= f) log := by
  refine ⟨fun _ => nofun, fun x => ?_⟩
  cases x with
  | error e => trivial
  | ok data => exact h data

theorem mergeSecret_behavesTo {patch : Patch} {f : Unit → Op α} (hpatch : PassPatch lib patch)
    (h : BehavesTo (Guard lib) Q (f ()) (log ++ [⟨.mergeSecret patch, .ok ()⟩])) :
    BehavesTo (Guard lib) Q (mergeSecret patch >>= f) log := by
  refine ⟨fun patch' heq => ?_, fun x => ?_⟩
  · cases heq
    exact hpatch
  · cases x with
    | error e => trivial
    | ok u => exact h

end Rules

theorem ensureQuorumBootstrapState_obtained {candidate : QuorumBootstrapController}
    (h : NodePool.IsI32 candidate.nodeId) (log : Dialogue) :
    BehavesTo (Guard lib) (fun state log' => Obtained log' state.controller)
      (ensureQuorumBootstrapState candidate) log := by
  unfold ensureQuorumBootstrapState
  refine getSecret_behavesTo fun data => ?_
  split
  · trivial
  · rename_i state hstate
    exact .inl ⟨data, state, List.mem_concat_self, hstate, rfl⟩
  · apply mergeSecret_behavesTo (.bootstrap candidate h)
    exact .inr List.mem_concat_self

theorem ensureQuorumDirectoryId_obtained (nodeId : Int) (log : Dialogue) :
    BehavesTo (Guard lib) (fun u log' => ObtainedId lib log' nodeId u)
      (ensureQuorumDirectoryId lib nodeId) log := by
  unfold ensureQuorumDirectoryId
  refine getSecret_behavesTo fun data => ?_
  split
  · trivial
  · rename_i u hu
    exact .inl ⟨data, List.mem_concat_self, hu⟩
  · refine BehavesTo.bind (p := newUuid) ⟨fun _ => nofun, fun n => ?_⟩
    apply mergeSecret_behavesTo (.directory nodeId _)
    exact .inr List.mem_concat_self

/-! ## What is stored -/

/-- The data names a bootstrap node. -/
def Stored (data : Data) (c : QuorumBootstrapController) : Prop :=
  ∃ text, data[nodeIdKey]? = some text ∧ Decimal.parseI32 text = some c.nodeId ∧
    data[poolKey]? = some c.pool

def StoredId (lib : UuidLib) (data : Data) (nodeId : Int) (u : lib.Uuid) : Prop :=
  ∃ text, data[quorumDirectoryIdKey nodeId]? = some text ∧ lib.parse text = .ok u

theorem Stored.unique {data : Data} {c c' : QuorumBootstrapController} (h : Stored data c)
    (h' : Stored data c') : c = c' := by
  obtain ⟨text, htext, hnode, hpool⟩ := h
  obtain ⟨text', htext', hnode', hpool'⟩ := h'
  cases htext.symm.trans htext'
  cases c
  cases c'
  cases hnode.symm.trans hnode'
  cases hpool.symm.trans hpool'
  rfl

theorem StoredId.unique {data : Data} {nodeId : Int} {u u' : lib.Uuid}
    (h : StoredId lib data nodeId u) (h' : StoredId lib data nodeId u') : u = u' := by
  obtain ⟨text, htext, hparse⟩ := h
  obtain ⟨text', htext', hparse'⟩ := h'
  cases htext.symm.trans htext'
  exact Except.ok.inj (hparse.symm.trans hparse')

theorem stored_of_read {data : Data} {state : QuorumBootstrapState}
    (h : quorumBootstrapStateFromSecret data = .ok (some state)) : Stored data state.controller := by
  unfold quorumBootstrapStateFromSecret at h
  split at h
  · cases h
  · rename_i text pool htext hpool
    split at h
    · cases h
    · rename_i nodeId hparse
      split at h
      · cases h
      · split at h
        · cases h
        · split at h
          · cases h
          · cases h
            exact ⟨text, htext, hparse, hpool⟩
  · cases h

theorem storedId_of_read {data : Data} {nodeId : Int} {u : lib.Uuid}
    (h : quorumDirectoryIdFromSecret lib data nodeId = .ok (some u)) : StoredId lib data nodeId u := by
  unfold quorumDirectoryIdFromSecret at h
  split at h
  · cases h
  · rename_i text htext
    split at h
    · cases h
    · rename_i u' hparse
      cases h
      exact ⟨text, htext, hparse⟩

/-- The keys that are set stay as they are, up to the one that marks the quorum as
    initialized. -/
def Keeps (data data' : Data) : Prop :=
  ∀ key value, key ≠ initializedKey → data[key]? = some value → data'[key]? = some value

theorem Keeps.refl (data : Data) : Keeps data data := fun _ _ _ h => h

theorem Keeps.trans {data data' data'' : Data} (h : Keeps data data') (h' : Keeps data' data'') :
    Keeps data data'' := fun key value hkey hvalue => h' key value hkey (h key value hkey hvalue)

theorem Stored.keeps {data data' : Data} {c : QuorumBootstrapController} (h : Stored data c)
    (hkeep : Keeps data data') : Stored data' c := by
  obtain ⟨text, htext, hnode, hpool⟩ := h
  have hnodeKey : nodeIdKey ≠ initializedKey := by decide
  have hpoolKey : poolKey ≠ initializedKey := by decide
  exact ⟨text, hkeep nodeIdKey text hnodeKey htext, hnode, hkeep poolKey c.pool hpoolKey hpool⟩

theorem quorumDirectoryIdKey_ne (nodeId : Int) : quorumDirectoryIdKey nodeId ≠ initializedKey := by
  intro h
  have hsome : NodePool.stripPre "quorumDirectoryId-" (quorumDirectoryIdKey nodeId) =
      some (toString nodeId) := NodePool.stripPre_append _ _
  have hnone : NodePool.stripPre "quorumDirectoryId-" initializedKey = none := by decide
  rw [h, hnone] at hsome
  exact Option.some_ne_none _ hsome.symm

theorem StoredId.keeps {data data' : Data} {nodeId : Int} {u : lib.Uuid}
    (h : StoredId lib data nodeId u) (hkeep : Keeps data data') : StoredId lib data' nodeId u := by
  obtain ⟨text, htext, hparse⟩ := h
  exact ⟨text, hkeep _ text (quorumDirectoryIdKey_ne nodeId) htext, hparse⟩

/-! ## One step -/

section Step

variable {s : State} {i : Nat} {c : Choice} {w : World}

theorem keeps_mergeData {data : Data} {patch : Patch}
    (h : ∀ key ∈ patch.map (·.1), key ≠ initializedKey → data[key]? = none) :
    Keeps data (mergeData data patch) := by
  intro key value hkey hvalue
  by_cases hmem : key ∈ patch.map (·.1)
  · rw [h key hmem hkey] at hvalue
    cases hvalue
  · rwa [mergeData_of_not_mem hmem]

/-- A request that patches no key that is set keeps what is stored. -/
theorem keeps_answer {r : Req} (h : ∀ patch, r = .mergeSecret patch →
      ∀ key ∈ patch.map (·.1), key ≠ initializedKey → w.data[key]? = none) :
    Keeps w.data (answer r c w).2.data := by
  have hread {α : Type} (x : α) : Keeps w.data (answerRead c w x).2.data := by
    rw [answerRead_world]
    exact Keeps.refl _
  cases r with
  | listPools => exact hread _
  | getSecret => exact hread _
  | newUuid => exact Keeps.refl _
  | rest => exact hread _
  | mergeSecret patch =>
    have hmerge := keeps_mergeData (h patch rfl)
    change Keeps w.data (answerWrite c w { w with data := mergeData w.data patch }).2.data
    rcases answerWrite_world c w { w with data := mergeData w.data patch } with heq | heq
    · rw [heq]
      exact Keeps.refl _
    · rw [heq]
      exact hmerge

theorem isI32_of_passPatch {b : QuorumBootstrapController}
    (h : PassPatch lib (bootstrapPatch b)) : NodePool.IsI32 b.nodeId := by
  generalize hpatch : bootstrapPatch b = patch at h
  cases h with
  | bootstrap b' hb =>
    have hnode : toString b.nodeId = toString b'.nodeId := by
      simpa [bootstrapPatch] using (List.cons.inj hpatch).1
    rw [Decimal.toString_injective hnode]
    exact hb
  | directory nodeId u => simp [bootstrapPatch, directoryPatch] at hpatch
  | initialized => simp [bootstrapPatch, initializedPatch] at hpatch

theorem stored_mergeData {data : Data} {b : QuorumBootstrapController}
    (h : NodePool.IsI32 b.nodeId) : Stored (mergeData data (bootstrapPatch b)) b := by
  have hnodup : ((bootstrapPatch b).map (·.1)).Nodup := by
    change [nodeIdKey, poolKey, initializedKey].Nodup
    decide
  have hnode := mergeData_of_mem data (nodeIdKey, toString b.nodeId) hnodup
    (by simp [bootstrapPatch])
  have hpool := mergeData_of_mem data (poolKey, b.pool) hnodup
    (by simp [bootstrapPatch])
  unfold NodePool.IsI32 NodePool.maxI32 at h
  exact ⟨toString b.nodeId, hnode, Decimal.parseI32_toString (by omega), hpool⟩

theorem storedId_mergeData {data : Data} {nodeId : Int} {u : lib.Uuid} :
    StoredId lib (mergeData data (directoryPatch lib nodeId u)) nodeId u := by
  have hkey : (mergeData data (directoryPatch lib nodeId u))[quorumDirectoryIdKey nodeId]? =
      some (lib.toText u) :=
    mergeData_of_mem data (quorumDirectoryIdKey nodeId, lib.toText u) (by simp [directoryPatch])
      (by simp [directoryPatch])
  exact ⟨lib.toText u, hkey, lib.parse_toText u⟩

end Step

/-! ## The answers -/

section Answers

variable {r : Req} {c : Choice} {w : World} {log : Dialogue}

/-- A read that is new in the dialogue returns what is stored. -/
theorem read_of_mem_append {data : Data}
    (h : ⟨.getSecret, .ok data⟩ ∈ log ++ [⟨r, (answer r c w).1⟩]) :
    ⟨.getSecret, .ok data⟩ ∈ log ∨ (answer r c w).2.data = data := by
  rcases List.mem_append.mp h with hlog | hnew
  · exact .inl hlog
  · obtain ⟨rfl, heq⟩ := Sigma.mk.inj (List.mem_singleton.mp hnew)
    have hread : (answerRead c w w.data).1 = .ok data := (eq_of_heq heq).symm
    right
    change (answerRead c w w.data).2.data = data
    rw [answerRead_world]
    exact eq_of_answerRead hread

/-- A patch that is new in the dialogue has been made. -/
theorem patched_of_mem_append {patch : Patch}
    (h : ⟨.mergeSecret patch, .ok ()⟩ ∈ log ++ [⟨r, (answer r c w).1⟩]) :
    ⟨.mergeSecret patch, .ok ()⟩ ∈ log ∨
      (r = .mergeSecret patch ∧ (answer r c w).2.data = mergeData w.data patch) := by
  rcases List.mem_append.mp h with hlog | hnew
  · exact .inl hlog
  · obtain ⟨rfl, heq⟩ := Sigma.mk.inj (List.mem_singleton.mp hnew)
    have hok : (answerWrite c w { w with data := mergeData w.data patch }).1 = .ok () :=
      (eq_of_heq heq).symm
    exact .inr ⟨rfl, congrArg World.data (answerWrite_of_ok hok)⟩

variable (hkeep : Keeps w.data (answer r c w).2.data) (hmakes : PatchesOnly lib r)
include hkeep

include hmakes in
theorem stored_of_obtained_append {b : QuorumBootstrapController}
    (hlog : ∀ b, Obtained log b → Stored w.data b)
    (h : Obtained (log ++ [⟨r, (answer r c w).1⟩]) b) : Stored (answer r c w).2.data b := by
  rcases h with ⟨data, state, hmem, hread, rfl⟩ | hmem
  · rcases read_of_mem_append hmem with hold | hdata
    · exact (hlog _ (.inl ⟨data, state, hold, hread, rfl⟩)).keeps hkeep
    · rw [hdata]
      exact stored_of_read hread
  · rcases patched_of_mem_append hmem with hold | ⟨hreq, hdata⟩
    · exact (hlog _ (.inr hold)).keeps hkeep
    · rw [hdata]
      exact stored_mergeData (isI32_of_passPatch (hmakes _ hreq))

theorem storedId_of_obtained_append {nodeId : Int} {u : lib.Uuid}
    (hlog : ∀ u, ObtainedId lib log nodeId u → StoredId lib w.data nodeId u)
    (h : ObtainedId lib (log ++ [⟨r, (answer r c w).1⟩]) nodeId u) :
    StoredId lib (answer r c w).2.data nodeId u := by
  rcases h with ⟨data, hmem, hread⟩ | hmem
  · rcases read_of_mem_append hmem with hold | hdata
    · exact (hlog _ (.inl ⟨data, hold, hread⟩)).keeps hkeep
    · rw [hdata]
      exact storedId_of_read hread
  · rcases patched_of_mem_append hmem with hold | ⟨-, hdata⟩
    · exact (hlog _ (.inr hold)).keeps hkeep
    · rw [hdata]
      exact storedId_mergeData

end Answers

/-! ## Every state of a run -/

/-- What the passes have obtained and the nodes have formatted is what the Secret says. -/
structure Sound (lib : UuidLib) (s : State) : Prop where
  behaves : ∀ i, Behaves (Guard lib) (s.party i).1 (s.party i).2
  controller : ∀ i c, Obtained (s.party i).2 c → Stored s.world.data c
  directory : ∀ i nodeId u, ObtainedId lib (s.party i).2 nodeId u →
    StoredId lib s.world.data nodeId u
  standalone : ∀ node ∈ s.world.standalone,
    s.world.data[nodeIdKey]? = some (toString node.1) ∧ s.world.data[poolKey]? = some node.2

section Runs

variable {s : State} {e : Event lib}

theorem sound_init (pools : List KafkaNodePool) (data : Data) :
    Sound lib (State.init pools data) where
  behaves := fun _ => trivial
  controller := by
    rintro i c (⟨data, state, hmem, -⟩ | hmem)
    · cases hmem
    · cases hmem
  directory := by
    rintro i nodeId u (⟨data, hmem, -⟩ | hmem)
    · cases hmem
    · cases hmem
  standalone := fun _ hmem => absurd hmem List.not_mem_nil

theorem Sound.behaves_step (h : Sound lib s) (e : Event lib) :
    ∀ i, Behaves (Guard lib) ((step e s).party i).1 ((step e s).party i).2 := by
  refine Behaves.step answer h.behaves fun i p hstart => ?_
  cases e with
  | start j pass =>
    cases hstart
    exact behaves_of_makes (reconcilePool_makes pass) (fun _ _ hr => hr) []
  | call j c => cases hstart
  | pools f => cases hstart
  | format nodeId pool => cases hstart

theorem keeps_step (h : KeepsFirst e s) : Keeps s.world.data (step e s).world.data := by
  cases e with
  | start i pass => exact Keeps.refl _
  | pools f => exact Keeps.refl _
  | format nodeId pool =>
    change Keeps s.world.data (World.format nodeId pool s.world).data
    unfold World.format
    split
    · exact Keeps.refl _
    · exact Keeps.refl _
  | call i c =>
    change Keeps s.world.data (Interleave.step answer (.request i c) s).world.data
    rcases step_request answer i c s with ⟨r, k, hcall, hstep⟩ | ⟨-, hstep⟩
    · rw [hstep, answered_world]
      refine keeps_answer fun patch heq => h patch ?_
      rw [hcall]
      exact congrArg some heq
    · rw [hstep]
      exact Keeps.refl _

/-- A step that leaves the dialogues as they are. -/
theorem Sound.congr (h : Sound lib s) {t : State}
    (hbehaves : ∀ i, Behaves (Guard lib) (t.party i).1 (t.party i).2)
    (hkeep : Keeps s.world.data t.world.data)
    (hlog : ∀ i, (t.party i).2 = (s.party i).2 ∨ (t.party i).2 = [])
    (hstandalone : ∀ node ∈ t.world.standalone,
      t.world.data[nodeIdKey]? = some (toString node.1) ∧
        t.world.data[poolKey]? = some node.2) : Sound lib t where
  behaves := hbehaves
  controller := fun i c hc => by
    rcases hlog i with heq | hnil
    · rw [heq] at hc
      exact (h.controller i c hc).keeps hkeep
    · rw [hnil] at hc
      rcases hc with ⟨data, state, hmem, -⟩ | hmem
      · cases hmem
      · cases hmem
  directory := fun i nodeId u hu => by
    rcases hlog i with heq | hnil
    · rw [heq] at hu
      exact (h.directory i nodeId u hu).keeps hkeep
    · rw [hnil] at hu
      rcases hu with ⟨data, hmem, -⟩ | hmem
      · cases hmem
      · cases hmem
  standalone := hstandalone

/-- The values that the nodes have formatted with stay in the Secret. -/
theorem Sound.standalone_keeps (h : Sound lib s) {data : Data} (hkeep : Keeps s.world.data data) :
    ∀ node ∈ s.world.standalone,
      data[nodeIdKey]? = some (toString node.1) ∧ data[poolKey]? = some node.2 := by
  intro node hnode
  have hnodeKey : nodeIdKey ≠ initializedKey := by decide
  have hpoolKey : poolKey ≠ initializedKey := by decide
  obtain ⟨hid, hpool⟩ := h.standalone node hnode
  exact ⟨hkeep nodeIdKey _ hnodeKey hid, hkeep poolKey _ hpoolKey hpool⟩

theorem of_formatsStandalone {data : Data} {nodeId : Int} {pool : String}
    (h : formatsStandalone data nodeId pool = true) :
    data[nodeIdKey]? = some (toString nodeId) ∧ data[poolKey]? = some pool := by
  unfold formatsStandalone at h
  split at h
  · rename_i initialized first owner _ hfirst howner
    simp only [Bool.and_eq_true, decide_eq_true_eq] at h
    obtain ⟨⟨-, rfl⟩, rfl⟩ := h
    exact ⟨hfirst, howner⟩
  · cases h

theorem answer_standalone {r : Req} {c : Choice} {w : World} :
    (answer r c w).2.standalone = w.standalone := by
  have hread {α : Type} (x : α) : (answerRead c w x).2.standalone = w.standalone := by
    rw [answerRead_world]
  cases r with
  | listPools => exact hread _
  | getSecret => exact hread _
  | newUuid => rfl
  | rest => exact hread _
  | mergeSecret patch =>
    change (answerWrite c w { w with data := mergeData w.data patch }).2.standalone = w.standalone
    rcases answerWrite_world c w { w with data := mergeData w.data patch } with heq | heq
    · rw [heq]
    · rw [heq]

theorem Sound.answered (h : Sound lib s) {i : Nat} {c : Choice} {r : Req}
    {k : Resp r → Op Unit} (hcall : (s.party i).1 = .call r k)
    (hbehaves : ∀ j, Behaves (Guard lib) ((Interleave.answered answer i c s r k).party j).1
      ((Interleave.answered answer i c s r k).party j).2)
    (hkeep : Keeps s.world.data (answer r c s.world).2.data) :
    Sound lib (Interleave.answered answer i c s r k) where
  behaves := hbehaves
  controller := fun j b hb => by
    by_cases hj : j = i
    · subst hj
      have hmakes : PatchesOnly lib r := by
        have := h.behaves j
        rw [hcall] at this
        exact this.1
      rw [answered_party_self] at hb
      exact stored_of_obtained_append hkeep hmakes (h.controller j) hb
    · rw [answered_party_of_ne hj] at hb
      exact (h.controller j b hb).keeps hkeep
  directory := fun j nodeId u hu => by
    by_cases hj : j = i
    · subst hj
      rw [answered_party_self] at hu
      exact storedId_of_obtained_append hkeep (h.directory j nodeId) hu
    · rw [answered_party_of_ne hj] at hu
      exact (h.directory j nodeId u hu).keeps hkeep
  standalone := fun node hnode => by
    rw [answered_world, answer_standalone] at hnode
    exact h.standalone_keeps hkeep node hnode

theorem Sound.step (h : Sound lib s) (hkeep : KeepsFirst e s) : Sound lib (Bootstrap.step e s) := by
  have hbehaves := h.behaves_step e
  have hkeeps := keeps_step hkeep
  cases e with
  | start i pass =>
    refine h.congr hbehaves hkeeps (fun j => ?_) (h.standalone_keeps hkeeps)
    by_cases hj : j = i
    · subst hj
      right
      simp [Bootstrap.step, Event.move, Interleave.step]
    · left
      simp [Bootstrap.step, Event.move, Interleave.step, Function.update_of_ne hj]
  | pools f => exact h.congr hbehaves hkeeps (fun j => .inl rfl) (h.standalone_keeps hkeeps)
  | format nodeId pool =>
    refine h.congr hbehaves hkeeps (fun j => .inl rfl) fun node hnode => ?_
    change node ∈ (World.format nodeId pool s.world).standalone at hnode
    change (World.format nodeId pool s.world).data[nodeIdKey]? = _ ∧
      (World.format nodeId pool s.world).data[poolKey]? = _
    unfold World.format at hnode ⊢
    split
    · rename_i hformat
      rw [if_pos hformat] at hnode
      rcases List.mem_cons.mp hnode with rfl | hold
      · exact of_formatsStandalone hformat
      · exact h.standalone node hold
    · rename_i hformat
      rw [if_neg hformat] at hnode
      exact h.standalone node hnode
  | call i c =>
    change Keeps s.world.data (Interleave.step answer (.request i c) s).world.data at hkeeps
    change ∀ j, Behaves (Guard lib) ((Interleave.step answer (.request i c) s).party j).1
      ((Interleave.step answer (.request i c) s).party j).2 at hbehaves
    change Sound lib (Interleave.step answer (.request i c) s)
    rcases step_request answer i c s with ⟨r, k, hcall, hstep⟩ | ⟨-, hstep⟩
    · rw [hstep] at hkeeps hbehaves ⊢
      exact h.answered hcall hbehaves hkeeps
    · rw [hstep]
      exact h

/-- What holds at two states of a run: no two passes disagree, and all nodes that format a
    standalone quorum are one. -/
structure Agree (lib : UuidLib) (s t : State) : Prop where
  controller : ∀ i j c c', Obtained (s.party i).2 c → Obtained (t.party j).2 c' → c = c'
  directory : ∀ i j nodeId u u', ObtainedId lib (s.party i).2 nodeId u →
    ObtainedId lib (t.party j).2 nodeId u' → u = u'
  standalone : ∀ node ∈ s.world.standalone, ∀ node' ∈ t.world.standalone, node = node'
  formats : ∀ node ∈ s.world.standalone, ∀ j c, Obtained (t.party j).2 c →
    node = (c.nodeId, c.pool)

theorem Sound.agree {t : State} (hs : Sound lib s) (ht : Sound lib t)
    (hkeep : Keeps s.world.data t.world.data) : Agree lib s t where
  controller := fun i j c c' hc hc' =>
    ((hs.controller i c hc).keeps hkeep).unique (ht.controller j c' hc')
  directory := fun i j nodeId u u' hu hu' =>
    ((hs.directory i nodeId u hu).keeps hkeep).unique (ht.directory j nodeId u' hu')
  standalone := fun node hnode node' hnode' => by
    obtain ⟨hid, hpool⟩ := hs.standalone_keeps hkeep node hnode
    obtain ⟨hid', hpool'⟩ := ht.standalone node' hnode'
    have hsame : toString node.1 = toString node'.1 := Option.some.inj (hid.symm.trans hid')
    exact Prod.ext (Decimal.toString_injective hsame) (Option.some.inj (hpool.symm.trans hpool'))
  formats := fun node hnode j c hc => by
    obtain ⟨hid, hpool⟩ := hs.standalone_keeps hkeep node hnode
    obtain ⟨text, htext, hnodeId, hpool'⟩ := ht.controller j c hc
    cases hid.symm.trans htext
    have hsame : c.nodeId = node.1 := Decimal.eq_of_parseSigned_toString hnodeId
    exact Prod.ext hsame.symm (Option.some.inj (hpool.symm.trans hpool'))

/-- In every run in which no key that is set is patched, all passes use the same bootstrap node
    and the same directory ids, at any two states. -/
theorem bootstrap_unique {pools : List KafkaNodePool} {data : Data} (before after : List (Event lib))
    (h : History.Along exec KeepsFirst (before ++ after) (State.init pools data)) :
    Agree lib (History.final exec before (State.init pools data))
      (History.final exec (before ++ after) (State.init pools data)) := by
  obtain ⟨hbefore, hafter⟩ := h.append
  have hsound : Sound lib (History.final exec before (State.init pools data)) :=
    History.invariant_states (sound_init pools data) hbefore
      (fun e s he hs t ht => by
        rw [List.mem_singleton.mp ht]
        exact hs.step he) _ History.final_mem_states
  obtain ⟨hend, hkeep⟩ :=
    History.invariant_states (I := fun t => Sound lib t ∧
      Keeps (History.final exec before (State.init pools data)).world.data t.world.data)
      ⟨hsound, Keeps.refl _⟩ hafter
      (fun e s he hs t ht => by
        rw [List.mem_singleton.mp ht]
        exact ⟨hs.1.step he, hs.2.trans (keeps_step he)⟩) _ History.final_mem_states
  rw [History.final_append]
  exact hsound.agree hend hkeep

end Runs

namespace Sample

/-- UUIDs that are their own texts. -/
def uuids : UuidLib where
  Uuid := String
  toText := id
  parse := .ok
  drawn n := "uuid-" ++ toString n
  parse_toText := fun _ => rfl

/-- A pool of one controller. -/
def pool (name : String) (first : Int) : KafkaNodePool where
  name := name
  labels := ∅
  spec := { replicas := 1, nodeIdStart := first, roles := [.controller] }
  status := none

/-- A pass over a pool whose pod is not ready yet. -/
def pass (name : String) (first : Int) : Event uuids :=
  .start first.toNat { pool := pool name first, ready := fun _ => false }

def calls (i n : Nat) : List (Event uuids) := List.replicate n (.call i {})

/-- One pass after the other. -/
def apart : List (Event uuids) :=
  [pass "b" 10] ++ calls 10 12 ++ [.format 10 "b", .pools (pool "a" 0 :: ·), pass "a" 0] ++
    calls 0 12 ++ [.format 0 "a"]

/-- Pool `a` is created while the pass over pool `b` is between its read and its patch. -/
def race : List (Event uuids) :=
  [pass "b" 10] ++ calls 10 4 ++ [.pools (pool "a" 0 :: ·), pass "a" 0] ++ calls 0 12 ++
    [.format 0 "a"] ++ calls 10 8 ++ [.format 10 "b"]

def start : State := State.init [pool "b" 10] ∅

end Sample

theorem bootstrap_unique_apart :
    Agree Sample.uuids Sample.start (History.final exec Sample.apart Sample.start) :=
  bootstrap_unique [] Sample.apart (by decide)

/-- Two passes read the Secret before one of them patches it. Both patch it, and each node
    formats a quorum of its own. -/
theorem race_formats_twice :
    ¬ ∀ es : List (Event Sample.uuids),
      Agree Sample.uuids (History.final exec es Sample.start)
        (History.final exec es Sample.start) := by
  intro h
  have hall : (History.final exec Sample.race Sample.start).world.standalone =
      [(10, "b"), (0, "a")] := by decide
  have hagree := (h Sample.race).standalone
  rw [hall] at hagree
  have hsame := hagree (10, "b") List.mem_cons_self (0, "a")
    (List.mem_cons_of_mem _ List.mem_cons_self)
  exact absurd hsame (by decide)

end Bootstrap
