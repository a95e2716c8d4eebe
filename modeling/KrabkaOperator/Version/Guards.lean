-- SUMMARY: What the passes do whatever they are answered: a finalization rests on a roll and an accepted update, and a StatefulSet has the version of the parent that was read.
import KrabkaOperator.NodePool.Rules
import KrabkaOperator.Version.Pass

/-!
# What the passes rely on

A pass may be answered anything, since others change the world between its calls.
The guards speak of its own dialogue: what it has read, and what was accepted.
-/

namespace Version

open Kube Crd Operator Interleave

abbrev Dialogue := Prog.Dialogue Resp

/-! ## The guards -/

/-- The pass has patched no status so far. -/
def Unpatched (log : Dialogue) : Prop := ∀ e ∈ log, ∀ status, e.1 ≠ .patchStatus status

/-- The pass has found all pools on the version, and the update to the level of the metadata
    version was accepted. -/
def Finalizes (table : MetadataTable) (log : Dialogue) (kafkaVersion metadata : String) : Prop :=
  ∃ pools statefulSets level upgradeType,
    ⟨.listPools, .ok pools⟩ ∈ log ∧ ⟨.listStatefulSets, .ok statefulSets⟩ ∈ log ∧
    poolsRolledToVersion pools statefulSets kafkaVersion = true ∧
    table.fromVersionString metadata = some level ∧
    ⟨.updateMetadataVersion level upgradeType, .ok ()⟩ ∈ log

/-- The metadata version of the next status, as against that of the object. -/
def Advances (table : MetadataTable) (log : Dialogue) (obj : Object) (status : KafkaStatus) : Prop :=
  (obj.metadataVersion.isSome → status.metadataVersion.isSome) ∧
  ∀ old new, obj.metadataVersion = some old → status.metadataVersion = some new →
    table.fromVersionString old ≠ table.fromVersionString new →
    Finalizes table log obj.kafka.spec.kafkaVersion new

/-- The StatefulSet has the version of a parent that the pass has read behind a cleared gate. -/
def FollowsParent (log : Dialogue) (sts : StatefulSet) : Prop :=
  ∃ name parent, ⟨.pool (.getKafka name), .ok (some parent)⟩ ∈ log ∧ parent.gate = .cleared ∧
    sts.labels["app.kubernetes.io/version"]? = some parent.kafkaVersion

/-- What a request of a party rests on. -/
def Guard (table : MetadataTable) : Party → Dialogue → Req → Prop
  | .kafka, log, r => Unpatched log ∧
    match r with
    | .patchStatus status => ∃ obj, ⟨.object, obj⟩ ∈ log ∧ Advances table log obj status
    | .pool _ => False
    | _ => True
  | .pool _, log, r =>
    match r with
    | .pool (.applyStatefulSet sts) => FollowsParent log sts
    | .pool _ => True
    | _ => False

/-! ## The pass over the Kafka -/

section Kafka

variable {printable : Char → Bool} {table : MetadataTable} {α : Type}

/-- A dialogue that goes on from another one, without a patch of the status. -/
def Extends (log₀ log : Dialogue) : Prop := log₀ ⊆ log ∧ Unpatched log

/-- The requests of the Kafka pass but the patch at its end. -/
def Req.quiet : Req → Bool
  | .patchStatus _ | .pool _ => false
  | _ => true

theorem Extends.refl {log : Dialogue} (h : Unpatched log) : Extends log log :=
  ⟨List.Subset.refl _, h⟩

theorem Extends.snoc {log₀ log : Dialogue} (h : Extends log₀ log) {r : Req} (hr : r.quiet = true)
    (x : Resp r) : Extends log₀ (log ++ [⟨r, x⟩]) := by
  refine ⟨List.Subset.trans h.1 (List.subset_append_left _ _), fun e he status => ?_⟩
  rcases List.mem_append.mp he with he | he
  · exact h.2 e he status
  · rw [List.mem_singleton.mp he]
    rintro rfl
    cases hr

theorem guard_of_quiet {log : Dialogue} {r : Req} (hr : r.quiet = true) (h : Unpatched log) :
    Guard table .kafka log r := by
  refine ⟨h, ?_⟩
  cases r with
  | patchStatus status => cases hr
  | pool r => cases hr
  | _ => trivial

/-- A stage with quiet requests. -/
theorem quiet_stage {p : Op α} (h : Prog.Makes (fun r => r.quiet = true) p) {log₀ log : Dialogue}
    (hlog : Extends log₀ log) : BehavesTo (Guard table .kafka) (fun _ => Extends log₀) p log :=
  behavesTo_of_makes h
    (fun _ _ hr hlog => ⟨guard_of_quiet hr hlog.2, fun x => hlog.snoc hr x⟩) hlog

theorem makes_kube {R : Req → Prop} {x : Except KubeError α} : Prog.Makes R (kube x : Op α) := by
  cases x <;> trivial

theorem patchCondition_quiet {cond : Condition} :
    Prog.Makes (fun r => r.quiet = true) (patchCondition cond) :=
  Prog.makes_request rfl fun _ => makes_kube

theorem rest_quiet : Prog.Makes (fun r => r.quiet = true) rest :=
  Prog.makes_request rfl fun _ => makes_kube

theorem validateRuntime_quiet (checks : List (Condition × Option String)) :
    Prog.Makes (fun r => r.quiet = true) (validateRuntime checks) := by
  induction checks with
  | nil => trivial
  | cons check checks ih =>
    obtain ⟨cond, why⟩ := check
    refine patchCondition_quiet.bind fun _ => ?_
    cases why with
    | none => exact ih
    | some why => trivial

theorem listPools_reads {log : Dialogue} (h : Unpatched log) :
    BehavesTo (Guard table .kafka)
      (fun pools log' => Extends log log' ∧ ⟨.listPools, .ok pools⟩ ∈ log') listPools log := by
  refine ⟨guard_of_quiet rfl h, fun x => ?_⟩
  cases x with
  | error e => trivial
  | ok pools => exact ⟨(Extends.refl h).snoc rfl _, List.mem_concat_self⟩

theorem listStatefulSets_reads {log : Dialogue} (h : Unpatched log) :
    BehavesTo (Guard table .kafka)
      (fun sts log' => Extends log log' ∧ ⟨.listStatefulSets, .ok sts⟩ ∈ log')
      listStatefulSets log := by
  refine ⟨guard_of_quiet rfl h, fun x => ?_⟩
  cases x with
  | error e => trivial
  | ok sts => exact ⟨(Extends.refl h).snoc rfl _, List.mem_concat_self⟩

/-- A level other than the finalized one comes with a roll and an accepted update. -/
theorem reconcileMetadataVersion_outcome {errorText : KubeError → String}
    {resolved finalized : Option String} {rolled : Bool} {log : Dialogue} (h : Unpatched log) :
    BehavesTo (Guard table .kafka) (fun outcome log' => Extends log log' ∧
      ∀ old new, finalized = some old → outcome = .ok (some new) →
        table.fromVersionString old ≠ table.fromVersionString new →
        rolled = true ∧ ∃ level upgradeType, table.fromVersionString new = some level ∧
          ⟨.updateMetadataVersion level upgradeType, .ok ()⟩ ∈ log')
      (reconcileMetadataVersion table errorText resolved finalized rolled) log := by
  unfold reconcileMetadataVersion
  cases resolved with
  | none => exact ⟨Extends.refl h, nofun⟩
  | some resolved =>
    cases finalized with
    | none => exact ⟨Extends.refl h, nofun⟩
    | some finalized =>
      dsimp only
      split
      · rename_i target level htarget hlevel
        split
        · rename_i heq
          refine ⟨Extends.refl h, fun old new hold hnew hne => ?_⟩
          cases hold
          cases hnew
          exact absurd (by rw [hlevel, htarget, heq]) hne
        · split
          · refine ⟨Extends.refl h, fun old new hold hnew hne => ?_⟩
            cases hold
            cases hnew
            exact absurd rfl hne
          · rename_i hrolled
            have hadmin (x : Except KubeError Unit) :
                Extends log (log ++ [⟨.adminClient, x⟩]) :=
              (Extends.refl h).snoc (r := Req.adminClient) rfl x
            refine ⟨guard_of_quiet rfl h, fun x => ?_⟩
            cases x with
            | error e => exact ⟨hadmin _, nofun⟩
            | ok u =>
              refine ⟨guard_of_quiet rfl (hadmin _).2, fun x => ?_⟩
              cases x with
              | error e => exact ⟨(hadmin _).snoc rfl _, nofun⟩
              | ok v =>
                refine ⟨(hadmin _).snoc rfl _, fun old new hold hnew hne => ?_⟩
                cases hnew
                exact ⟨by simpa using hrolled, target, _, htarget, List.mem_concat_self⟩
      · exact ⟨Extends.refl h, nofun⟩

variable (printable table) in
/-- The final status keeps the metadata version, or has the one of the outcome. -/
theorem finalStatus_metadataVersion (pass : KafkaPass) (obj : Object)
    (outcome : Except Condition (Option String)) :
    (∃ new, outcome = .ok (some new) ∧
      (finalStatus printable table pass obj outcome).metadataVersion = some new) ∨
    (finalStatus printable table pass obj outcome).metadataVersion = obj.metadataVersion := by
  cases outcome with
  | error cond => exact .inr rfl
  | ok resolved =>
    cases resolved with
    | none => exact .inr rfl
    | some new => exact .inl ⟨new, rfl, rfl⟩

theorem finishPass_behaves {pass : KafkaPass} {obj : Object}
    {outcome : Except Condition (Option String)} {log : Dialogue} (h : Unpatched log)
    (hobj : ⟨.object, obj⟩ ∈ log)
    (hfin : ∀ old new, obj.metadataVersion = some old → outcome = .ok (some new) →
      table.fromVersionString old ≠ table.fromVersionString new →
      Finalizes table log obj.kafka.spec.kafkaVersion new) :
    BehavesTo (Guard table .kafka) (fun _ _ => True)
      (finishPass printable table pass obj outcome) log := by
  unfold finishPass
  refine BehavesTo.bind ((quiet_stage rest_quiet (Extends.refl h)).mono fun _ log₁ h₁ => ?_)
  split
  · exact (quiet_stage patchCondition_quiet h₁).mono fun _ _ _ => trivial
  · refine BehavesTo.bind ((quiet_stage rest_quiet h₁).mono fun _ log₂ h₂ => ?_)
    refine ⟨⟨h₂.2, obj, h₂.1 hobj, ?_, ?_⟩, fun x => ?_⟩
    · intro hsome
      rcases finalStatus_metadataVersion printable table pass obj outcome with ⟨new, -, hnew⟩ | heq
      · rw [hnew]
        rfl
      · rwa [heq]
    · intro old new hold hnew hne
      rcases finalStatus_metadataVersion printable table pass obj outcome with ⟨new', hout, hnew'⟩ | heq
      · rw [hnew'] at hnew
        cases hnew
        obtain ⟨pools, sts, level, kind, hpools, hsts, hrolled, hlevel, hupdate⟩ :=
          hfin old new hold hout hne
        exact ⟨pools, sts, level, kind, h₂.1 hpools, h₂.1 hsts, hrolled, hlevel, h₂.1 hupdate⟩
      · rw [heq, hold] at hnew
        cases hnew
        exact absurd rfl hne
    · cases x <;> trivial

theorem reconcileKafka_behaves (pass : KafkaPass) :
    Behaves (Guard table .kafka) (reconcileKafka printable table pass) [] := by
  apply BehavesTo.behaves (Q := fun _ _ => True)
  have hnil : Unpatched [] := fun _ he => nomatch he
  refine BehavesTo.bind (p := getObject) ⟨guard_of_quiet rfl hnil, fun obj => ?_⟩
  have hobj : ⟨.object, obj⟩ ∈ ([⟨.object, obj⟩] : Dialogue) := List.mem_singleton.mpr rfl
  have h₀ : Extends [⟨.object, obj⟩] [⟨.object, obj⟩] :=
    Extends.refl ((Extends.refl hnil).snoc (r := Req.object) rfl obj).2
  refine BehavesTo.bind ((quiet_stage rest_quiet h₀).mono fun _ log₁ h₁ => ?_)
  refine BehavesTo.bind ((quiet_stage (validateRuntime_quiet _) h₁).mono fun _ log₂ h₂ => ?_)
  refine BehavesTo.bind ((listPools_reads h₂.2).mono fun pools log₃ h₃ => ?_)
  refine BehavesTo.bind ((listStatefulSets_reads h₃.1.2).mono fun sts log₄ h₄ => ?_)
  refine BehavesTo.bind ((reconcileMetadataVersion_outcome h₄.1.2).mono fun outcome log₅ h₅ => ?_)
  have hsub : log₃ ⊆ log₅ := List.Subset.trans h₄.1.1 h₅.1.1
  refine finishPass_behaves h₅.1.2 (hsub (h₃.1.1 (h₂.1 hobj))) fun old new hold hout hne => ?_
  obtain ⟨hrolled, level, kind, hlevel, hupdate⟩ := h₅.2 old new hold hout hne
  exact ⟨pools, sts, level, kind, hsub h₃.2, h₅.1.1 h₄.2, hrolled, hlevel, hupdate⟩

end Kafka

/-! ## The pass over a pool -/

section Pool

variable {table : MetadataTable} {α : Type}

/-- An answered request of the pool controller. -/
def poolEntry (e : (r : NodePool.Req) × NodePool.Resp r) : (r : Req) × Resp r := ⟨.pool e.1, e.2⟩

/-- The requests of the pool controller, in the world of both controllers. -/
theorem behaves_refined {G : Dialogue → Req → Prop} {p : NodePool.Op α}
    {log : Prog.Dialogue NodePool.Resp}
    (h : Behaves (fun log r => G (log.map poolEntry) (Req.pool r)) p log) :
    Behaves G (p.refined fun r => (Prog.request (Req.pool r) : Op (NodePool.Resp r)))
      (log.map poolEntry) := by
  induction p generalizing log with
  | ret a => trivial
  | fail e => trivial
  | call r k ih =>
    refine ⟨h.1, fun x => ?_⟩
    have hnext := ih x (h.2 x)
    rwa [List.map_append] at hnext

/-- A request that applies no StatefulSet other than the one rendered for a parent. -/
def AppliesOnly (pass : NodePool.PoolPass) (parent : NodePool.Parent) (r : NodePool.Req) : Prop :=
  ∀ sts, r = .applyStatefulSet sts → sts = NodePool.renderStatefulset parent pass

theorem appliesOnly_of_kind {pass : NodePool.PoolPass} {parent : NodePool.Parent} {p : NodePool.Op α}
    (h : NodePool.MakesKinds [.read, .status, .drain, .voter] p) :
    Prog.Makes (AppliesOnly pass parent) p := by
  refine h.mono fun r hr sts heq => ?_
  rw [heq] at hr
  exact absurd hr (by simp [NodePool.Req.kind])

theorem reconcilePool_applies {pass : NodePool.PoolPass} {parent : NodePool.Parent} :
    Prog.Makes (AppliesOnly pass parent) (NodePool.reconcilePool pass parent) := by
  have hpatch (cond : Condition) :
      Prog.Makes (AppliesOnly pass parent) (NodePool.patchStatusForPool pass.pool.name cond) :=
    appliesOnly_of_kind (NodePool.patchStatusForPool_makes (by decide))
  unfold NodePool.reconcilePool
  refine (appliesOnly_of_kind (NodePool.listPools_makes (by decide))).bind fun siblings => ?_
  refine (appliesOnly_of_kind (NodePool.listStatefulSets_makes (by decide))).bind fun sets => ?_
  refine (appliesOnly_of_kind (NodePool.listPods_makes (by decide))).bind fun pods => ?_
  split
  · exact (hpatch _).bind fun _ => trivial
  · refine Prog.makes_ite ((hpatch _).bind fun _ => trivial) (Prog.makes_ite trivial ?_)
    refine (appliesOnly_of_kind (NodePool.effect_makes (by decide))).bind fun _ => ?_
    refine (appliesOnly_of_kind (NodePool.ensureDirectoryIds_makes (by decide) _)).bind fun _ => ?_
    refine (appliesOnly_of_kind (NodePool.getStatefulSet_makes (by decide))).bind fun observed => ?_
    split
    · exact (hpatch _).bind fun _ => trivial
    · refine (appliesOnly_of_kind (NodePool.reconcileControllerScaleDown_makes (by decide)
        (by decide) (by decide) (by decide))).bind fun down => ?_
      cases down with
      | some action => trivial
      | none =>
        dsimp only
        unfold NodePool.applyPool
        split
        · trivial
        · refine Prog.Makes.bind (Prog.makes_request ?_ fun _ => NodePool.makes_kube) fun _ => ?_
          · rintro sts heq
            cases heq
            rfl
          · exact appliesOnly_of_kind (NodePool.reportPool_makes (by decide) (by decide))

/-- A request that applies no StatefulSet. -/
def AppliesNone (r : NodePool.Req) : Prop := ∀ sts, r ≠ .applyStatefulSet sts

theorem appliesNone_of_kind {K : List NodePool.ReqKind} {p : NodePool.Op α}
    (h : NodePool.MakesKinds K p) (hK : NodePool.ReqKind.sets ∉ K) : Prog.Makes AppliesNone p := by
  refine h.mono fun r hr sts heq => ?_
  rw [heq] at hr
  exact hK hr

theorem releasePool_appliesNone {cluster : String} {pool : KafkaNodePool} {sts : Option StatefulSet}
    {pods : List Pod} {roles : NodePool.RoleMask} :
    Prog.Makes AppliesNone (NodePool.releasePool cluster pool sts pods roles) := by
  unfold NodePool.releasePool
  refine Prog.Makes.bind (Prog.makes_when ?_) fun _ => ?_
  · exact Prog.makes_request (fun _ => nofun) fun _ => NodePool.makes_kube
  · exact appliesNone_of_kind (NodePool.dropFinalizer_makes (K := [.drain, .life]) (by decide)
      (by decide)) (by decide)

theorem reconcileDeletion_appliesNone {pool : KafkaNodePool} {parent : Option NodePool.Parent}
    {cluster : String} : Prog.Makes AppliesNone (NodePool.reconcileDeletion pool parent cluster) := by
  unfold NodePool.reconcileDeletion
  refine Prog.makes_ite trivial ?_
  refine (appliesNone_of_kind (NodePool.getStatefulSet_makes (K := [.read]) (by decide))
    (by decide)).bind fun sts => ?_
  refine (appliesNone_of_kind (NodePool.listPods_makes (K := [.read]) (by decide))
    (by decide)).bind fun pods => ?_
  refine Prog.makes_ite releasePool_appliesNone ?_
  unfold NodePool.retireNodes
  refine Prog.Makes.bind (Prog.makes_ite ?_ trivial) fun drained => ?_
  · exact appliesNone_of_kind (NodePool.reconcileBrokerDrain_makes (K := [.read, .status, .drain])
      (by decide) (by decide) (by decide)) (by decide)
  cases drained with
  | some action => trivial
  | none =>
    refine Prog.Makes.bind (Prog.makes_ite ?_ trivial) fun removed => ?_
    · exact appliesNone_of_kind (NodePool.removeDeletedVoter_makes (K := [.read, .status, .voter])
        (by decide) (by decide) (by decide)) (by decide)
    cases removed with
    | some action => trivial
    | none => exact releasePool_appliesNone

/-- What an applied StatefulSet rests on, in the dialogue of the pool controller. -/
def PoolGuard (name : String) (log : Prog.Dialogue NodePool.Resp) (r : NodePool.Req) : Prop :=
  Guard ⟨fun _ => none, 0, 0⟩ (.pool name) (log.map poolEntry) (.pool r)

theorem poolGuard_of_appliesNone {name : String} {r : NodePool.Req} (h : AppliesNone r)
    (log : Prog.Dialogue NodePool.Resp) : PoolGuard name log r := by
  unfold PoolGuard Guard
  cases r with
  | applyStatefulSet sts => exact absurd rfl (h sts)
  | _ => trivial

theorem renderStatefulset_version (parent : NodePool.Parent) (pass : NodePool.PoolPass) :
    (NodePool.renderStatefulset parent pass).labels["app.kubernetes.io/version"]? =
      some parent.kafkaVersion := by
  rw [NodePool.renderStatefulset, NodePool.commonLabels, BTreeMap.getElem?_ofList]
  rfl

theorem poolGuard_of_appliesOnly {name cluster : String} {pass : NodePool.PoolPass}
    {parent : NodePool.Parent} {log : Prog.Dialogue NodePool.Resp} {r : NodePool.Req}
    (h : AppliesOnly pass parent r) (hgate : parent.gate = .cleared)
    (hlog : ⟨NodePool.Req.getKafka cluster, Except.ok (some parent)⟩ ∈ log) :
    PoolGuard name log r := by
  unfold PoolGuard Guard
  cases r with
  | applyStatefulSet sts =>
    refine ⟨cluster, parent, List.mem_map_of_mem (f := poolEntry) hlog, hgate, ?_⟩
    rw [h sts rfl]
    exact renderStatefulset_version parent pass
  | _ => trivial

/-- Every StatefulSet that a pass applies has the version of the parent that the pass has read. -/
theorem reconcileInner_behaves (pass : NodePool.PoolPass) (name : String) :
    Behaves (PoolGuard name) (NodePool.reconcileInner pass) [] := by
  have hnone {p : NodePool.Op NodePool.Action} (h : Prog.Makes AppliesNone p)
      (log : Prog.Dialogue NodePool.Resp) : Behaves (PoolGuard name) p log :=
    behaves_of_makes h (fun log _ hr => poolGuard_of_appliesNone hr log) log
  have hpatch (cond : Condition) (action : NodePool.Action) : Prog.Makes AppliesNone
      (NodePool.patchStatusForPool pass.pool.name cond >>= fun _ => pure action) :=
    (appliesNone_of_kind (NodePool.patchStatusForPool_makes (K := [.status]) (by decide))
      (by decide)).bind fun _ => trivial
  have hfinalizer : Prog.Makes AppliesNone (NodePool.setFinalizer pass.pool true) :=
    Prog.makes_request (fun _ => nofun) fun _ => NodePool.makes_kube
  unfold NodePool.reconcileInner
  dsimp only
  split
  · exact hnone (hpatch _ _) []
  split
  · exact hnone (hpatch _ _) []
  rename_i cluster hcluster
  apply BehavesTo.behaves (Q := fun _ _ => True)
  refine BehavesTo.bind (p := NodePool.getKafka cluster) ⟨trivial, fun read => ?_⟩
  cases read with
  | error e => trivial
  | ok read =>
    apply Behaves.to
    split
    · exact hnone reconcileDeletion_appliesNone _
    cases read with
    | none => exact hnone (hpatch _ _) _
    | some parent =>
      dsimp only
      split
      · exact hnone (hfinalizer.bind fun _ => NodePool.makes_pure) _
      split
      · exact hnone (hpatch _ _) _
      · exact hnone (hpatch _ _) _
      rename_i hgate
      refine (behavesTo_of_makes reconcilePool_applies (I := fun log =>
        ⟨NodePool.Req.getKafka cluster, Except.ok (some parent)⟩ ∈ log) ?_ List.mem_cons_self).behaves
      exact fun log r hr hlog =>
        ⟨poolGuard_of_appliesOnly hr hgate hlog, fun x => List.mem_append_left _ hlog⟩

theorem reconcilePool_behaves (table : MetadataTable) (pass : NodePool.PoolPass) :
    Behaves (Guard table (.pool pass.pool.name)) (reconcilePool pass) [] := by
  refine Behaves.bind ?_ fun _ _ => trivial
  exact behaves_refined (reconcileInner_behaves pass pass.pool.name)

end Pool

end Version
