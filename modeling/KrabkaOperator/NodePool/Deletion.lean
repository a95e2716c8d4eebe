-- SUMMARY: The deletion of a pool whose parent is gone: an undisturbed pass takes the finalizer off, unless the checks of a live pool stop it first.
import KrabkaOperator.NodePool.Run

/-!
# Deletion of a pool without a parent

The spec is checked and the label of the cluster is read before the deletion is
looked at. A pool that fails there keeps its finalizer.
-/

namespace NodePool

open Kube Crd Operator

/-! ## Undisturbed passes -/

/-- A request that is carried out, with its answer. -/
def good (r : Req) (w : World) : Resp r × World := answer r {} w

theorem answer_eq_good (r : Req) (c : Choice) (w : World) (h : c.fault = .none) :
    answer r c w = good r w := by
  obtain ⟨fault, clock⟩ := c
  cases h
  cases r <;> rfl

/-- The stored pool does not have the finalizer of the operator. -/
def World.Released (w : World) (name : String) : Prop :=
  ∀ p, w.pool? name = some p → finalizer ∉ p.finalizers

/-- The Kafka that a pool names is absent, or is deleted. -/
def ParentAbsent (w : World) (pool : KafkaNodePool) : Prop :=
  ∀ cluster, pool.cluster? = some cluster →
    ∀ parent, w.kafkas.find? (·.name = cluster) = some parent → parent.deleting = true

/-- No pod of a pool is left. -/
def NoPods (w : World) (pool : KafkaNodePool) : Prop :=
  ∀ cluster, pool.cluster? = some cluster → ∀ p ∈ w.pods,
    p.labels["app.kubernetes.io/instance"]? = some cluster → poolLabelsMatch p.labels pool.name = false

variable {pass : PoolPass} {pool : KafkaNodePool} {cluster : String} {w : World}

/-- A stage that succeeds and leaves the pools. -/
def KeepsPools (p : Op Unit) : Prop :=
  ∀ w, ∃ w', p.complete good w = (.ok (), w') ∧ w'.pools = w.pools

theorem KeepsPools.when {p : Op Unit} (h : KeepsPools p) (b : Bool) : KeepsPools (Prog.when b p) := by
  intro w
  cases b with
  | false => exact ⟨w, rfl, rfl⟩
  | true => exact h w

theorem scaleToZero_keepsPools (name : String) : KeepsPools (scaleToZero name) := fun w =>
  ⟨w.scaleToZero name, rfl, rfl⟩

theorem deleteDeletionRebalance_keepsPools (cluster name : String) :
    KeepsPools (deleteDeletionRebalance cluster name) := by
  intro w
  unfold deleteDeletionRebalance
  have hget : (getRebalance (brokerDrainName cluster name 0)).complete good w =
      (.ok (w.rebalance? (brokerDrainName cluster name 0)), w) := rfl
  rw [Prog.complete_bind_of_ok hget]
  cases w.rebalance? (brokerDrainName cluster name 0) with
  | none => exact ⟨w, rfl, rfl⟩
  | some r => exact ⟨_, rfl, rfl⟩

/-- The end of a deletion whose pods are gone. -/
theorem complete_releasePool (sts : Option StatefulSet) (roles : RoleMask) (w : World) :
    ∃ w', (releasePool cluster pool sts [] roles).complete good w = (.ok .awaitChange, w') ∧
      w'.pools = (w.updatePool pool.name fun p =>
        { p with finalizers := pool.finalizers.filter (· ≠ finalizer) }).pools := by
  obtain ⟨w₁, hscale, hpools₁⟩ :=
    (scaleToZero_keepsPools (statefulSetName cluster pool.name)).when sts.isSome w
  obtain ⟨w₂, hdelete, hpools₂⟩ :=
    (deleteDeletionRebalance_keepsPools cluster pool.name).when roles.broker w₁
  refine ⟨w₂.updatePool pool.name fun p =>
    { p with finalizers := pool.finalizers.filter (· ≠ finalizer) }, ?_, ?_⟩
  · unfold releasePool dropFinalizer
    rw [Prog.complete_bind_of_ok hscale, if_neg (by simp), Prog.complete_bind_of_ok hdelete]
    rfl
  · simp only [World.updatePool, hpools₂, hpools₁]

/-- A deletion without a parent and without pods completes. -/
theorem complete_reconcileDeletion {parent : Option Parent} (hfin : finalizer ∈ pool.finalizers)
    (hcluster : pool.cluster? = some cluster) (hgone : ∀ p, parent = some p → p.deleting = true)
    (hpods : NoPods w pool) :
    ∃ w', (reconcileDeletion pool parent cluster).complete good w = (.ok .awaitChange, w') ∧
      w'.pools = (w.updatePool pool.name fun p =>
        { p with finalizers := pool.finalizers.filter (· ≠ finalizer) }).pools := by
  have hnone : (w.pods.filter fun p => p.labels["app.kubernetes.io/instance"]? = some cluster).filter
      (fun p => poolLabelsMatch p.labels pool.name) = [] := by
    apply List.filter_eq_nil_iff.mpr
    intro p hp
    obtain ⟨hmem, hinstance⟩ := List.mem_filter.mp hp
    simp [hpods cluster hcluster p hmem (by simpa using hinstance)]
  have hdeleting : (parent.map (·.deleting)).getD true = true := by
    cases parent with
    | none => rfl
    | some p => exact hgone p rfl
  have hsts : (getStatefulSet (statefulSetName cluster pool.name)).complete good w =
      (.ok (w.statefulSet? (statefulSetName cluster pool.name)), w) := rfl
  have hlist : (listPods cluster).complete good w =
      (.ok (w.pods.filter fun p => p.labels["app.kubernetes.io/instance"]? = some cluster), w) := rfl
  unfold reconcileDeletion
  rw [if_neg (not_not.mpr hfin), Prog.complete_bind_of_ok hsts, Prog.complete_bind_of_ok hlist]
  dsimp only
  rw [hnone, if_pos hdeleting]
  exact complete_releasePool _ _ w

/-- The checks of a pool that lives. -/
def PassesPrologue (pass : PoolPass) : Prop :=
  validate pass.storageCheck pass.pool = .ok () ∧ pass.pool.cluster? ≠ none

/-- A pool that the prologue stops gets a condition only. -/
theorem complete_of_not_prologue (h : ¬ PassesPrologue pass) :
    ∃ cond, (reconcileInner pass).complete good w = (.ok .awaitChange,
      w.updatePool pass.pool.name fun p => { p with
        status := some (mergeStatus p.status ⟨none, none, [cond]⟩) }) := by
  unfold reconcileInner
  dsimp only
  cases hvalid : validate pass.storageCheck pass.pool with
  | error e => exact ⟨conditionForValidationError e, rfl⟩
  | ok u =>
    cases hcluster : pass.pool.cluster? with
    | none => exact ⟨_, rfl⟩
    | some cluster => exact absurd ⟨hvalid, by rw [hcluster]; nofun⟩ h

/-- A deletion that the prologue lets through. -/
theorem complete_of_prologue (h : PassesPrologue pass) (hdel : pass.pool.deleting = true)
    (hfin : finalizer ∈ pass.pool.finalizers) (hgone : ParentAbsent w pass.pool)
    (hpods : NoPods w pass.pool) :
    ∃ w', (reconcileInner pass).complete good w = (.ok .awaitChange, w') ∧
      w'.pools = (w.updatePool pass.pool.name fun p =>
        { p with finalizers := pass.pool.finalizers.filter (· ≠ finalizer) }).pools := by
  obtain ⟨cluster, hcluster⟩ := Option.ne_none_iff_exists'.mp h.2
  have hget : (getKafka cluster).complete good w =
      (.ok (w.kafkas.find? (·.name = cluster)), w) := rfl
  unfold reconcileInner
  dsimp only
  rw [h.1, hcluster]
  dsimp only
  rw [Prog.complete_bind_of_ok hget, if_pos hdel]
  exact complete_reconcileDeletion hfin hcluster (hgone cluster hcluster) hpods

theorem pool?_updatePool_self {f : KafkaNodePool → KafkaNodePool} {name : String} {p : KafkaNodePool}
    (hf : ∀ p, (f p).name = p.name) (h : w.pool? name = some p) :
    (w.updatePool name f).pool? name = some (f p) := by
  have hname : p.name = name := by simpa using List.find?_some h
  rw [pool?_updatePool hf, h, Option.map_some, if_pos hname]

theorem pool?_of_pools {w w' : World} (h : w'.pools = w.pools) (name : String) :
    w'.pool? name = w.pool? name := by
  unfold World.pool?
  rw [h]

/-- Without a parent and without pods, an undisturbed pass that is long enough takes the
    finalizer off a deleted pool exactly when the pool passes the checks of a pool that lives. -/
theorem deletion_finishes_iff (hstored : w.pool? pass.pool.name = some pass.pool)
    (hdel : pass.pool.deleting = true) (hfin : finalizer ∈ pass.pool.finalizers)
    (hgone : ParentAbsent w pass.pool) (hpods : NoPods w pass.pool) :
    ∃ n, ∀ choices : List Choice, (∀ c ∈ choices, c.fault = .none) → n ≤ choices.length →
      ((reconcileInner pass).run answer choices w).1 = .done .awaitChange ∧
      (((reconcileInner pass).run answer choices w).2.Released pass.pool.name ↔
        validate pass.storageCheck pass.pool = .ok () ∧ pass.pool.cluster? ≠ none) := by
  obtain ⟨n, hn⟩ := Prog.exists_run_eq_complete answer_eq_good (reconcileInner pass) w
  refine ⟨n, fun choices hchoices hlen => ?_⟩
  rw [hn choices hchoices hlen]
  by_cases h : PassesPrologue pass
  · obtain ⟨w', hend, hpools⟩ := complete_of_prologue h hdel hfin hgone hpods
    rw [hend]
    refine ⟨rfl, fun _ => h, fun _ p hp => ?_⟩
    have hfound := (pool?_of_pools hpools pass.pool.name).trans
      (pool?_updatePool_self (fun _ => rfl) hstored)
    cases hfound.symm.trans hp
    simp
  · obtain ⟨cond, hend⟩ := complete_of_not_prologue (w := w) h
    rw [hend]
    refine ⟨rfl, fun hreleased => ?_, fun h' => absurd h' h⟩
    have hkept := hreleased _ (pool?_updatePool_self
      (f := fun p => { p with status := some (mergeStatus p.status ⟨none, none, [cond]⟩) })
      (fun _ => rfl) hstored)
    exact absurd hfin hkept

theorem not_released {name : String}
    (h : (w.pool? name).any (fun p => finalizer ∈ p.finalizers) = true) : ¬ w.Released name := by
  obtain ⟨p, hp, hfin⟩ := Option.any_eq_true _ _ |>.mp h
  intro hreleased
  exact hreleased p hp (by simpa using hfin)

namespace Sample

/-- A pool that is deleted. -/
def deleted (labels : BTreeMap String) (start : Int) : KafkaNodePool where
  name := "pool"
  labels := labels
  spec := ⟨1, start, [.broker]⟩
  status := none
  finalizers := [finalizer]
  deleting := true

def demoLabel : BTreeMap String := BTreeMap.ofList [("krabka.io/cluster", "demo")]

/-- A pass over the only object that is left. -/
def alone (pool : KafkaNodePool) : Prog.Outcome ReconcileError Action × World :=
  (reconcileInner { pool := pool }).run answer (List.replicate 9 {}) { pools := [pool] }

end Sample

theorem deletion_finishes_of_labelled :
    ∃ n, ∀ choices : List Choice, (∀ c ∈ choices, c.fault = .none) → n ≤ choices.length →
      ((reconcileInner { pool := Sample.deleted Sample.demoLabel 0 }).run answer choices
        { pools := [Sample.deleted Sample.demoLabel 0] }).2.Released "pool" := by
  obtain ⟨n, hn⟩ := @deletion_finishes_iff { pool := Sample.deleted Sample.demoLabel 0 }
    { pools := [Sample.deleted Sample.demoLabel 0] } rfl rfl (List.mem_singleton.mpr rfl)
    (fun _ _ _ h => nomatch h) (fun _ _ _ h => nomatch h)
  exact ⟨n, fun choices hchoices hlen =>
    (hn choices hchoices hlen).2.mpr ⟨by decide, by decide⟩⟩

/-- A pool without the label of a cluster, and one whose ids are out of range, keep the
    finalizer. -/
theorem deletion_stops_in_prologue :
    ¬ (Sample.alone (Sample.deleted ∅ 0)).2.Released "pool" ∧
      ¬ (Sample.alone (Sample.deleted Sample.demoLabel 1000000)).2.Released "pool" := by
  constructor
  · exact not_released (by decide)
  · exact not_released (by decide)

end NodePool
