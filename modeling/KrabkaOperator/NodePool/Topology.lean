-- SUMMARY: The topology of a cluster: when the checks of all pools pass, in terms of the node ids that the pools occupy.
import KrabkaOperator.Base.Checks
import KrabkaOperator.Base.Intervals
import KrabkaOperator.NodePool.Identity

/-!
# Topology of a cluster

A pool occupies the ids of its spec and those of the nodes that are observed. The
checks compare neighbours in the order of the first ids only.
-/

namespace NodePool

open Kube Crd

variable {check : KafkaNodePool → Except (String × String) Unit} {pools : List KafkaNodePool}
  {statefulsets : List StatefulSet} {pods : List Pod} {pool : KafkaNodePool}

/-! ## Node ids that a pool occupies -/

/-- The ordinals in the names of the pods of a pool. -/
def podOrdinals (pods : List Pod) (pool : String) : List Int :=
  ((pods.filter fun pod => poolLabelsMatch pod.labels pool).filterMap
    fun pod => afterLastDash pod.name).filterMap Decimal.parseI32

/-- The ordinals that leave room for one more `i32`. -/
def countedOrdinals (pods : List Pod) (pool : String) : List Int :=
  (podOrdinals pods pool).filter (· < maxI32)

/-- The number of nodes that a pool occupies, with the given ordinals of its pods. -/
def nodeCount (ordinals : String → List Int) (statefulsets : List StatefulSet)
    (pool : KafkaNodePool) : Int :=
  max (max pool.spec.replicas (observedPoolReplicas pool.name statefulsets))
    ((((ordinals pool.name).map (· + 1)).max?).getD 0)

/-- The last id that a pool occupies. -/
def lastNode (ordinals : String → List Int) (statefulsets : List StatefulSet)
    (pool : KafkaNodePool) : Int :=
  pool.spec.nodeIdStart + nodeCount ordinals statefulsets pool - 1

def nodeIds (ordinals : String → List Int) (statefulsets : List StatefulSet) :
    KafkaNodePool → Set Int :=
  Intervals.points (·.spec.nodeIdStart) (lastNode ordinals statefulsets)

/-- What a cluster may look like. -/
structure ValidTopology (check : KafkaNodePool → Except (String × String) Unit)
    (ordinals : String → List Int) (pools : List KafkaNodePool) (statefulsets : List StatefulSet)
    (pods : List Pod) : Prop where
  valid : ∀ pool ∈ pools, validate check pool = .ok ()
  start : ∀ pool ∈ pools, ∀ start ∈ (observedPoolIdentity pool.name statefulsets pods).1,
    start = pool.spec.nodeIdStart
  roles : ∀ pool ∈ pools, ∀ roles ∈ (observedPoolIdentity pool.name statefulsets pods).2,
    roles = roleMask pool.spec.roles
  controller : ∃ pool ∈ pools, .controller ∈ pool.spec.roles
  inside : ∀ pool ∈ pools, nodeIds ordinals statefulsets pool ⊆ Set.Icc 0 maxNodeId
  apart : pools.Pairwise fun p q =>
    Disjoint (nodeIds ordinals statefulsets p) (nodeIds ordinals statefulsets q)

/-- The order of the pools does not matter. -/
theorem ValidTopology.perm {ordinals : String → List Int} {pools' : List KafkaNodePool}
    (h : ValidTopology check ordinals pools statefulsets pods) (hperm : pools.Perm pools') :
    ValidTopology check ordinals pools' statefulsets pods where
  valid pool hpool := h.valid pool (hperm.mem_iff.mpr hpool)
  start pool hpool := h.start pool (hperm.mem_iff.mpr hpool)
  roles pool hpool := h.roles pool (hperm.mem_iff.mpr hpool)
  controller := by
    obtain ⟨pool, hpool, hroles⟩ := h.controller
    exact ⟨pool, hperm.mem_iff.mp hpool, hroles⟩
  inside pool hpool := h.inside pool (hperm.mem_iff.mpr hpool)
  apart := hperm.pairwise h.apart fun hdisjoint => hdisjoint.symm

/-! ## Integers of 32 bits -/

theorem isI32_max {a b : Int} (ha : IsI32 a) (hb : IsI32 b) : IsI32 (max a b) := by
  unfold IsI32 at *
  omega

theorem isI32_zero : IsI32 0 := by
  unfold IsI32 maxI32
  omega

theorem isI32_getD {o : Option Int} (h : ∀ i ∈ o, IsI32 i) : IsI32 (o.getD 0) := by
  cases o with
  | none => exact isI32_zero
  | some i => exact h i rfl

theorem isI32_of_parseI32 {s : String} {i : Int} (h : Decimal.parseI32 s = some i) : IsI32 i := by
  unfold Decimal.parseI32 Decimal.parseSigned at h
  have hbound := (Option.filter_eq_some_iff.mp h).2
  rw [decide_eq_true_eq] at hbound
  unfold IsI32 maxI32
  omega

/-! ## The ranges -/

theorem filterMap_checkedAdd {l : List Int} (h : ∀ i ∈ l, IsI32 i) :
    l.filterMap (checkedAdd · 1) = (l.filter (· < maxI32)).map (· + 1) := by
  induction l with
  | nil => rfl
  | cons i l ih =>
    obtain ⟨hi, hl⟩ := List.forall_mem_cons.mp h
    by_cases hlt : i < maxI32
    · have hsum : checkedAdd i 1 = some (i + 1) := by
        rw [checkedAdd_eq_some]
        unfold IsI32 at *
        omega
      rw [List.filterMap_cons, hsum, List.filter_cons_of_pos (by simpa using hlt), List.map_cons,
        ← ih hl]
    · have hsum : checkedAdd i 1 = none := by
        rw [Option.eq_none_iff_forall_ne_some]
        intro c hc
        obtain ⟨rfl, hbound⟩ := checkedAdd_eq_some.mp hc
        unfold IsI32 at hbound
        omega
      rw [List.filterMap_cons, hsum, List.filter_cons_of_neg (by simpa using hlt), ← ih hl]

theorem isI32_of_mem_podOrdinals {name : String} {i : Int} (h : i ∈ podOrdinals pods name) :
    IsI32 i := by
  obtain ⟨s, -, hs⟩ := List.mem_filterMap.mp h
  exact isI32_of_parseI32 hs

/-- The pods count with the ordinals that leave room. -/
theorem observedPoolPodsReplicas_eq (name : String) (pods : List Pod) :
    observedPoolPodsReplicas name pods = (((countedOrdinals pods name).map (· + 1)).max?).getD 0 := by
  unfold observedPoolPodsReplicas ordinalBound countedOrdinals
  rw [← filterMap_checkedAdd fun i hi => isI32_of_mem_podOrdinals hi]
  rfl

/-- The last id of a range that starts at an id and is not empty. -/
theorem nodeIdEndForReplicas_eq_ok {replicas last : Int} (hstart : 0 ≤ pool.spec.nodeIdStart)
    (hreplicas : 1 ≤ replicas) : nodeIdEndForReplicas pool replicas = .ok last ↔
      pool.spec.nodeIdStart + replicas - 1 ≤ maxNodeId ∧
        last = pool.spec.nodeIdStart + replicas - 1 := by
  unfold nodeIdEndForReplicas
  cases hend : checkedAdd replicas (-1) >>= checkedAdd pool.spec.nodeIdStart with
  | none =>
    constructor
    · nofun
    · rintro ⟨hle, -⟩
      unfold maxNodeId at hle
      have hordinal : checkedAdd replicas (-1) = some (replicas - 1) := by
        rw [checkedAdd_eq_some]
        unfold IsI32 maxI32
        omega
      have hlast : checkedAdd pool.spec.nodeIdStart (replicas - 1) =
          some (pool.spec.nodeIdStart + replicas - 1) := by
        rw [checkedAdd_eq_some]
        unfold IsI32 maxI32
        omega
      rw [hordinal] at hend
      cases hlast.symm.trans hend
  | some last' =>
    obtain ⟨ordinal, hordinal, hlast⟩ := Option.bind_eq_some_iff.mp hend
    obtain ⟨rfl, -⟩ := checkedAdd_eq_some.mp hordinal
    obtain ⟨rfl, -⟩ := checkedAdd_eq_some.mp hlast
    dsimp only
    split <;> grind

/-- What the checks of one pool ask. -/
structure PoolOk (check : KafkaNodePool → Except (String × String) Unit)
    (statefulsets : List StatefulSet) (pods : List Pod) (pool : KafkaNodePool) : Prop where
  valid : validate check pool = .ok ()
  start : ∀ start ∈ (observedPoolIdentity pool.name statefulsets pods).1,
    start = pool.spec.nodeIdStart
  roles : ∀ roles ∈ (observedPoolIdentity pool.name statefulsets pods).2,
    roles = roleMask pool.spec.roles
  last : lastNode (countedOrdinals pods) statefulsets pool ≤ maxNodeId

theorem one_le_nodeCount (statefulsets : List StatefulSet) (ordinals : String → List Int)
    (h : validate check pool = .ok ()) :
    1 ≤ nodeCount ordinals statefulsets pool :=
  (validate_nodes h).1.trans ((le_max_left _ _).trans (le_max_left _ _))

/-- The range that a pool is found to occupy. -/
def poolRange (statefulsets : List StatefulSet) (pods : List Pod) (pool : KafkaNodePool) :
    NodeRange :=
  ⟨pool.spec.nodeIdStart, lastNode (countedOrdinals pods) statefulsets pool, pool.name⟩

theorem nodeIdEndForReplicas_nodeCount (h : validate check pool = .ok ()) {last : Int} :
    nodeIdEndForReplicas pool (nodeCount (countedOrdinals pods) statefulsets pool) = .ok last ↔
      lastNode (countedOrdinals pods) statefulsets pool ≤ maxNodeId ∧
        last = lastNode (countedOrdinals pods) statefulsets pool :=
  nodeIdEndForReplicas_eq_ok (validate_nodes h).2.1 (one_le_nodeCount _ _ h)

theorem occupiedRange_eq_ok (pool : KafkaNodePool) (range : NodeRange) :
    occupiedRange check statefulsets pods pool = .ok range ↔
      PoolOk check statefulsets pods pool ∧ range = poolRange statefulsets pods pool := by
  have hchecks : occupiedRange check statefulsets pods pool = .ok range ↔
      validate check pool = .ok () ∧
      (∀ start ∈ (observedPoolIdentity pool.name statefulsets pods).1,
        start = pool.spec.nodeIdStart) ∧
      (∀ roles ∈ (observedPoolIdentity pool.name statefulsets pods).2,
        roles = roleMask pool.spec.roles) ∧
      ∃ last, nodeIdEndForReplicas pool (nodeCount (countedOrdinals pods) statefulsets pool) =
        .ok last ∧ range = ⟨pool.spec.nodeIdStart, last, pool.name⟩ := by
    unfold occupiedRange nodeCount
    rw [Checks.bind_eq_ok, observedPoolPodsReplicas_eq]
    have hpure (last : Int) : (pure ⟨pool.spec.nodeIdStart, last, pool.name⟩ :
        Except PoolValidationError NodeRange) = .ok range ↔
        range = ⟨pool.spec.nodeIdStart, last, pool.name⟩ := by
      rw [eq_comm (a := range)]
      exact Except.ok.injEq ..  |>.to_iff
    rcases observedPoolIdentity pool.name statefulsets pods with ⟨_ | start, _ | roles⟩ <;>
      simp only [Checks.guard_eq_ok, Checks.bind_eq_ok, hpure, Unique.exists_iff] <;> simp
  rw [hchecks]
  constructor
  · rintro ⟨hvalid, hstart, hroles, last, hlast, rfl⟩
    obtain ⟨hle, rfl⟩ := (nodeIdEndForReplicas_nodeCount hvalid).mp hlast
    exact ⟨⟨hvalid, hstart, hroles, hle⟩, rfl⟩
  · rintro ⟨hok, rfl⟩
    exact ⟨hok.valid, hok.start, hok.roles, _,
      (nodeIdEndForReplicas_nodeCount hok.valid).mpr ⟨hok.last, rfl⟩, rfl⟩

theorem overlap?_eq_none {l : List NodeRange} :
    overlap? l = none ↔ l.IsChain fun a b => a.last < b.start := by
  induction l with
  | nil => simp [overlap?]
  | cons a l ih =>
    cases l with
    | nil => simp [overlap?]
    | cons b l =>
      rw [overlap?, List.isChain_cons_cons, ← ih]
      by_cases h : b.start ≤ a.last
      · simp [h]
      · simp [h, not_le.mp h]

instance : Std.Total rangeLe where
  total a b := by
    rcases lt_trichotomy a.start b.start with h | h | h
    · exact .inl (.inl h)
    · have hswap : compareBytes b.pool a.pool = (compareBytes a.pool b.pool).swap :=
        Std.OrientedCmp.eq_swap
      cases hcmp : compareBytes a.pool b.pool with
      | lt => exact .inl (.inr ⟨h, by rw [hcmp]; rfl⟩)
      | eq => exact .inl (.inr ⟨h, by rw [hcmp]; rfl⟩)
      | gt => exact .inr (.inr ⟨h.symm, by rw [hswap, hcmp]; rfl⟩)
    · exact .inr (.inl h)

instance : IsTrans NodeRange rangeLe where
  trans a b c hab hbc := by
    rcases hab with hab | ⟨hab, hcmp⟩
    · rcases hbc with hbc | ⟨hbc, -⟩
      · exact .inl (hab.trans hbc)
      · exact .inl (hbc ▸ hab)
    · rcases hbc with hbc | ⟨hbc, hcmp'⟩
      · exact .inl (hab ▸ hbc)
      · exact .inr ⟨hab.trans hbc, Std.TransCmp.isLE_trans hcmp hcmp'⟩

/-! ## All pools -/

theorem points_poolRange (pool : KafkaNodePool) :
    Intervals.points NodeRange.start NodeRange.last (poolRange statefulsets pods pool) =
      nodeIds (countedOrdinals pods) statefulsets pool := rfl

/-- After sorting, no neighbours overlap when no two pools share an id. -/
theorem overlap?_sorted (h : ∀ pool ∈ pools, PoolOk check statefulsets pods pool) :
    overlap? ((pools.map (poolRange statefulsets pods)).insertionSort rangeLe) = none ↔
      pools.Pairwise fun p q => Disjoint (nodeIds (countedOrdinals pods) statefulsets p)
        (nodeIds (countedOrdinals pods) statefulsets q) := by
  have hperm := List.perm_insertionSort rangeLe (pools.map (poolRange statefulsets pods))
  have hne : ∀ r ∈ (pools.map (poolRange statefulsets pods)).insertionSort rangeLe,
      r.start ≤ r.last := by
    intro r hr
    obtain ⟨pool, hpool, rfl⟩ := List.mem_map.mp (hperm.mem_iff.mp hr)
    have hcount := one_le_nodeCount statefulsets (countedOrdinals pods) (h pool hpool).valid
    change pool.spec.nodeIdStart ≤ lastNode (countedOrdinals pods) statefulsets pool
    unfold lastNode
    omega
  have hsorted : ((pools.map (poolRange statefulsets pods)).insertionSort rangeLe).Pairwise
      fun a b => a.start ≤ b.start := by
    refine (List.pairwise_insertionSort rangeLe _).imp fun hle => ?_
    rcases hle with hlt | ⟨heq, -⟩
    · exact hlt.le
    · exact heq.le
  rw [overlap?_eq_none, ← Intervals.pairwise_disjoint_iff_isChain hne hsorted,
    hperm.pairwise_iff fun hdisjoint => hdisjoint.symm, List.pairwise_map]
  rfl

/-- The ids of a pool whose spec is valid are node ids when the last one is. -/
theorem nodeIds_subset_iff {ordinals : String → List Int} (h : validate check pool = .ok ()) :
    nodeIds ordinals statefulsets pool ⊆ Set.Icc 0 maxNodeId ↔
      lastNode ordinals statefulsets pool ≤ maxNodeId := by
  have hcount := one_le_nodeCount statefulsets ordinals h
  have hstart := (validate_nodes h).2.1
  have hne : pool.spec.nodeIdStart ≤ lastNode ordinals statefulsets pool := by
    unfold lastNode
    omega
  exact (Set.Icc_subset_Icc_iff hne).trans ⟨And.right, fun hlast => ⟨hstart, hlast⟩⟩

/-- The checks pass when the topology is valid. -/
theorem validateTopology_eq_ok (hpools : pools ≠ []) :
    validateTopology check pools statefulsets pods = .ok () ↔
      ValidTopology check (countedOrdinals pods) pools statefulsets pods := by
  have hcontrollers : ¬ (!pools.any fun pool => .controller ∈ pool.spec.roles) = true ↔
      ∃ pool ∈ pools, .controller ∈ pool.spec.roles := by simp
  unfold validateTopology
  rw [if_neg hpools, Checks.bind_eq_ok]
  constructor
  · rintro ⟨ranges, hranges, h⟩
    obtain ⟨hok, rfl⟩ := (Checks.mapM_eq_ok occupiedRange_eq_ok).mp hranges
    obtain ⟨hcontroller, h⟩ := Checks.guard_eq_ok.mp h
    have hnone : overlap? ((pools.map (poolRange statefulsets pods)).insertionSort rangeLe) =
        none := by
      split at h
      · cases h
      · assumption
    exact {
      valid pool hpool := (hok pool hpool).valid
      start pool hpool := (hok pool hpool).start
      roles pool hpool := (hok pool hpool).roles
      controller := hcontrollers.mp hcontroller
      inside pool hpool := (nodeIds_subset_iff (hok pool hpool).valid).mpr (hok pool hpool).last
      apart := (overlap?_sorted hok).mp hnone }
  · intro h
    have hok : ∀ pool ∈ pools, PoolOk check statefulsets pods pool := fun pool hpool =>
      ⟨h.valid pool hpool, h.start pool hpool, h.roles pool hpool,
        (nodeIds_subset_iff (h.valid pool hpool)).mp (h.inside pool hpool)⟩
    refine ⟨pools.map (poolRange statefulsets pods),
      (Checks.mapM_eq_ok occupiedRange_eq_ok).mpr ⟨hok, rfl⟩, ?_⟩
    refine Checks.guard_eq_ok.mpr ⟨hcontrollers.mpr h.controller, ?_⟩
    rw [(overlap?_sorted hok).mpr h.apart]
    rfl

/-! ## The numbers of the checks -/

/-- The fields of a StatefulSet that count replicas. -/
def replicaFields (sts : StatefulSet) : List Int :=
  (sts.spec >>= (·.replicas)).toList ++
    (sts.status.map fun status => status.replicas :: [status.availableReplicas,
      status.currentReplicas, status.readyReplicas, status.updatedReplicas].flatMap
        Option.toList).getD []

/-- What the last id is computed from and through, for a number of replicas. -/
def lastNodeNumbers (pool : KafkaNodePool) (replicas : Int) : List Int :=
  replicas :: (checkedAdd replicas (-1)).toList ++
    (checkedAdd replicas (-1) >>= checkedAdd pool.spec.nodeIdStart).toList

/-- The numbers that the checks of a pool compute. -/
def computedNumbers (statefulsets : List StatefulSet) (pods : List Pod) (pool : KafkaNodePool) :
    List Int :=
  lastNodeNumbers pool pool.spec.replicas ++
    [observedPoolReplicas pool.name statefulsets, observedPoolPodsReplicas pool.name pods] ++
    lastNodeNumbers pool (max (max pool.spec.replicas
      (observedPoolReplicas pool.name statefulsets)) (observedPoolPodsReplicas pool.name pods))

theorem isI32_max? {l : List Int} (h : ∀ i ∈ l, IsI32 i) : IsI32 (l.max?.getD 0) :=
  isI32_getD fun i hi => h i (List.max?_mem hi)

theorem isI32_foldl_max {l : List Int} (h : ∀ i ∈ l, IsI32 i) {a : Int} (ha : IsI32 a) :
    IsI32 (l.foldl max a) := by
  induction l generalizing a with
  | nil => exact ha
  | cons i l ih =>
    obtain ⟨hi, hl⟩ := List.forall_mem_cons.mp h
    exact ih hl (isI32_max ha hi)

theorem isI32_observedStatefulsetReplicas {sts : StatefulSet}
    (h : ∀ i ∈ replicaFields sts, IsI32 i) : IsI32 (observedStatefulsetReplicas sts) := by
  have hspec : IsI32 ((sts.spec >>= (·.replicas)).getD 0) :=
    isI32_getD fun i hi => h i (List.mem_append_left _ (Option.mem_toList.mpr hi))
  unfold observedStatefulsetReplicas
  refine isI32_max ?_ isI32_zero
  cases hstatus : sts.status with
  | none => exact hspec
  | some status =>
    have hfield {o : Option Int} (ho : o ∈ [status.availableReplicas, status.currentReplicas,
        status.readyReplicas, status.updatedReplicas]) : IsI32 (o.getD 0) := by
      refine isI32_getD fun i hi => h i (List.mem_append_right _ ?_)
      rw [hstatus]
      exact List.mem_cons_of_mem _ (List.mem_flatMap.mpr ⟨o, ho, Option.mem_toList.mpr hi⟩)
    have hreplicas : IsI32 status.replicas := by
      refine h _ (List.mem_append_right _ ?_)
      rw [hstatus]
      exact List.mem_cons_self
    apply isI32_foldl_max _ hspec
    simp only [List.forall_mem_cons]
    exact ⟨hreplicas, hfield (by simp), hfield (by simp), hfield (by simp), hfield (by simp), nofun⟩

theorem isI32_lastNodeNumbers {replicas i : Int} (h : IsI32 replicas)
    (hi : i ∈ lastNodeNumbers pool replicas) : IsI32 i := by
  simp only [lastNodeNumbers, List.cons_append, List.mem_cons, List.mem_append,
    Option.mem_toList] at hi
  rcases hi with rfl | hi | hi
  · exact h
  · exact (checkedAdd_eq_some.mp hi).2
  · obtain ⟨ordinal, -, hlast⟩ := Option.bind_eq_some_iff.mp hi
    exact (checkedAdd_eq_some.mp hlast).2

theorem isI32_computedNumbers (hpool : IsI32 pool.spec.replicas)
    (hsts : ∀ sts ∈ statefulsets, ∀ i ∈ replicaFields sts, IsI32 i) {i : Int}
    (hi : i ∈ computedNumbers statefulsets pods pool) : IsI32 i := by
  have hfromSts : IsI32 (observedPoolReplicas pool.name statefulsets) := by
    refine isI32_max? fun i hi => ?_
    obtain ⟨sts, hmem, rfl⟩ := List.mem_map.mp hi
    exact isI32_observedStatefulsetReplicas (hsts sts (List.mem_of_mem_filter hmem))
  have hfromPods : IsI32 (observedPoolPodsReplicas pool.name pods) := by
    refine isI32_max? fun i hi => ?_
    obtain ⟨ordinal, -, hsum⟩ := List.mem_filterMap.mp hi
    exact (checkedAdd_eq_some.mp hsum).2
  simp only [computedNumbers, List.mem_append, List.mem_cons, List.not_mem_nil, or_false] at hi
  rcases hi with (hi | rfl | rfl) | hi
  · exact isI32_lastNodeNumbers hpool hi
  · exact hfromSts
  · exact hfromPods
  · exact isI32_lastNodeNumbers (isI32_max (isI32_max hpool hfromSts) hfromPods) hi

/-- The checks of a cluster pass exactly when its topology is valid, without an overflow, and
    in any order of the pools. A pod ordinal counts when one more is an `i32`. -/
theorem validateTopology_iff (hpools : pools ≠ []) :
    (validateTopology check pools statefulsets pods = .ok () ↔
      ValidTopology check (countedOrdinals pods) pools statefulsets pods) ∧
    ((∀ pool ∈ pools, IsI32 pool.spec.replicas) →
      (∀ sts ∈ statefulsets, ∀ i ∈ replicaFields sts, IsI32 i) →
      ∀ pool ∈ pools, ∀ i ∈ computedNumbers statefulsets pods pool, IsI32 i) ∧
    ∀ pools', pools.Perm pools' →
      (validateTopology check pools' statefulsets pods = .ok () ↔
        validateTopology check pools statefulsets pods = .ok ()) := by
  refine ⟨validateTopology_eq_ok hpools, fun hpool hsts pool hmem i hi =>
    isI32_computedNumbers (hpool pool hmem) hsts hi, fun pools' hperm => ?_⟩
  have hpools' : pools' ≠ [] := by
    rintro rfl
    exact hpools hperm.eq_nil
  rw [validateTopology_eq_ok hpools, validateTopology_eq_ok hpools']
  exact ⟨fun h => h.perm hperm.symm, fun h => h.perm hperm⟩

namespace Sample

/-- A pool with the given nodes. -/
def nodes (name : String) (start replicas : Int) (roles : List NodeRole) : KafkaNodePool where
  name := name
  labels := ∅
  spec := ⟨replicas, start, roles⟩
  status := none

def podOf (pool name : String) : Pod where
  name := name
  labels := BTreeMap.ofList [("krabka.io/pool", pool)]
  annotations := ∅
  spec := none

end Sample

theorem validateTopology_iff_two_pools :
    ValidTopology (fun _ => .ok ()) (countedOrdinals [Sample.podOf "a" "demo-a-2"])
      [Sample.nodes "b" 3 2 [.broker], Sample.nodes "a" 0 1 [.controller]] []
      [Sample.podOf "a" "demo-a-2"] := by
  have hiff := @validateTopology_iff (fun _ => .ok ())
    [Sample.nodes "b" 3 2 [.broker], Sample.nodes "a" 0 1 [.controller]] []
    [Sample.podOf "a" "demo-a-2"] (List.cons_ne_nil _ _)
  exact hiff.1.mp (by decide)

/-- A pod with the largest ordinal is not counted. -/
theorem validateTopology_skips_largest_ordinal :
    ¬ (validateTopology (fun _ => .ok ()) [Sample.nodes "a" 0 1 [.controller]] []
        [Sample.podOf "a" "demo-a-2147483647"] = .ok () ↔
      ValidTopology (fun _ => .ok ()) (podOrdinals [Sample.podOf "a" "demo-a-2147483647"])
        [Sample.nodes "a" 0 1 [.controller]] [] [Sample.podOf "a" "demo-a-2147483647"]) := by
  intro h
  have hvalid := h.mp (by decide)
  have hlast := (nodeIds_subset_iff (hvalid.valid _ (List.mem_singleton.mpr rfl))).mp
    (hvalid.inside _ (List.mem_singleton.mpr rfl))
  exact absurd hlast (by decide)

end NodePool
