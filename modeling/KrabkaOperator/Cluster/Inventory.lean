-- SUMMARY: The nodes that a cluster lists against the topology it accepts: when no running node is left out and no two share an id.
import KrabkaOperator.Base.Separated
import KrabkaOperator.Cluster.Reconcile
import KrabkaOperator.NodePool.Topology

/-!
# Node inventory

The checks of the topology size a pool by its StatefulSet and its pods. The list of nodes
sizes it by the replicas of its spec and the ones that its status reports, which may be
behind or ahead.
-/

namespace Cluster

open Kube Crd NodePool

variable {check : KafkaNodePool → Except (String × String) Unit} {cluster ns : String}
  {pools : List KafkaNodePool} {statefulsets : List StatefulSet} {pods : List Pod}
  {pool : KafkaNodePool}

/-! ## The ids that are listed -/

/-- The number of nodes that are listed for a pool. -/
def listedReplicas (pool : KafkaNodePool) : Int :=
  max ((pool.status >>= (·.replicas)).getD 0) pool.spec.replicas

/-- The last id that is listed for a pool. -/
def lastListed (pool : KafkaNodePool) : Int := pool.spec.nodeIdStart + listedReplicas pool - 1

def listedIds : KafkaNodePool → Set Int := Intervals.points (·.spec.nodeIdStart) lastListed

/-- The ordinals that are listed for a pool. -/
theorem mem_ordinals {n : Nat} {i : Int} :
    i ∈ (do let k ← List.range n; pure (k : Int)) ↔ ∃ k : Nat, k < n ∧ (k : Int) = i := by
  simp [eq_comm]

theorem nodup_ordinals {n : Nat} : (do let k ← List.range n; pure (k : Int)).Nodup := by
  have hmap : (do let k ← List.range n; pure (k : Int)) =
      (List.range n).map fun k : Nat => (k : Int) := by
    simp [List.map_eq_flatMap]
  rw [hmap]
  exact List.nodup_range.map fun a b h => Int.ofNat.inj h

theorem mem_poolNodes {node : NodeInfo} (h : node ∈ poolNodes cluster ns pool) :
    ∃ k : Nat, (k : Int) < listedReplicas pool ∧ pool.spec.nodeIdStart + k < 2 ^ 31 ∧
      node.brokerId = pool.spec.nodeIdStart + k ∧
      node.podName = cluster ++ "-" ++ pool.name ++ "-" ++ toString (k : Int) := by
  obtain ⟨i, hi, hnode⟩ := List.mem_filterMap.mp h
  obtain ⟨k, hk, rfl⟩ := mem_ordinals.mp hi
  have hlt : k < (listedReplicas pool).toNat := hk
  dsimp only at hnode
  split at hnode
  · rename_i hid
    cases hnode
    exact ⟨k, by omega, hid, rfl, rfl⟩
  · cases hnode

theorem exists_poolNode {k : Nat} (hk : (k : Int) < listedReplicas pool)
    (hid : pool.spec.nodeIdStart + k < 2 ^ 31) :
    ∃ node ∈ poolNodes cluster ns pool, node.brokerId = pool.spec.nodeIdStart + k ∧
      node.podName = cluster ++ "-" ++ pool.name ++ "-" ++ toString (k : Int) := by
  have hlt : k < (listedReplicas pool).toNat := by omega
  exact ⟨⟨_, _, _, _⟩, List.mem_filterMap.mpr ⟨k, mem_ordinals.mpr ⟨k, hlt, rfl⟩, if_pos hid⟩,
    rfl, rfl⟩

theorem mem_poolIds {i : Int} : i ∈ (poolNodes cluster ns pool).map (·.brokerId) ↔
    i ∈ listedIds pool ∧ i < 2 ^ 31 := by
  have hpoints : i ∈ listedIds pool ↔ pool.spec.nodeIdStart ≤ i ∧ i ≤ lastListed pool := Iff.rfl
  rw [hpoints, List.mem_map]
  unfold lastListed
  constructor
  · rintro ⟨node, hnode, rfl⟩
    obtain ⟨k, hk, hid, heq, -⟩ := mem_poolNodes hnode
    rw [heq]
    exact ⟨by omega, hid⟩
  · rintro ⟨hbounds, hid⟩
    obtain ⟨k, rfl⟩ : ∃ k : Nat, i = pool.spec.nodeIdStart + k :=
      ⟨(i - pool.spec.nodeIdStart).toNat, by omega⟩
    obtain ⟨node, hnode, heq, -⟩ := exists_poolNode (by omega) hid
    exact ⟨node, hnode, heq⟩

theorem nodup_poolIds : ((poolNodes cluster ns pool).map (·.brokerId)).Nodup := by
  unfold poolNodes
  rw [List.map_filterMap]
  refine List.Nodup.filterMap (fun a b i ha hb => ?_) nodup_ordinals
  simp only [Option.mem_def, Option.map_eq_some_iff, Option.ite_none_right_eq_some,
    Option.some.injEq] at ha hb
  obtain ⟨node, ⟨-, rfl⟩, rfl⟩ := ha
  obtain ⟨node, ⟨-, rfl⟩, heq⟩ := hb
  simp only at heq
  omega

/-- The ids are listed once each when the pools have none in common. -/
theorem nodup_ids_iff : ((enumerateNodes cluster ns pools).map (·.brokerId)).Nodup ↔
    pools.Pairwise fun p q => ((poolNodes cluster ns p).map (·.brokerId)).Disjoint
      ((poolNodes cluster ns q).map (·.brokerId)) := by
  unfold enumerateNodes
  rw [List.map_flatMap, (List.Perm.flatMap_right _ (List.perm_insertionSort _ _)).nodup_iff,
    List.nodup_flatMap]
  exact and_iff_right fun pool _ => nodup_poolIds

theorem mem_enumerateNodes {node : NodeInfo} : node ∈ enumerateNodes cluster ns pools ↔
    ∃ pool ∈ pools, node ∈ poolNodes cluster ns pool := by
  simp only [enumerateNodes, List.mem_flatMap, List.mem_insertionSort]

/-! ## Agreement -/

/-- The list of nodes fits the nodes that run: no id twice, each in range, and each node of a
    StatefulSet or of a pod that is left is listed. -/
structure InventoryAgrees (cluster ns : String) (pools : List KafkaNodePool)
    (statefulsets : List StatefulSet) (pods : List Pod) : Prop where
  distinct : ((enumerateNodes cluster ns pools).map (·.brokerId)).Nodup
  range : ∀ node ∈ enumerateNodes cluster ns pools, 0 ≤ node.brokerId ∧ node.brokerId ≤ maxNodeId
  running : ∀ pool ∈ pools, ∀ ordinal,
    ((0 ≤ ordinal ∧ ordinal < observedPoolReplicas pool.name statefulsets) ∨
      ordinal ∈ podOrdinals pods pool.name) →
    ∃ node ∈ enumerateNodes cluster ns pools,
      node.brokerId = pool.spec.nodeIdStart + ordinal ∧
        node.podName = cluster ++ "-" ++ pool.name ++ "-" ++ toString ordinal

/-- The larger of the replicas of the spec and of the status covers the StatefulSet and the
    pods of a pool, and reaches neither another pool nor the end of the ids. -/
structure StatusFits (pools : List KafkaNodePool) (statefulsets : List StatefulSet)
    (pods : List Pod) : Prop where
  sets : ∀ pool ∈ pools, observedPoolReplicas pool.name statefulsets ≤ listedReplicas pool
  pods : ∀ pool ∈ pools, ∀ ordinal ∈ podOrdinals pods pool.name, ordinal < listedReplicas pool
  inside : ∀ pool ∈ pools, lastListed pool ≤ maxNodeId
  apart : pools.Pairwise fun p q => Disjoint (listedIds p) (listedIds q)

/-- The ids of two pools as lists and as intervals. -/
theorem disjoint_poolIds {p q : KafkaNodePool} (hp : lastListed p ≤ maxNodeId) :
    ((poolNodes cluster ns p).map (·.brokerId)).Disjoint
        ((poolNodes cluster ns q).map (·.brokerId)) ↔ Disjoint (listedIds p) (listedIds q) := by
  unfold List.Disjoint
  simp only [mem_poolIds, Set.disjoint_left]
  constructor
  · intro h i hi hq
    have hlast : i ≤ lastListed p := hi.2
    unfold maxNodeId at hp
    exact h ⟨hi, by omega⟩ ⟨hq, by omega⟩
  · intro h i hi hq
    exact h hi.1 hq.1

/-! ## Ordinals in pod names -/

theorem afterLastDash_has_no_dash {s t : String} (h : afterLastDash s = some t) :
    '-' ∉ t.toList := by
  unfold afterLastDash at h
  split at h
  · cases h
    intro hmem
    have htake := List.mem_takeWhile_imp (List.mem_reverse.mp (by simpa using hmem))
    simp at htake
  · cases h

/-- A number without a dash has no sign. -/
theorem parseI32_nonneg {s : String} {i : Int} (hdash : '-' ∉ s.toList)
    (h : Decimal.parseI32 s = some i) : 0 ≤ i := by
  have hvalue := (Option.filter_eq_some_iff.mp h).1
  split at hvalue
  · obtain ⟨n, -, rfl⟩ := Option.map_eq_some_iff.mp hvalue
    exact Int.natCast_nonneg n
  · rename_i ds hds
    exact absurd (hds ▸ List.mem_cons_self) hdash
  · obtain ⟨n, -, rfl⟩ := Option.map_eq_some_iff.mp hvalue
    exact Int.natCast_nonneg n

theorem podOrdinals_nonneg {name : String} {ordinal : Int} (h : ordinal ∈ podOrdinals pods name) :
    0 ≤ ordinal := by
  obtain ⟨s, hs, hparse⟩ := List.mem_filterMap.mp h
  obtain ⟨pod, -, hdash⟩ := List.mem_filterMap.mp hs
  exact parseI32_nonneg (afterLastDash_has_no_dash hdash) hparse

/-- The ordinals of the nodes that run are not negative. -/
theorem running_nonneg {ordinal : Int}
    (h : (0 ≤ ordinal ∧ ordinal < observedPoolReplicas pool.name statefulsets) ∨
      ordinal ∈ podOrdinals pods pool.name) : 0 ≤ ordinal :=
  h.elim And.left podOrdinals_nonneg

/-! ## When the list fits -/

theorem one_le_listedReplicas (h : validate check pool = .ok ()) : 1 ≤ listedReplicas pool :=
  le_trans (validate_nodes h).1 (le_max_right _ _)

theorem start_mem_listedIds (h : validate check pool = .ok ()) :
    pool.spec.nodeIdStart ∈ listedIds pool := by
  have hpos := one_le_listedReplicas h
  refine ⟨le_rfl, ?_⟩
  unfold lastListed
  omega

/-- Two nodes of one id and one ordinal are of pools with one start. -/
theorem start_of_ordinal {k : Nat} {ordinal start start' : Int} {a b : String}
    (hordinal : 0 ≤ ordinal) (hid : start' + k = start + ordinal)
    (hname : a ++ "-" ++ toString (k : Int) = b ++ "-" ++ toString ordinal) :
    (k : Int) = ordinal ∧ start' = start := by
  have hlast := (Separated.eq_of_dash_eq_dash
    (Decimal.dash_not_mem_toString (Int.natCast_nonneg k))
    (Decimal.dash_not_mem_toString hordinal) hname).2
  have heq := Decimal.toString_injective hlast
  exact ⟨heq, by omega⟩

theorem inside_of_range
    (hrange : ∀ node ∈ enumerateNodes cluster ns pools, node.brokerId ≤ maxNodeId)
    (hpool : pool ∈ pools) (hvalid : validate check pool = .ok ()) :
    lastListed pool ≤ maxNodeId := by
  obtain ⟨-, hlow, hhigh⟩ := validate_nodes hvalid
  by_contra hlast
  unfold lastListed at hlast
  have hlast := not_le.mp hlast
  -- The first id that is too large is listed.
  obtain ⟨k, hk⟩ : ∃ k : Nat, maxNodeId + 1 = pool.spec.nodeIdStart + k :=
    ⟨(maxNodeId + 1 - pool.spec.nodeIdStart).toNat, by omega⟩
  have hbound : maxNodeId + 1 < 2 ^ 31 := by decide
  obtain ⟨node, hnode, hid, -⟩ := @exists_poolNode cluster ns pool k (by omega) (by omega)
  have := hrange node (mem_enumerateNodes.mpr ⟨pool, hpool, hnode⟩)
  omega

theorem apart_of_distinct
    (hdistinct : ((enumerateNodes cluster ns pools).map (·.brokerId)).Nodup)
    (hinside : ∀ pool ∈ pools, lastListed pool ≤ maxNodeId) :
    pools.Pairwise fun p q => Disjoint (listedIds p) (listedIds q) :=
  (nodup_ids_iff.mp hdistinct).imp_of_mem fun hp _ h => (disjoint_poolIds (hinside _ hp)).mp h

/-- With the topology accepted, the list of nodes fits the nodes that run just when the larger of
    the replicas of the spec and of the status covers them and stays within the ids that are
    free for the pool. -/
theorem inventory_agrees_iff (h : validateTopology check pools statefulsets pods = .ok ()) :
    InventoryAgrees cluster ns pools statefulsets pods ↔ StatusFits pools statefulsets pods := by
  have hvalid : ∀ pool ∈ pools, validate check pool = .ok () := fun pool hpool =>
    ((validateTopology_eq_ok (List.ne_nil_of_mem hpool)).mp h).valid pool hpool
  constructor
  · intro hagree
    have hinside : ∀ pool ∈ pools, lastListed pool ≤ maxNodeId := fun pool hpool =>
      inside_of_range (fun node hnode => (hagree.range node hnode).2) hpool (hvalid pool hpool)
    have hapart := apart_of_distinct hagree.distinct hinside
    have hcover : ∀ pool ∈ pools, ∀ ordinal,
        ((0 ≤ ordinal ∧ ordinal < observedPoolReplicas pool.name statefulsets) ∨
          ordinal ∈ podOrdinals pods pool.name) → ordinal < listedReplicas pool := by
      intro pool hpool ordinal hrun
      obtain ⟨node, hnode, hid, hname⟩ := hagree.running pool hpool ordinal hrun
      obtain ⟨other, hother, hnode⟩ := mem_enumerateNodes.mp hnode
      obtain ⟨k, hk, -, hid', hname'⟩ := mem_poolNodes hnode
      obtain ⟨rfl, hstart⟩ := start_of_ordinal (running_nonneg hrun) (hid'.symm.trans hid)
        (hname'.symm.trans hname)
      -- Two pools with the same start would share it.
      obtain rfl : other = pool := by
        by_contra hne
        have : Std.Symm fun p q => Disjoint (listedIds p) (listedIds q) :=
          ⟨fun _ _ hdisjoint => hdisjoint.symm⟩
        refine Set.disjoint_left.mp (hapart.forall hother hpool hne)
          (start_mem_listedIds (hvalid other hother)) ?_
        rw [hstart]
        exact start_mem_listedIds (hvalid pool hpool)
      exact hk
    refine ⟨fun pool hpool => ?_, fun pool hpool ordinal hordinal => ?_, hinside, hapart⟩
    · by_contra hlt
      have hpos := one_le_listedReplicas (hvalid pool hpool)
      exact absurd (hcover pool hpool (listedReplicas pool) (.inl ⟨by omega, by omega⟩))
        (lt_irrefl _)
    · exact hcover pool hpool ordinal (.inr hordinal)
  · intro hfits
    refine ⟨?_, fun node hnode => ?_, fun pool hpool ordinal hrun => ?_⟩
    · refine nodup_ids_iff.mpr (hfits.apart.imp_of_mem fun hp _ hdisjoint => ?_)
      exact (disjoint_poolIds (hfits.inside _ hp)).mpr hdisjoint
    · obtain ⟨pool, hpool, hnode⟩ := mem_enumerateNodes.mp hnode
      obtain ⟨k, hk, -, hid, -⟩ := mem_poolNodes hnode
      have hlast := hfits.inside pool hpool
      have hlow := (validate_nodes (hvalid pool hpool)).2.1
      unfold lastListed at hlast
      rw [hid]
      omega
    · obtain ⟨k, rfl⟩ := Int.eq_ofNat_of_zero_le (running_nonneg hrun)
      have hk : (k : Int) < listedReplicas pool := by
        rcases hrun with ⟨-, hlt⟩ | hmem
        · exact lt_of_lt_of_le hlt (hfits.sets pool hpool)
        · exact hfits.pods pool hpool _ hmem
      have hlast := hfits.inside pool hpool
      have hbound : maxNodeId < 2 ^ 31 := by decide
      unfold lastListed at hlast
      obtain ⟨node, hnode, hid, hname⟩ := @exists_poolNode cluster ns pool k hk (by omega)
      exact ⟨node, mem_enumerateNodes.mpr ⟨pool, hpool, hnode⟩, hid, hname⟩

namespace Sample

def inventoryPool (name : String) (start replicas : Int) (observed : Option Int) :
    KafkaNodePool where
  name := name
  labels := ∅
  spec := ⟨replicas, start, [.broker, .controller]⟩
  status := some ⟨observed, none, []⟩

def inventoryPod (pool name : String) : Pod where
  name := name
  labels := BTreeMap.ofList [("krabka.io/pool", pool)]
  annotations := ∅
  spec := none

end Sample

open Sample in
theorem inventory_agrees_growing :
    InventoryAgrees "demo" "default" [inventoryPool "b" 2 1 none, inventoryPool "a" 0 2 (some 1)] []
      [inventoryPod "a" "demo-a-0", inventoryPod "a" "demo-a-1"] := by
  refine (@inventory_agrees_iff (fun _ => .ok ()) "demo" "default" _ _ _ (by decide)).mpr
    ⟨by decide, by decide, by decide, ?_⟩
  refine List.pairwise_pair.mpr (Set.disjoint_left.mpr fun i hb ha => ?_)
  have hlow : 2 ≤ i := hb.1
  have hhigh : i ≤ 1 := ha.2
  omega

open Sample in
/-- A status that is behind leaves the broker of a pod out, and one that is ahead lists the id of
    a second pool. -/
theorem inventory_disagrees :
    (validateTopology (fun _ => .ok ()) [inventoryPool "a" 0 1 (some 1)] []
        [inventoryPod "a" "demo-a-2"] = .ok () ∧
      2 ∉ (enumerateNodes "demo" "default" [inventoryPool "a" 0 1 (some 1)]).map (·.brokerId) ∧
      ¬ InventoryAgrees "demo" "default" [inventoryPool "a" 0 1 (some 1)] []
        [inventoryPod "a" "demo-a-2"]) ∧
    validateTopology (fun _ => .ok ()) [inventoryPool "a" 0 1 (some 2), inventoryPool "b" 1 1 none]
        [] [] = .ok () ∧
      (enumerateNodes "demo" "default"
          [inventoryPool "a" 0 1 (some 2), inventoryPool "b" 1 1 none]).map
        (fun node => (node.brokerId, node.podName)) =
        [(0, "demo-a-0"), (1, "demo-a-1"), (1, "demo-b-0")] := by
  refine ⟨⟨by decide, by decide, fun h => ?_⟩, by decide, by decide⟩
  obtain ⟨node, hnode, hid, -⟩ := h.running _ List.mem_cons_self 2 (.inr (by decide))
  have hmem : 2 ∈ (enumerateNodes "demo" "default" [inventoryPool "a" 0 1 (some 1)]).map
      (·.brokerId) := List.mem_map.mpr ⟨node, hnode, hid⟩
  exact absurd hmem (by decide)

end Cluster
