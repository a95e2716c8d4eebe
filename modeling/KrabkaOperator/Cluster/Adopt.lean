-- SUMMARY: What a pass writes to the pools: the first pool in roll order gets the desired hash, every other one the desired hash or the one it has.
import KrabkaOperator.Cluster.Rollout

/-!
# The patches of the pools

`adoptPools` patches the pools one after the other in roll order. Names of pools
are unique, so each patch finds its pool as the pass has read it.
-/

namespace Cluster

open Kube Crd Operator

/-! ## Convergence -/

/-- The StatefulSet of a pool has rolled to `hash`. -/
structure RolledSet (statefulSets : List StatefulSet) (cluster : String) (p : KafkaNodePool)
    (hash : String) (sts : StatefulSet) : Prop where
  mem : sts ∈ statefulSets
  name : sts.name = cluster ++ "-" ++ p.name
  belongs : belongsTo sts cluster p.name = true
  rolled : rolledTo sts hash p.spec.replicas = true

theorem poolConverged_rolled {statefulSets : List StatefulSet} {p : KafkaNodePool}
    {cluster : String} (h : poolConverged statefulSets p = true) (hc : p.cluster? = some cluster) :
    ∃ hash sts, p.configHash? = some hash ∧ RolledSet statefulSets cluster p hash sts := by
  unfold poolConverged at h
  cases hh : p.configHash? with
  | none => simp [hh] at h
  | some hash =>
    simp only [hh, hc, Bool.and_eq_true] at h
    obtain ⟨-, h⟩ := h
    cases hf : statefulSets.find? (·.name = cluster ++ "-" ++ p.name) with
    | none => simp [hf] at h
    | some sts =>
      simp only [hf, Bool.and_eq_true] at h
      exact ⟨hash, sts, rfl, List.mem_of_find?_eq_some hf, by simpa using List.find?_some hf, h.1,
        h.2⟩

/-- In a converged cluster every pool has rolled to its hash, and there is one hash. -/
theorem poolsConverged_rolled {w : World} {cluster : String}
    (h : poolsConverged (w.poolsOf cluster) (w.statefulSetsOf cluster) = true) :
    (∀ p ∈ w.poolsOf cluster, ∃ hash sts, p.configHash? = some hash ∧
      RolledSet (w.statefulSetsOf cluster) cluster p hash sts) ∧
    ∀ p ∈ w.poolsOf cluster, ∀ q ∈ w.poolsOf cluster, p.configHash? = q.configHash? := by
  simp only [poolsConverged, Bool.and_eq_true, List.all_eq_true, decide_eq_true_eq] at h
  refine ⟨fun p hp => ?_, h.2⟩
  have hcluster : p.cluster? = some cluster := by
    simpa using (List.mem_filter.mp hp).2
  exact poolConverged_rolled (h.1.2 p hp) hcluster

/-! ## The plan -/

section Plan

variable {desired : String} {states : List PoolRolloutState}

theorem advance_map_fst (free : Bool) (states : List PoolRolloutState) :
    (advance desired free states).map Prod.fst = states.map (·.name) := by
  induction states generalizing free with
  | nil => cases free <;> rfl
  | cons s states ih =>
    cases free with
    | true => simp [advance, ih]
    | false => simp [advance, ih]

/-- The plan names the pools in their order. -/
theorem planRollout_map_fst (states : List PoolRolloutState) (desired : String) :
    (planRollout states desired).map Prod.fst = states.map (·.name) := by
  unfold planRollout
  simp only
  split
  · simp [Function.comp_def]
  · exact advance_map_fst true states

theorem advance_mem {free : Bool} {e : String × String} (h : e ∈ advance desired free states) :
    ∃ s ∈ states, s.name = e.1 ∧ (e.2 = desired ∨ s.currentHash = some e.2) := by
  induction states generalizing free with
  | nil => cases free <;> cases h
  | cons s states ih =>
    cases free with
    | true =>
      rcases List.mem_cons.mp h with rfl | h
      · exact ⟨s, List.mem_cons_self, rfl, .inl rfl⟩
      · obtain ⟨s', hs', he⟩ := ih h
        exact ⟨s', List.mem_cons_of_mem _ hs', he⟩
    | false =>
      rcases List.mem_cons.mp h with rfl | h
      · refine ⟨s, List.mem_cons_self, rfl, ?_⟩
        cases hc : s.currentHash with
        | none => exact .inl rfl
        | some hash => exact .inr rfl
      · obtain ⟨s', hs', he⟩ := ih h
        exact ⟨s', List.mem_cons_of_mem _ hs', he⟩

/-- Each pool gets the desired hash or the one it has. -/
theorem planRollout_mem {e : String × String} (h : e ∈ planRollout states desired) :
    ∃ s ∈ states, s.name = e.1 ∧ (e.2 = desired ∨ s.currentHash = some e.2) := by
  unfold planRollout at h
  simp only at h
  split at h
  · obtain ⟨s, hs, rfl⟩ := List.mem_map.mp h
    exact ⟨s, hs, rfl, .inl rfl⟩
  · exact advance_mem h

/-- The first pool gets the desired hash. -/
theorem planRollout_head {s : PoolRolloutState} :
    (planRollout (s :: states) desired).head? = some (s.name, desired) := by
  unfold planRollout
  simp only
  split
  · rfl
  · rfl

end Plan

/-! ## Labels in a world -/

section Labels

variable {w : World} {cluster name hash : String}

/-- The names of the pools of a cluster in roll order. -/
def rollOrder (w : World) (cluster : String) : List String :=
  ((w.poolsOf cluster).insertionSort poolLe).map (·.name)

/-- No two pools of the namespace have the same name. -/
def PoolNamesUnique (w : World) : Prop := (w.pools.map (·.name)).Nodup

/-- What a label patch does to one pool. -/
def relabel (name hash : String) (p : KafkaNodePool) : KafkaNodePool :=
  if p.name = name then p.withConfigHash hash else p

@[simp] theorem relabel_name {p : KafkaNodePool} : (relabel name hash p).name = p.name := by
  unfold relabel
  split <;> rfl

@[simp] theorem relabel_spec {p : KafkaNodePool} : (relabel name hash p).spec = p.spec := by
  unfold relabel
  split <;> rfl

@[simp] theorem relabel_cluster? {p : KafkaNodePool} :
    (relabel name hash p).cluster? = p.cluster? := by
  unfold relabel
  split
  · simp [KafkaNodePool.cluster?, KafkaNodePool.withConfigHash, Std.ExtTreeMap.getElem?_insert]
  · rfl

theorem configHash?_relabel_self {p : KafkaNodePool} (h : p.name = name) :
    (relabel name hash p).configHash? = some hash := by
  rw [relabel, if_pos h]
  simp [KafkaNodePool.configHash?, KafkaNodePool.withConfigHash]

theorem configHash?_relabel_of_ne {p : KafkaNodePool} (h : p.name ≠ name) :
    (relabel name hash p).configHash? = p.configHash? := by
  rw [relabel, if_neg h]

theorem pools_labelPool : (w.labelPool name hash).pools = w.pools.map (relabel name hash) := rfl

theorem poolsOf_labelPool : (w.labelPool name hash).poolsOf cluster =
    (w.poolsOf cluster).map (relabel name hash) := by
  simp only [World.poolsOf, pools_labelPool, List.filter_map]
  congr 1
  refine List.filter_congr fun p _ => ?_
  simp

theorem rollOrder_labelPool : rollOrder (w.labelPool name hash) cluster = rollOrder w cluster := by
  have hsort := List.map_insertionSort poolLe poolLe (relabel name hash) (w.poolsOf cluster)
    fun p _ q _ => by simp [poolLe]
  rw [rollOrder, poolsOf_labelPool, ← hsort, List.map_map, rollOrder]
  exact List.map_congr_left fun p _ => by simp

theorem PoolNamesUnique.labelPool (h : PoolNamesUnique w) :
    PoolNamesUnique (w.labelPool name hash) := by
  rw [PoolNamesUnique, pools_labelPool, List.map_map]
  have hnames : w.pools.map ((·.name) ∘ relabel name hash) = w.pools.map (·.name) :=
    List.map_congr_left fun p _ => by simp
  rw [hnames]
  exact h

theorem PoolNamesUnique.rollOrder (h : PoolNamesUnique w) : (Cluster.rollOrder w cluster).Nodup := by
  have hperm := (List.perm_insertionSort poolLe (w.poolsOf cluster)).map (·.name)
  exact hperm.nodup_iff.mpr (h.sublist (List.filter_sublist.map _))

theorem PoolNamesUnique.eq (h : PoolNamesUnique w) {p q : KafkaNodePool} (hp : p ∈ w.pools)
    (hq : q ∈ w.pools) (hname : p.name = q.name) : p = q :=
  List.inj_on_of_nodup_map h hp hq hname

theorem mem_pools_of_mem_poolsOf {p : KafkaNodePool} (h : p ∈ w.poolsOf cluster) : p ∈ w.pools :=
  (List.mem_filter.mp h).1

end Labels

/-! ## The program -/

/-- One patch of a pass with the desired hash `desired`: the pool gets that hash, or the
    one that it has, and the latter is not the case for the first pool in roll order. -/
structure LabelReq (cluster desired : String) (a : World) (name hash : String) : Prop where
  found : ∃ p ∈ a.poolsOf cluster, p.name = name
  hash : hash = desired ∨ ((∀ p ∈ a.pools, p.name = name → p.configHash? = some hash) ∧
    (rollOrder a cluster).head? ≠ some name)

theorem labelPools_sat {cluster desired : String} {w w₀ : World} (hw₀ : PoolNamesUnique w₀)
    {done : List String} {labels : List (String × String)}
    (horder : rollOrder w₀ cluster = done ++ labels.map Prod.fst)
    (hhead : done = [] → ∀ e, labels.head? = some e → e.2 = desired)
    (hlabels : ∀ e ∈ labels, ∃ p ∈ w₀.poolsOf cluster, p.name = e.1 ∧
      (e.2 = desired ∨ p.configHash? = some e.2))
    -- The pools that are still to be patched are as they were read.
    (hpools : ∀ p ∈ w₀.pools, p.name ∉ done → p ∈ w.pools) (hw : PoolNamesUnique w)
    (hsame : rollOrder w cluster = rollOrder w₀ cluster) :
    Prog.Sat answer (fun a r b => (∃ name hash, r = .labelPool name hash ∧
        LabelReq cluster desired a name hash) ∧ PoolNamesUnique a ∧ Answered a r b)
      (fun _ _ => True) (labelPools labels) w := by
  induction labels generalizing w done with
  | nil => trivial
  | cons e labels ih =>
    obtain ⟨name, hash⟩ := e
    obtain ⟨p, hp, rfl, hhash⟩ := hlabels _ List.mem_cons_self
    have hnodup : (done ++ p.name :: labels.map Prod.fst).Nodup := by
      rw [List.map_cons] at horder
      exact horder ▸ hw₀.rollOrder
    have hfresh : p.name ∉ done := fun hmem =>
      (List.disjoint_of_nodup_append hnodup) hmem List.mem_cons_self
    have hpw : p ∈ w.pools := hpools p (mem_pools_of_mem_poolsOf hp) hfresh
    have hreq : LabelReq cluster desired w p.name hash := by
      refine ⟨⟨p, List.mem_filter.mpr ⟨hpw, (List.mem_filter.mp hp).2⟩, rfl⟩, ?_⟩
      rcases hhash with hdesired | hcurrent
      · exact .inl hdesired
      · cases done with
        | nil => exact .inl (hhead rfl _ rfl)
        | cons n done =>
          refine .inr ⟨fun q hq hname => ?_, ?_⟩
          · rw [hw.eq hq hpw hname]
            exact hcurrent
          · rw [hsame, horder]
            simp only [List.cons_append, List.head?_cons, ne_eq, Option.some_inj]
            rintro rfl
            exact hfresh List.mem_cons_self
    refine sat_labelPool ⟨⟨_, _, rfl, hreq⟩, hw, .same (by simp)⟩ (fun _ => trivial) fun _ => ?_
    refine ⟨⟨⟨_, _, rfl, hreq⟩, hw, .labelled⟩, fun _ => trivial, ?_⟩
    refine @ih _ (done ++ [p.name]) ?_ (fun h => by simp at h) ?_ ?_ hw.labelPool ?_
    · simpa using horder
    · exact fun e he => hlabels e (List.mem_cons_of_mem _ he)
    · intro q hq hnot
      simp only [List.mem_append, List.mem_singleton, not_or] at hnot
      refine List.mem_map.mpr ⟨q, hpools q hq hnot.1, ?_⟩
      exact if_neg hnot.2
    · rw [rollOrder_labelPool, hsame]

/-- Every request of `adoptPools` is such a patch. -/
theorem adoptPools_sat {cluster desired : String} {w : World} (parent : Kafka)
    (hw : PoolNamesUnique w) :
    Prog.Sat answer (fun a r b => (∃ name hash, r = .labelPool name hash ∧
        LabelReq cluster desired a name hash) ∧ PoolNamesUnique a ∧ Answered a r b)
      (fun _ _ => True) (adoptPools parent (w.poolsOf cluster) desired) w := by
  unfold adoptPools
  split
  · trivial
  · refine @labelPools_sat cluster desired w w hw [] _ ?_ ?_ ?_ (fun p hp _ => hp) hw rfl
    · rw [planRollout_map_fst, List.map_map]
      rfl
    · intro _ e he
      cases hs : (w.poolsOf cluster).insertionSort poolLe with
      | nil => simp [hs, planRollout, advance] at he
      | cons p ps =>
        rw [hs, List.map_cons, planRollout_head, Option.some_inj] at he
        rw [← he]
    · intro e he
      obtain ⟨s, hs, hname, hhash⟩ := planRollout_mem he
      obtain ⟨p, hp, rfl⟩ := List.mem_map.mp hs
      exact ⟨p, List.mem_insertionSort poolLe |>.mp hp, hname, hhash⟩

end Cluster
