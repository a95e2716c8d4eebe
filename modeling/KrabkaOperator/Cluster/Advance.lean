-- SUMMARY: The law of the rollout plan: at most one pool moves in a step, and a roll whose pools become ready ends.
import KrabkaOperator.Cluster.Rollout
import Mathlib.Data.List.Dedup
import Mathlib.Logic.Function.Iterate

/-!
# The law of the rollout plan

`planRollout` keeps the pools and their order, and gives each pool its own hash or the
desired one. Over an established cluster it moves the first pool that does not carry
the desired hash, and only behind pools that carry it and are ready. `Rolls` describes
one step of a roll with what happens before the next one.
-/

namespace Cluster

variable {desired : String} {gate : Bool} {pools pools' : List PoolRolloutState}

/-- The pool carries the desired hash and is ready. -/
def PoolRolloutState.Converged (p : PoolRolloutState) (desired : String) : Prop :=
  p.currentHash = some desired ∧ p.ready = true

/-- Every pool has a hash, and at most one of the hashes is not the desired one. -/
def Established (desired : String) (pools : List PoolRolloutState) : Prop :=
  (∀ p ∈ pools, p.currentHash.isSome) ∧
    ∀ p ∈ pools, ∀ q ∈ pools, p.currentHash ≠ some desired → q.currentHash ≠ some desired →
      p.currentHash = q.currentHash

instance (desired : String) (pools : List PoolRolloutState) :
    Decidable (Established desired pools) := inferInstanceAs (Decidable (_ ∧ _))

/-- The plan changes the hash of the pool at an index. -/
def MovedAt (desired : String) (pools : List PoolRolloutState) (i : Nat) : Prop :=
  ∃ p entry, pools[i]? = some p ∧ (planRollout pools desired)[i]? = some entry ∧
    p.currentHash ≠ some entry.2

/-! ## The walk over the pools -/

/-- What the plan may give a pool. -/
def Allowed (desired : String) (p : PoolRolloutState) (entry : String × String) : Prop :=
  entry.1 = p.name ∧ (entry.2 = desired ∨ p.currentHash = some entry.2) ∧
    (p.currentHash = some desired → entry.2 = desired)

theorem allowed_desired (p : PoolRolloutState) : Allowed desired p (p.name, desired) :=
  ⟨rfl, .inl rfl, fun _ => rfl⟩

theorem allowed_keep (p : PoolRolloutState) :
    Allowed desired p (p.name, p.currentHash.getD desired) := by
  cases h : p.currentHash with
  | none => exact ⟨rfl, .inl rfl, fun _ => rfl⟩
  | some hash => exact ⟨rfl, .inr h, fun heq => Option.some_inj.mp (h.symm.trans heq)⟩

theorem advance_allowed :
    List.Forall₂ (Allowed desired) pools (advance desired gate pools) := by
  induction pools generalizing gate with
  | nil => cases gate <;> exact .nil
  | cons p ps ih =>
    cases gate with
    | true => exact .cons (allowed_desired p) ih
    | false => exact .cons (allowed_keep p) ih

theorem planRollout_allowed :
    List.Forall₂ (Allowed desired) pools (planRollout pools desired) := by
  unfold planRollout
  dsimp only
  split
  · rw [List.forall₂_map_right_iff]
    exact List.forall₂_same.mpr fun p _ => allowed_desired p
  · exact advance_allowed

/-- The first pool that has not converged closes the gate. -/
theorem advance_moved (hhash : ∀ p ∈ pools, p.currentHash.isSome) {i : Nat} {p : PoolRolloutState}
    {entry : String × String} (hp : pools[i]? = some p)
    (hentry : (advance desired gate pools)[i]? = some entry) (hne : p.currentHash ≠ some entry.2) :
    gate = true ∧ p.currentHash ≠ some desired ∧
      ∀ j < i, ∃ q, pools[j]? = some q ∧ q.Converged desired := by
  induction pools generalizing gate i with
  | nil => cases hp
  | cons p₀ ps ih =>
    obtain ⟨hhead, htail⟩ := List.forall_mem_cons.mp hhash
    cases i with
    | zero =>
      obtain rfl : p₀ = p := Option.some_inj.mp hp
      cases gate with
      | true =>
        obtain rfl : (p₀.name, desired) = entry := Option.some_inj.mp hentry
        exact ⟨rfl, hne, fun j hj => absurd hj (Nat.not_lt_zero j)⟩
      | false =>
        obtain rfl : (p₀.name, p₀.currentHash.getD desired) = entry := Option.some_inj.mp hentry
        obtain ⟨hash, hsome⟩ := Option.isSome_iff_exists.mp hhead
        exact absurd (by simp [hsome]) hne
    | succ i =>
      rw [List.getElem?_cons_succ] at hp
      cases gate with
      | false =>
        rw [advance, List.getElem?_cons_succ] at hentry
        exact absurd (ih htail hp hentry).1 (by decide)
      | true =>
        rw [advance, List.getElem?_cons_succ] at hentry
        obtain ⟨hconverged, hdesired, hbefore⟩ := ih htail hp hentry
        refine ⟨rfl, hdesired, fun j hj => ?_⟩
        cases j with
        | zero => exact ⟨p₀, rfl, by simpa [PoolRolloutState.Converged] using hconverged⟩
        | succ j => exact hbefore j (Nat.lt_of_succ_lt_succ hj)

/-! ## Established clusters -/

theorem length_le_one_of_forall_eq {α : Type} {l : List α} (hnodup : l.Nodup)
    (h : ∀ a ∈ l, ∀ b ∈ l, a = b) : l.length ≤ 1 := by
  cases l with
  | nil => exact Nat.zero_le 1
  | cons a l =>
    cases l with
    | nil => exact le_rfl
    | cons b l =>
      have hne := (List.pairwise_cons.mp hnodup).1 b List.mem_cons_self
      exact absurd (h a List.mem_cons_self b (List.mem_cons_of_mem _ List.mem_cons_self)) hne

theorem Established.plan (h : Established desired pools) :
    planRollout pools desired = advance desired true pools := by
  have hall : pools.all (·.currentHash.isSome) = true := List.all_eq_true.mpr h.1
  have hcount : ((pools.filterMap (·.currentHash)).filter (· ≠ desired)).dedup.length ≤ 1 := by
    refine length_le_one_of_forall_eq (List.nodup_dedup _) fun a ha b hb => ?_
    simp only [List.mem_dedup, List.mem_filter, List.mem_filterMap, decide_eq_true_eq] at ha hb
    obtain ⟨⟨p, hp, hpa⟩, hane⟩ := ha
    obtain ⟨⟨q, hq, hqb⟩, hbne⟩ := hb
    have heq := h.2 p hp q hq (by simpa [hpa] using hane) (by simpa [hqb] using hbne)
    exact Option.some_inj.mp (hpa.symm.trans (heq.trans hqb))
  unfold planRollout
  simp only [hall, Bool.not_true, Bool.false_or, decide_eq_true_eq]
  rw [if_neg (by omega)]

/-- A pool that moves does not carry the desired hash, and all pools before it do and are
    ready. -/
theorem Established.moved (h : Established desired pools) {i : Nat} (hi : MovedAt desired pools i) :
    (∃ p, pools[i]? = some p ∧ p.currentHash ≠ some desired) ∧
      ∀ j < i, ∃ q, pools[j]? = some q ∧ q.Converged desired := by
  obtain ⟨p, entry, hp, hentry, hne⟩ := hi
  rw [h.plan] at hentry
  obtain ⟨-, hdesired, hbefore⟩ := advance_moved h.1 hp hentry hne
  exact ⟨⟨p, hp, hdesired⟩, hbefore⟩

theorem Established.moved_le (h : Established desired pools) {i j : Nat}
    (hi : MovedAt desired pools i) (hj : MovedAt desired pools j) : i ≤ j := by
  by_contra hlt
  obtain ⟨q, hq, hconverged⟩ := (h.moved hi).2 j (Nat.lt_of_not_le hlt)
  obtain ⟨p, hp, hne⟩ := (h.moved hj).1
  obtain rfl : q = p := Option.some_inj.mp (hq.symm.trans hp)
  exact hne hconverged.1

theorem Established.moved_unique (h : Established desired pools) {i j : Nat}
    (hi : MovedAt desired pools i) (hj : MovedAt desired pools j) : i = j :=
  Nat.le_antisymm (h.moved_le hi hj) (h.moved_le hj hi)

/-! ## Rolls -/

/-- One step of a roll: the pools get their planned hashes, and before the next step every
    pool that carries the desired hash becomes ready. -/
structure Rolls (desired : String) (pools pools' : List PoolRolloutState) : Prop where
  planned : pools'.map (fun p => (p.name, p.currentHash)) =
    (planRollout pools desired).map fun entry => (entry.1, some entry.2)
  ready : ∀ p ∈ pools', p.currentHash = some desired → p.ready = true

/-- The number of pools that do not carry the desired hash. -/
def pending (desired : String) (pools : List PoolRolloutState) : Nat :=
  pools.countP (·.currentHash ≠ some desired)

theorem pending_eq_zero : pending desired pools = 0 ↔ ∀ p ∈ pools, p.currentHash = some desired := by
  simp [pending, List.countP_eq_zero]

/-- The number of planned hashes that are not the desired one. -/
def left (desired : String) (plan : List (String × String)) : Nat :=
  plan.countP (·.2 ≠ desired)

theorem pending_cons (p : PoolRolloutState) (ps : List PoolRolloutState) :
    pending desired (p :: ps) =
      pending desired ps + if p.currentHash = some desired then 0 else 1 := by
  by_cases h : p.currentHash = some desired <;> simp [pending, h]

theorem left_cons (entry : String × String) (plan : List (String × String)) :
    left desired (entry :: plan) = left desired plan + if entry.2 = desired then 0 else 1 := by
  by_cases h : entry.2 = desired <;> simp [left, h]

/-- A closed gate keeps all hashes. -/
theorem left_closed (hhash : ∀ p ∈ pools, p.currentHash.isSome) :
    left desired (advance desired false pools) = pending desired pools := by
  induction pools with
  | nil => rfl
  | cons p ps ih =>
    obtain ⟨hhead, htail⟩ := List.forall_mem_cons.mp hhash
    obtain ⟨hash, hsome⟩ := Option.isSome_iff_exists.mp hhead
    rw [advance, left_cons, pending_cons, ih htail]
    simp [hsome]

theorem left_open_le (hhash : ∀ p ∈ pools, p.currentHash.isSome) :
    left desired (advance desired true pools) ≤ pending desired pools := by
  induction pools with
  | nil => exact le_rfl
  | cons p ps ih =>
    obtain ⟨-, htail⟩ := List.forall_mem_cons.mp hhash
    rw [advance, left_cons, pending_cons, if_pos rfl]
    cases decide (p.currentHash = some desired) && p.ready with
    | true => exact (ih htail).trans (Nat.le_add_right _ _)
    | false => exact (left_closed htail).le.trans (Nat.le_add_right _ _)

/-- Where all pools with the desired hash are ready, the walk moves one that has another. -/
theorem left_open (hhash : ∀ p ∈ pools, p.currentHash.isSome)
    (hready : ∀ p ∈ pools, p.currentHash = some desired → p.ready = true) :
    left desired (advance desired true pools) = pending desired pools - 1 := by
  induction pools with
  | nil => rfl
  | cons p ps ih =>
    obtain ⟨-, htail⟩ := List.forall_mem_cons.mp hhash
    obtain ⟨hhead, hrest⟩ := List.forall_mem_cons.mp hready
    rw [advance, left_cons, pending_cons, if_pos rfl]
    by_cases hdesired : p.currentHash = some desired
    · simp [hdesired, hhead hdesired, ih htail hrest]
    · simp [hdesired, left_closed htail]

namespace Rolls

variable (h : Rolls desired pools pools')

include h in
theorem length : pools'.length = pools.length := by
  have hlen := congrArg List.length h.planned
  rw [List.length_map, List.length_map] at hlen
  rw [hlen]
  exact planRollout_allowed.length_eq.symm

include h in
theorem pending_eq : pending desired pools' =
    left desired (planRollout pools desired) := by
  have hcount := congrArg (List.countP fun e : String × Option String => e.2 ≠ some desired) h.planned
  rw [List.countP_map, List.countP_map] at hcount
  simpa [pending, left, Function.comp_def] using hcount

include h in
/-- Each pool has afterwards the desired hash or one that a pool had before. -/
theorem hash {p : PoolRolloutState} (hp : p ∈ pools') :
    p.currentHash = some desired ∨ ∃ q ∈ pools, p.currentHash = q.currentHash ∧ p.currentHash.isSome := by
  have hmem : (p.name, p.currentHash) ∈ pools'.map fun p => (p.name, p.currentHash) :=
    List.mem_map_of_mem hp
  rw [h.planned] at hmem
  obtain ⟨entry, hentry, heq⟩ := List.mem_map.mp hmem
  obtain ⟨i, hi, rfl⟩ := List.getElem_of_mem hentry
  have hplan : List.Forall₂ (Allowed desired) pools (planRollout pools desired) := planRollout_allowed
  have hlen := hplan.length_eq
  have hallowed := (List.forall₂_iff_get.mp hplan).2 i (hlen ▸ hi) hi
  have hhash : p.currentHash = some (planRollout pools desired)[i].2 := (Prod.mk.inj heq).2.symm
  rcases hallowed.2.1 with hdesired | hsame
  · exact .inl (hhash.trans (congrArg some hdesired))
  · exact .inr ⟨_, List.get_mem pools ⟨i, hlen ▸ hi⟩, hhash.trans hsame.symm, by simp [hhash]⟩

include h in
theorem established (hest : Established desired pools) : Established desired pools' := by
  constructor
  · intro p hp
    rcases h.hash hp with hdesired | ⟨q, -, -, hsome⟩
    · simp [hdesired]
    · exact hsome
  · intro p hp q hq hpne hqne
    obtain ⟨p₀, hp₀, hpeq, -⟩ := (h.hash hp).resolve_left hpne
    obtain ⟨q₀, hq₀, hqeq, -⟩ := (h.hash hq).resolve_left hqne
    rw [hpeq, hqeq]
    exact hest.2 p₀ hp₀ q₀ hq₀ (hpeq ▸ hpne) (hqeq ▸ hqne)

include h in
theorem pending_le (hest : Established desired pools) :
    pending desired pools' ≤ pending desired pools := by
  rw [h.pending_eq, hest.plan]
  exact left_open_le hest.1

include h in
theorem pending_pred (hest : Established desired pools)
    (hready : ∀ p ∈ pools, p.currentHash = some desired → p.ready = true) :
    pending desired pools' = pending desired pools - 1 := by
  rw [h.pending_eq, hest.plan]
  exact left_open hest.1 hready

include h in
/-- The first step leaves a pool with the desired hash, whatever was ready before. -/
theorem pending_first (hest : Established desired pools) :
    pending desired pools' ≤ pools.length - 1 := by
  by_cases hall : ∀ p ∈ pools, p.currentHash ≠ some desired
  · rw [h.pending_pred hest fun p hp hdesired => absurd hdesired (hall p hp)]
    exact Nat.sub_le_sub_right List.countP_le_length 1
  · have hlt : pending desired pools < pools.length := by
      refine lt_of_le_of_ne List.countP_le_length fun heq => hall ?_
      simpa using List.countP_eq_length.mp heq
    exact (h.pending_le hest).trans (Nat.le_sub_one_of_lt hlt)

end Rolls

/-- A roll of `n` pools: after `k` steps at most `n - k` pools are left. -/
theorem pending_roll {roll : Nat → List PoolRolloutState} (hest : Established desired (roll 0))
    (hroll : ∀ k, Rolls desired (roll k) (roll (k + 1))) (k : Nat) :
    Established desired (roll (k + 1)) ∧
      pending desired (roll (k + 1)) ≤ (roll 0).length - (k + 1) := by
  induction k with
  | zero => exact ⟨(hroll 0).established hest, (hroll 0).pending_first hest⟩
  | succ k ih =>
    obtain ⟨hestk, hpending⟩ := ih
    refine ⟨(hroll (k + 1)).established hestk, ?_⟩
    rw [(hroll (k + 1)).pending_pred hestk (hroll k).ready]
    omega

theorem roll_done {roll : Nat → List PoolRolloutState} (hest : Established desired (roll 0))
    (hroll : ∀ k, Rolls desired (roll k) (roll (k + 1))) {k : Nat} (hk : (roll 0).length ≤ k) :
    ∀ p ∈ roll k, p.currentHash = some desired := by
  cases k with
  | zero =>
    rw [List.eq_nil_of_length_eq_zero (Nat.le_zero.mp hk)]
    exact fun p hp => absurd hp List.not_mem_nil
  | succ k =>
    refine pending_eq_zero.mp ?_
    have hpending := (pending_roll hest hroll k).2
    omega

/-- The law of the plan: names and order stay, a hash stays or becomes the desired one, an
    established cluster moves at most its first pool with another hash, and a roll whose
    pools with the desired hash become ready ends after as many steps as there are pools. -/
theorem planRollout_law (desired : String) (pools : List PoolRolloutState) :
    List.Forall₂ (Allowed desired) pools (planRollout pools desired) ∧
    (Established desired pools →
      (∀ i, MovedAt desired pools i →
        (∃ p, pools[i]? = some p ∧ p.currentHash ≠ some desired) ∧
          ∀ j < i, ∃ q, pools[j]? = some q ∧ q.Converged desired) ∧
      (∀ i j, MovedAt desired pools i → MovedAt desired pools j → i = j) ∧
      ∀ roll : Nat → List PoolRolloutState, roll 0 = pools →
        (∀ k, Rolls desired (roll k) (roll (k + 1))) →
        ∀ k, pools.length ≤ k → ∀ p ∈ roll k, p.currentHash = some desired) := by
  refine ⟨planRollout_allowed, fun hest => ⟨fun i hi => hest.moved hi,
    fun i j hi hj => hest.moved_unique hi hj, ?_⟩⟩
  rintro roll rfl hroll k hk
  exact roll_done hest hroll hk

/-! ## Two pools -/

namespace Sample

/-- A roll of two pools, one after the other. -/
def twoPools : Nat → List PoolRolloutState
  | 0 => [⟨"a", some "old", true⟩, ⟨"b", some "old", true⟩]
  | 1 => [⟨"a", some "new", true⟩, ⟨"b", some "old", true⟩]
  | _ => [⟨"a", some "new", true⟩, ⟨"b", some "new", true⟩]

theorem twoPools_rolls (k : Nat) : Rolls "new" (twoPools k) (twoPools (k + 1)) := by
  have hdone : Rolls "new" (twoPools 2) (twoPools 2) := ⟨by decide, by decide⟩
  cases k with
  | zero => exact ⟨by decide, by decide⟩
  | succ k =>
    cases k with
    | zero => exact ⟨by decide, by decide⟩
    | succ k => exact hdone

/-- The pools after a step in which those that have moved have become ready. -/
def afterMove (desired : String) (pools : List PoolRolloutState) : List PoolRolloutState :=
  List.zipWith (fun p entry => if p.currentHash = some entry.2 then p
    else { p with currentHash := some entry.2, ready := true }) pools (planRollout pools desired)

/-- The first pool carries the desired hash already and is not ready. -/
def stalled : List PoolRolloutState := [⟨"a", some "new", false⟩, ⟨"b", some "old", true⟩]

end Sample

theorem twoPools_done : ∀ p ∈ Sample.twoPools 2, p.currentHash = some "new" :=
  ((planRollout_law "new" (Sample.twoPools 0)).2 (by decide)).2.2 Sample.twoPools rfl
    Sample.twoPools_rolls 2 (by decide)

/-- A pool that carries the desired hash without being ready, and that no step moves, holds
    back all later pools. -/
theorem stalled_forever :
    Established "new" Sample.stalled ∧
      ∀ k, (Sample.afterMove "new")^[k] Sample.stalled = Sample.stalled ∧
        ¬ ∀ p ∈ (Sample.afterMove "new")^[k] Sample.stalled, p.currentHash = some "new" := by
  refine ⟨by decide, fun k => ?_⟩
  have hfixed : (Sample.afterMove "new")^[k] Sample.stalled = Sample.stalled :=
    Function.iterate_fixed (by decide) k
  rw [hfixed]
  exact ⟨rfl, by decide⟩

end Cluster
