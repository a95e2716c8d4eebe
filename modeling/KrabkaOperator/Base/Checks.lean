-- SUMMARY: Sequences of checks that stop at the first error: when they succeed.
import Mathlib.Data.List.Forall2
import Mathlib.Tactic.Common

/-!
# Checks

A check is an `Except` without a value. A sequence of checks succeeds when each of
them does.
-/

namespace Checks

variable {ε α β : Type}

theorem bind_eq_ok {x : Except ε α} {f : α → Except ε β} {b : β} :
    (x >>= f) = .ok b ↔ ∃ a, x = .ok a ∧ f a = .ok b := by
  cases x with
  | error e =>
    constructor
    · intro h
      cases h
    · rintro ⟨a, h, -⟩
      cases h
  | ok a =>
    constructor
    · intro h
      exact ⟨a, rfl, h⟩
    · rintro ⟨a', h, hf⟩
      cases h
      exact hf

/-- A check that throws on a condition, before the rest. -/
theorem guard_eq_ok {c : Prop} [Decidable c] {e : ε} {f : α → Except ε β} {rest : Except ε β}
    {b : β} : (if c then (throw e : Except ε α) >>= f else rest) = .ok b ↔ ¬ c ∧ rest = .ok b := by
  by_cases h : c
  · rw [if_pos h]
    constructor
    · intro h'
      cases h'
    · rintro ⟨hc, -⟩
      exact absurd h hc
  · rw [if_neg h]
    exact ⟨fun hrest => ⟨h, hrest⟩, And.right⟩

/-- A last check that throws on a condition. -/
theorem guard_pure_eq_ok {c : Prop} [Decidable c] {e : ε} {u : Unit} :
    (if c then throw e else pure () : Except ε Unit) = .ok u ↔ ¬ c := by
  by_cases h : c
  · rw [if_pos h]
    constructor
    · intro h'
      cases h'
    · intro hc
      exact absurd h hc
  · rw [if_neg h]
    exact ⟨fun _ => h, fun _ => rfl⟩

/-! ## Errors -/

theorem bind_eq_error {x : Except ε α} {f : α → Except ε β} {e : ε} :
    (x >>= f) = .error e ↔ x = .error e ∨ ∃ a, x = .ok a ∧ f a = .error e := by
  cases x with
  | error e' =>
    constructor
    · intro h
      cases h
      exact .inl rfl
    · rintro (h | ⟨a, h, -⟩)
      · cases h
        rfl
      · cases h
  | ok a =>
    constructor
    · intro h
      exact .inr ⟨a, rfl, h⟩
    · rintro (h | ⟨a', h, hf⟩)
      · cases h
      · cases h
        exact hf

/-- A check that throws on a condition, before the rest, fails there or in the rest. -/
theorem guard_eq_error {c : Prop} [Decidable c] {e e' : ε} {f : α → Except ε β}
    {rest : Except ε β} :
    (if c then (throw e : Except ε α) >>= f else rest) = .error e' ↔
      (c ∧ e' = e) ∨ (¬ c ∧ rest = .error e') := by
  by_cases h : c
  · rw [if_pos h]
    constructor
    · intro h'
      cases h'
      exact .inl ⟨h, rfl⟩
    · rintro (⟨-, rfl⟩ | ⟨hc, -⟩)
      · rfl
      · exact absurd h hc
  · rw [if_neg h]
    simp [h]

theorem exists_of_mapM_eq_error {f : α → Except ε β} {xs : List α} {e : ε}
    (h : xs.mapM f = .error e) : ∃ x ∈ xs, f x = .error e := by
  induction xs with
  | nil => cases h
  | cons x xs ih =>
    rw [List.mapM_cons] at h
    rcases bind_eq_error.mp h with hx | ⟨y, -, h⟩
    · exact ⟨x, List.mem_cons_self, hx⟩
    · rcases bind_eq_error.mp h with hxs | ⟨ys, -, h⟩
      · obtain ⟨x', hx', heq⟩ := ih hxs
        exact ⟨x', List.mem_cons_of_mem x hx', heq⟩
      · cases h

/-! ## One check after another -/

theorem then_eq_ok {x : Except ε Unit} {y : Except ε β} {b : β} :
    (x >>= fun _ => y) = .ok b ↔ x = .ok () ∧ y = .ok b := by
  constructor
  · intro h
    obtain ⟨u, hx, hy⟩ := bind_eq_ok.mp h
    exact ⟨hx, hy⟩
  · rintro ⟨hx, hy⟩
    exact bind_eq_ok.mpr ⟨(), hx, hy⟩

theorem then_eq_error {x : Except ε Unit} {y : Except ε β} {e : ε} :
    (x >>= fun _ => y) = .error e ↔ x = .error e ∨ x = .ok () ∧ y = .error e := by
  rw [bind_eq_error]
  constructor
  · rintro (hx | ⟨u, hx, hy⟩)
    · exact Or.inl hx
    · exact Or.inr ⟨hx, hy⟩
  · rintro (hx | ⟨hx, hy⟩)
    · exact Or.inl hx
    · exact Or.inr ⟨(), hx, hy⟩

/-! ## Traversals -/

theorem forM_eq_ok {f : α → Except ε Unit} {xs : List α} {u : Unit} :
    xs.forM f = .ok u ↔ ∀ x ∈ xs, f x = .ok () := by
  induction xs with
  | nil => simp [List.forM, pure, Except.pure]
  | cons x xs ih =>
    change (f x >>= fun _ => xs.forM f) = .ok u ↔ _
    simp only [bind_eq_ok, ih, List.mem_cons, forall_eq_or_imp]
    constructor
    · rintro ⟨u, hx, hs⟩
      exact ⟨hx, hs⟩
    · rintro ⟨hx, hs⟩
      exact ⟨(), hx, hs⟩

/-- A traversal that fails has an entry whose check does. -/
theorem exists_of_forM_eq_error {f : α → Except ε Unit} {xs : List α} {e : ε}
    (h : xs.forM f = .error e) : ∃ x ∈ xs, f x = .error e := by
  induction xs with
  | nil => cases h
  | cons x xs ih =>
    change (f x >>= fun _ => xs.forM f) = .error e at h
    cases hx : f x with
    | error e' =>
      rw [hx] at h
      cases h
      exact ⟨x, List.mem_cons_self, hx⟩
    | ok u =>
      rw [hx] at h
      obtain ⟨y, hy, heq⟩ := ih h
      exact ⟨y, List.mem_cons_of_mem x hy, heq⟩

theorem forM_congr {f g : α → Except ε Unit} {xs : List α} (h : ∀ x ∈ xs, f x = g x) :
    xs.forM f = xs.forM g := by
  induction xs with
  | nil => rfl
  | cons x xs ih =>
    obtain ⟨hx, hxs⟩ := List.forall_mem_cons.mp h
    change (f x >>= fun _ => xs.forM f) = (g x >>= fun _ => xs.forM g)
    rw [hx, ih hxs]

/-- A traversal whose check passes on a condition, and then has a known value. -/
theorem mapM_eq_ok {f : α → Except ε β} {P : α → Prop} {g : α → β} {xs : List α} {ys : List β}
    (h : ∀ x y, f x = .ok y ↔ P x ∧ y = g x) :
    xs.mapM f = .ok ys ↔ (∀ x ∈ xs, P x) ∧ ys = xs.map g := by
  induction xs generalizing ys with
  | nil =>
    constructor
    · intro heq
      cases heq
      exact ⟨nofun, rfl⟩
    · rintro ⟨-, rfl⟩
      rfl
  | cons x xs ih =>
    rw [List.mapM_cons, bind_eq_ok]
    simp only [bind_eq_ok, h, ih, List.forall_mem_cons, List.map_cons]
    constructor
    · rintro ⟨y, ⟨hx, rfl⟩, zs, ⟨hxs, rfl⟩, heq⟩
      cases heq
      exact ⟨⟨hx, hxs⟩, rfl⟩
    · rintro ⟨⟨hx, hxs⟩, rfl⟩
      exact ⟨g x, ⟨hx, rfl⟩, xs.map g, ⟨hxs, rfl⟩, rfl⟩

/-- A traversal succeeds when its check does on each entry, and its values are the ones of the
    entries. -/
theorem mapM_eq_ok_iff {f : α → Except ε β} {xs : List α} {ys : List β} :
    xs.mapM f = .ok ys ↔ List.Forall₂ (fun x y => f x = .ok y) xs ys := by
  induction xs generalizing ys with
  | nil =>
    rw [List.forall₂_nil_left_iff]
    constructor
    · intro heq
      cases heq
      rfl
    · rintro rfl
      rfl
  | cons x xs ih =>
    rw [List.mapM_cons, bind_eq_ok, List.forall₂_cons_left_iff]
    simp only [bind_eq_ok, ih]
    constructor
    · rintro ⟨y, hy, zs, hzs, heq⟩
      cases heq
      exact ⟨y, zs, hy, hzs, rfl⟩
    · rintro ⟨y, zs, hy, hzs, rfl⟩
      exact ⟨y, hy, zs, hzs, rfl⟩

theorem exists_mapM_eq_ok {f : α → Except ε β} {xs : List α} (h : ∀ x ∈ xs, ∃ y, f x = .ok y) :
    ∃ ys, xs.mapM f = .ok ys := by
  induction xs with
  | nil => exact ⟨[], rfl⟩
  | cons x xs ih =>
    obtain ⟨⟨y, hy⟩, hrest⟩ := List.forall_mem_cons.mp h
    obtain ⟨ys, hys⟩ := ih hrest
    exact ⟨y :: ys, mapM_eq_ok_iff.mpr (.cons hy (mapM_eq_ok_iff.mp hys))⟩

/-- The values of a traversal are those of its entries. -/
theorem mem_of_mapM_eq_ok {f : α → Except ε β} {xs : List α} {ys : List β}
    (h : xs.mapM f = .ok ys) {y : β} : y ∈ ys ↔ ∃ x ∈ xs, f x = .ok y := by
  have hall := mapM_eq_ok_iff.mp h
  clear h
  induction hall with
  | nil => simp
  | cons hy _ ih =>
    simp only [List.mem_cons, ih, or_and_right, exists_or, exists_eq_left, hy, Except.ok.injEq,
      @eq_comm _ y]

/-- Each entry of a traversal has its value. -/
theorem exists_of_mapM_eq_ok {f : α → Except ε β} {xs : List α} {ys : List β}
    (h : xs.mapM f = .ok ys) {x : α} (hx : x ∈ xs) : ∃ y ∈ ys, f x = .ok y := by
  have hall := mapM_eq_ok_iff.mp h
  clear h
  induction hall with
  | nil => cases hx
  | @cons x' y xs ys hy _ ih =>
    rcases List.mem_cons.mp hx with rfl | hx
    · exact ⟨y, List.mem_cons_self, hy⟩
    · obtain ⟨y', hy', heq⟩ := ih hx
      exact ⟨y', List.mem_cons_of_mem _ hy', heq⟩

end Checks
