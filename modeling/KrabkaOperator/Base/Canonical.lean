-- SUMMARY: The canonical form of a list, sorted and without duplicates: it depends on the members of the list only.
import Mathlib.Data.List.Destutter
import Mathlib.Data.List.Sort

/-!
# Canonical lists

A list is brought into canonical form by sorting it and by removing the duplicates
that are then next to each other.
-/

namespace Canonical

/-- A sorted list whose neighbours differ has no duplicates. -/
theorem nodup_of_pairwise {α : Type} {r : α → α → Prop} [Std.Antisymm r] {xs : List α}
    (hsorted : xs.Pairwise r) (hchain : xs.IsChain (· ≠ ·)) : xs.Nodup := by
  induction xs with
  | nil => exact List.nodup_nil
  | cons a xs ih =>
    obtain ⟨hfirst, hrest⟩ := List.pairwise_cons.mp hsorted
    refine List.nodup_cons.mpr ⟨fun hmem => ?_, ih hrest hchain.tail⟩
    cases xs with
    | nil => cases hmem
    | cons b xs =>
      obtain ⟨hne, -⟩ := List.isChain_cons_cons.mp hchain
      rcases List.mem_cons.mp hmem with heq | hlater
      · exact hne heq
      · -- `a` would stand on both sides of `b`.
        have hab : r a b := hfirst b List.mem_cons_self
        have hba : r b a := (List.pairwise_cons.mp hrest).1 a hlater
        exact hne (antisymm hab hba)

variable {α : Type} [DecidableEq α]

theorem mem_destutter' {a b : α} {xs : List α} :
    a ∈ xs.destutter' (· ≠ ·) b ↔ a = b ∨ a ∈ xs := by
  induction xs generalizing b with
  | nil => simp
  | cons x xs ih =>
    by_cases h : b = x
    · subst h
      rw [List.destutter'_cons_neg _ (not_not.mpr rfl), ih, List.mem_cons]
      exact ⟨Or.imp_right .inr, fun hmem => hmem.elim .inl id⟩
    · rw [List.destutter'_cons_pos _ h, List.mem_cons, ih, List.mem_cons]

/-- Only duplicates are removed. -/
@[simp] theorem mem_destutter {a : α} {xs : List α} : a ∈ xs.destutter (· ≠ ·) ↔ a ∈ xs := by
  cases xs with
  | nil => rfl
  | cons x xs => rw [List.destutter_cons', mem_destutter', List.mem_cons]

variable (r : α → α → Prop) [DecidableRel r]

/-- The list in canonical form. -/
def canonical (xs : List α) : List α := (xs.insertionSort r).destutter (· ≠ ·)

variable {r} {xs ys : List α}

@[simp] theorem mem_canonical {a : α} : a ∈ canonical r xs ↔ a ∈ xs := by
  rw [canonical, mem_destutter, List.mem_insertionSort]

section Ordered

variable [Std.Total r] [IsTrans α r]

theorem pairwise_canonical : (canonical r xs).Pairwise r :=
  (List.pairwise_insertionSort r xs).sublist (List.destutter_sublist _ _)

variable [Std.Antisymm r]

theorem nodup_canonical : (canonical r xs).Nodup :=
  nodup_of_pairwise pairwise_canonical (List.isChain_destutter _ _)

/-- Two lists have the same canonical form exactly if they have the same members. -/
theorem canonical_eq_iff : canonical r xs = canonical r ys ↔ ∀ a, a ∈ xs ↔ a ∈ ys := by
  constructor
  · intro h a
    rw [← @mem_canonical _ _ r, h, mem_canonical]
  · intro h
    have hperm : (canonical r xs).Perm (canonical r ys) := by
      refine (List.perm_ext_iff_of_nodup nodup_canonical nodup_canonical).mpr fun a => ?_
      rw [mem_canonical, mem_canonical, h a]
    exact hperm.eq_of_pairwise' pairwise_canonical pairwise_canonical

end Ordered

end Canonical
