-- SUMMARY: While loops over one value: after how many turns a loop ends and with which value.
import Mathlib.Logic.Function.Iterate
import Mathlib.Tactic.Common

/-!
# Loops

A loop changes one value while it is busy. It ends at the first value that is not busy,
so the number of its turns and its last value are known from what is busy.
-/

namespace Loop

variable {α : Type} {busy busy' : α → Prop} {next : α → α} {start result result' : α} {k k' : Nat}

/-- The loop from `start` ends after `k` turns with `result`. -/
structure Ends (busy : α → Prop) (next : α → α) (start : α) (k : Nat) (result : α) : Prop where
  turns : ∀ j < k, busy (next^[j] start)
  free : ¬ busy result
  reached : next^[k] start = result

theorem Ends.here (h : ¬ busy start) : Ends busy next start 0 start where
  turns := fun _ hj => absurd hj (Nat.not_lt_zero _)
  free := h
  reached := rfl

theorem Ends.turn (hbusy : busy start) (h : Ends busy next (next start) k result) :
    Ends busy next start (k + 1) result where
  turns := by
    intro j hj
    cases j with
    | zero => exact hbusy
    | succ j => exact h.turns j (Nat.lt_of_succ_lt_succ hj)
  free := h.free
  reached := h.reached

theorem Ends.congr (hiff : ∀ a, busy a ↔ busy' a) (h : Ends busy next start k result) :
    Ends busy' next start k result where
  turns := fun j hj => (hiff _).mp (h.turns j hj)
  free := fun hbusy => h.free ((hiff _).mpr hbusy)
  reached := h.reached

theorem Ends.turns_le (h : Ends busy next start k result) (h' : Ends busy next start k' result') :
    k ≤ k' := by
  by_contra hlt
  exact h'.free (h'.reached ▸ h.turns k' (Nat.lt_of_not_le hlt))

/-- A loop ends in one way. -/
theorem Ends.unique (h : Ends busy next start k result) (h' : Ends busy next start k' result') :
    k = k' ∧ result = result' := by
  have hturns : k = k' := Nat.le_antisymm (h.turns_le h') (h'.turns_le h)
  exact ⟨hturns, by rw [← h.reached, ← h'.reached, hturns]⟩

end Loop
