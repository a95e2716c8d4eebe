-- SUMMARY: Closed intervals in the order of their first points: they are disjoint when each ends before the next begins.
import Mathlib

/-!
# Disjoint intervals

A list of nonempty closed intervals that is sorted by the first points needs no
comparison of all pairs.
-/

namespace Intervals

variable {α β : Type} [LinearOrder α] {lo hi : β → α}

/-- The points of an interval. -/
def points (lo hi : β → α) (x : β) : Set α := Set.Icc (lo x) (hi x)

theorem disjoint_iff {x y : β} (hy : lo y ≤ hi y) (hle : lo x ≤ lo y) :
    Disjoint (points lo hi x) (points lo hi y) ↔ hi x < lo y := by
  constructor
  · intro h
    by_contra hreach
    exact Set.disjoint_left.mp h ⟨hle, not_lt.mp hreach⟩ ⟨le_rfl, hy⟩
  · intro h
    apply Set.disjoint_left.mpr
    intro p hx hy
    exact absurd (hx.2.trans_lt h) (not_lt.mpr hy.1)

/-- Sorted intervals are pairwise disjoint when neighbours are. -/
theorem pairwise_disjoint_iff_isChain {l : List β} (hne : ∀ x ∈ l, lo x ≤ hi x)
    (hsorted : l.Pairwise fun x y => lo x ≤ lo y) :
    (l.Pairwise fun x y => Disjoint (points lo hi x) (points lo hi y)) ↔
      l.IsChain fun x y => hi x < lo y := by
  induction l with
  | nil => simp
  | cons a l ih =>
    obtain ⟨hfirst, hrest⟩ := List.pairwise_cons.mp hsorted
    have ih := ih (fun x hx => hne x (List.mem_cons_of_mem _ hx)) hrest
    have hdisjoint {x : β} (hx : x ∈ l) :
        Disjoint (points lo hi a) (points lo hi x) ↔ hi a < lo x :=
      disjoint_iff (hne x (List.mem_cons_of_mem _ hx)) (hfirst x hx)
    cases l with
    | nil => simp
    | cons b l =>
      rw [List.pairwise_cons, List.isChain_cons_cons, ih]
      constructor
      · rintro ⟨h, hchain⟩
        exact ⟨(hdisjoint List.mem_cons_self).mp (h b List.mem_cons_self), hchain⟩
      · rintro ⟨h, hchain⟩
        refine ⟨fun x hx => (hdisjoint hx).mpr ?_, hchain⟩
        rcases List.mem_cons.mp hx with rfl | hmem
        · exact h
        · exact h.trans_le ((List.pairwise_cons.mp hrest).1 x hmem)

end Intervals
