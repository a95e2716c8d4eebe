-- SUMMARY: Digests that are known for two values and tell all values apart.
import Mathlib.Logic.Function.Basic
import Mathlib.Tactic.Common

/-!
# Known digests

A digest is known for the values that someone has computed it for. Here it is any text
for the other values.
-/

namespace Digest

variable {α : Type} [DecidableEq α]

/-- The digests `s` of `a` and `t` of `b`, and a text with an `x` in front for each other value. -/
def known (encode : α → List Char) (a b : α) (s t : String) (v : α) : String :=
  if v = a then s else if v = b then t else String.ofList ('x' :: encode v)

variable {encode : α → List Char} {a b : α} {s t : String}

theorem ne_ofList (h : s.toList.head? ≠ some 'x') (text : List Char) :
    s ≠ String.ofList ('x' :: text) := by
  rintro rfl
  rw [String.toList_ofList] at h
  exact h rfl

theorem known_injective (hencode : Function.Injective encode) (hs : s.toList.head? ≠ some 'x')
    (ht : t.toList.head? ≠ some 'x') (hst : s ≠ t) :
    Function.Injective (known encode a b s t) := by
  intro v w h
  unfold known at h
  split at h
  · next hv =>
    split at h
    · next hw => rw [hv, hw]
    · split at h
      · exact absurd h hst
      · exact absurd h (ne_ofList hs _)
  · split at h
    · next hv =>
      split at h
      · exact absurd h.symm hst
      · split at h
        · next hw => rw [hv, hw]
        · exact absurd h (ne_ofList ht _)
    · split at h
      · exact absurd h.symm (ne_ofList hs _)
      · split at h
        · exact absurd h.symm (ne_ofList ht _)
        · have hlist := congrArg String.toList h
          rw [String.toList_ofList, String.toList_ofList] at hlist
          exact hencode (List.cons.inj hlist).2

end Digest
