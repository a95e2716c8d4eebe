-- SUMMARY: Lists written with a separator: when they split into the same pieces, and cutting at the last separator.
import Mathlib.Data.List.Basic
import Mathlib.Tactic.Common

/-!
# Separated lists

Pieces are joined with one separator between each two of them. Splitting the result gives
as many pieces as were joined just when no piece has the separator in it, and then it
gives the pieces.
-/

namespace Separated

variable {α : Type} [DecidableEq α] {x : α} {ls : List (List α)}

/-! ## Counting pieces -/

theorem length_splitOn (x : α) (xs : List α) : (xs.splitOn x).length = xs.count x + 1 := by
  induction xs with
  | nil => simp
  | cons c cs ih =>
    rw [List.splitOn_cons_eq_if_modifyHead]
    by_cases h : c = x
    · simp [h, ih]
    · simp [h, ih]

theorem count_intercalate (x : α) (h : ls ≠ []) :
    ([x].intercalate ls).count x + 1 = ls.flatten.count x + ls.length := by
  induction ls with
  | nil => exact absurd rfl h
  | cons l ls ih =>
    cases ls with
    | nil => simp
    | cons l' ls =>
      have := ih (List.cons_ne_nil l' ls)
      simp only [List.intercalate_cons_cons, List.count_append, List.count_singleton_self,
        List.flatten_cons, List.length_cons] at this ⊢
      omega

/-- The pieces come back in number just when none has the separator. -/
theorem length_splitOn_intercalate (h : ls ≠ []) :
    (([x].intercalate ls).splitOn x).length = ls.length ↔ ∀ l ∈ ls, x ∉ l := by
  have hcount := count_intercalate x h
  have hnone : ls.flatten.count x = 0 ↔ ∀ l ∈ ls, x ∉ l := by
    simp only [List.count_eq_zero, List.mem_flatten, not_exists, not_and]
  rw [length_splitOn, ← hnone]
  omega

/-- Pieces without the separator are known from the joined list. -/
theorem intercalate_injective {ls' : List (List α)} (hls : ls ≠ []) (hls' : ls' ≠ [])
    (h : ∀ l ∈ ls, x ∉ l) (h' : ∀ l ∈ ls', x ∉ l)
    (heq : [x].intercalate ls = [x].intercalate ls') : ls = ls' := by
  rw [← List.splitOn_intercalate x h hls, heq, List.splitOn_intercalate x h' hls']

/-- Of two joined lists with as many pieces, only one has to be free of the separator. -/
theorem intercalate_inj_of_length {ls' : List (List α)} (hlen : ls.length = ls'.length)
    (h : ∀ l ∈ ls, x ∉ l) (heq : [x].intercalate ls = [x].intercalate ls') : ls = ls' := by
  by_cases hls : ls = []
  · subst hls
    exact (List.length_eq_zero_iff.mp hlen.symm).symm
  · have hls' : ls' ≠ [] := fun hnil => hls (List.length_eq_zero_iff.mp (by simp [hlen, hnil]))
    have h' : ∀ l ∈ ls', x ∉ l := by
      rw [← length_splitOn_intercalate hls', ← heq, ← hlen]
      exact (length_splitOn_intercalate hls).mpr h
    exact intercalate_injective hls hls' h h' heq

omit [DecidableEq α] in
/-- A joined list shows a change of one of its pieces. -/
theorem intercalate_append_cons_inj {sep l l' : List α} {front back : List (List α)} :
    sep.intercalate (front ++ l :: back) = sep.intercalate (front ++ l' :: back) ↔ l = l' := by
  constructor
  · intro heq
    induction front with
    | nil =>
      cases back with
      | nil => simpa using heq
      | cons b bs => simpa [List.intercalate_cons_cons] using heq
    | cons f fs ih =>
      refine ih ?_
      cases fs with
      | nil => simpa [List.intercalate_cons_cons] using heq
      | cons g gs => simpa [List.intercalate_cons_cons] using heq
  · exact fun h => by rw [h]

/-! ## The last separator -/

/-- What is before and behind the last separator. -/
def splitLast (x : α) : List α → Option (List α × List α)
  | [] => none
  | c :: cs =>
    match splitLast x cs with
    | some (front, back) => some (c :: front, back)
    | none => if c = x then some ([], cs) else none

theorem splitLast_of_notMem {xs : List α} (h : x ∉ xs) : splitLast x xs = none := by
  induction xs with
  | nil => rfl
  | cons c cs ih =>
    obtain ⟨hne, hcs⟩ := not_or.mp fun hx => h (List.mem_cons.mpr hx)
    simp [splitLast, ih hcs, Ne.symm hne]

theorem splitLast_append {front back : List α} (h : x ∉ back) :
    splitLast x (front ++ x :: back) = some (front, back) := by
  induction front with
  | nil => simp [splitLast, splitLast_of_notMem h]
  | cons c cs ih => simp [splitLast, ih]

/-! ## Two cuts of one list -/

omit [DecidableEq α] in
/-- Two lists around a separator are the same when they are cut at the same place, or when
    one is cut inside a part of the other one. -/
theorem append_cons_eq_append_cons {front back front' back' : List α} :
    front ++ x :: back = front' ++ x :: back' ↔
      (front = front' ∧ back = back') ∨
      (∃ mid, front = front' ++ x :: mid ∧ back' = mid ++ x :: back) ∨
      (∃ mid, front' = front ++ x :: mid ∧ back = mid ++ x :: back') := by
  rw [List.append_eq_append_iff]
  constructor
  · rintro (⟨mid, rfl, hback⟩ | ⟨mid, rfl, hback⟩)
    · rcases List.cons_eq_append_iff.mp hback with ⟨rfl, h⟩ | ⟨mid', rfl, h⟩
      · cases h
        exact .inl ⟨by simp, rfl⟩
      · exact .inr (.inr ⟨mid', rfl, h⟩)
    · rcases List.cons_eq_append_iff.mp hback with ⟨rfl, h⟩ | ⟨mid', rfl, h⟩
      · cases h
        exact .inl ⟨by simp, rfl⟩
      · exact .inr (.inl ⟨mid', rfl, h⟩)
  · rintro (⟨rfl, rfl⟩ | ⟨mid, rfl, rfl⟩ | ⟨mid, rfl, rfl⟩)
    · exact .inl ⟨[], by simp, rfl⟩
    · exact .inr ⟨x :: mid, rfl, by simp⟩
    · exact .inl ⟨x :: mid, rfl, by simp⟩

omit [DecidableEq α] in
/-- A list is cut at its first separator in one way. -/
theorem append_cons_inj_of_front {front back front' back' : List α} (h : x ∉ front)
    (h' : x ∉ front') :
    front ++ x :: back = front' ++ x :: back' ↔ front = front' ∧ back = back' := by
  rw [append_cons_eq_append_cons]
  constructor
  · rintro (heq | ⟨mid, rfl, -⟩ | ⟨mid, rfl, -⟩)
    · exact heq
    · exact absurd (List.mem_append_right front' List.mem_cons_self) h
    · exact absurd (List.mem_append_right front List.mem_cons_self) h'
  · exact .inl

/-- Two names of the form `a-b` are the same when they have the same parts, or when one has
    its dash inside a part of the other one. -/
theorem dash_eq_dash {a b c d : String} :
    a ++ "-" ++ b = c ++ "-" ++ d ↔
      (a = c ∧ b = d) ∨ (∃ r, a = c ++ "-" ++ r ∧ d = r ++ "-" ++ b) ∨
      (∃ r, c = a ++ "-" ++ r ∧ b = r ++ "-" ++ d) := by
  have hdash (s t : String) : (s ++ "-" ++ t).toList = s.toList ++ '-' :: t.toList := by
    simp [String.toList_append]
  have hexists (P : List Char → Prop) : (∃ r : String, P r.toList) ↔ ∃ l, P l :=
    ⟨fun ⟨r, h⟩ => ⟨r.toList, h⟩, fun ⟨l, h⟩ => ⟨String.ofList l, by simpa using h⟩⟩
  simp only [← String.toList_inj, hdash, append_cons_eq_append_cons]
  rw [hexists fun r => a.toList = c.toList ++ '-' :: r ∧ d.toList = r ++ '-' :: b.toList,
    hexists fun r => c.toList = a.toList ++ '-' :: r ∧ b.toList = r ++ '-' :: d.toList]

/-- A name is cut at its last dash in one way. -/
theorem eq_of_dash_eq_dash {a b c d : String} (hb : '-' ∉ b.toList) (hd : '-' ∉ d.toList)
    (h : a ++ "-" ++ b = c ++ "-" ++ d) : a = c ∧ b = d := by
  rcases dash_eq_dash.mp h with h | ⟨r, -, rfl⟩ | ⟨r, -, rfl⟩
  · exact h
  · simp [String.toList_append] at hd
  · simp [String.toList_append] at hb

end Separated
