-- SUMMARY: Decimal numerals of machine integers: parsing with sign and range checks, and the round trip through printing.
import Mathlib.Tactic.Common
import Mathlib.Algebra.Group.Nat.Defs
import Mathlib.Algebra.Group.Int.Defs
import Mathlib.Data.Int.Basic
import Mathlib.Data.Nat.Basic

/-!
# Decimal numerals

Parsing reads an optional sign and a non-empty run of ASCII digits, and rejects
a value that the target type cannot hold. Printing is `toString`.
-/

namespace Decimal

/-- The value of a non-empty run of digits. -/
def parseDigits (s : List Char) : Option Nat :=
  if s ≠ [] ∧ s.all Char.isDigit then some (Nat.ofDigitChars 10 s 0) else none

/-- Parse an unsigned integer below `bound`. -/
def parseUnsigned (bound : Nat) (s : String) : Option Nat :=
  (match s.toList with
    | '+' :: ds => parseDigits ds
    | ds => parseDigits ds).filter (· < bound)

/-- Parse a signed integer in `[-bound, bound)`. -/
def parseSigned (bound : Nat) (s : String) : Option Int :=
  (match s.toList with
    | '+' :: ds => (parseDigits ds).map Int.ofNat
    | '-' :: ds => (parseDigits ds).map (fun n => -(n : Int))
    | ds => (parseDigits ds).map Int.ofNat).filter (fun i => -(bound : Int) ≤ i ∧ i < bound)

def parseU64 : String → Option Nat := parseUnsigned (2 ^ 64)

def parseI32 : String → Option Int := parseSigned (2 ^ 31)

/-! ## Round trip -/

theorem parseDigits_toDigits (n : Nat) : parseDigits (Nat.toDigits 10 n) = some n := by
  have hdigits : ∀ c ∈ Nat.toDigits 10 n, c.isDigit = true :=
    fun c hc => Nat.isDigit_of_mem_toDigits (by decide) (by decide) hc
  simp only [parseDigits, ne_eq, Nat.toDigits_ne_nil, not_false_eq_true, List.all_eq_true, true_and]
  rw [if_pos hdigits, Nat.ofDigitChars_ten_toDigits]

theorem toDigits_head_ne {n : Nat} {c : Char} (hc : c.isDigit = false) (ds : List Char) :
    Nat.toDigits 10 n ≠ c :: ds := by
  intro h
  have hmem : c ∈ Nat.toDigits 10 n := by simp [h]
  have := Nat.isDigit_of_mem_toDigits (by decide) (by decide) hmem
  simp [hc] at this

theorem parseUnsigned_toString {bound n : Nat} (h : n < bound) :
    parseUnsigned bound (toString n) = some n := by
  have hlist : (toString n).toList = Nat.toDigits 10 n := Nat.toList_repr
  simp only [parseUnsigned, hlist]
  split
  · rename_i ds hd
    exact absurd hd (toDigits_head_ne (by decide) ds)
  · simp [parseDigits_toDigits, h]

@[simp] theorem parseU64_toString {n : Nat} (h : n < 2 ^ 64) : parseU64 (toString n) = some n :=
  parseUnsigned_toString h

theorem parseSigned_toString {bound : Nat} {i : Int} (h : -(bound : Int) ≤ i ∧ i < bound) :
    parseSigned bound (toString i) = some i := by
  cases i with
  | ofNat n =>
    have hlist : (toString (Int.ofNat n)).toList = Nat.toDigits 10 n := Nat.toList_repr
    simp only [parseSigned, hlist]
    split
    · rename_i ds hd
      exact absurd hd (toDigits_head_ne (by decide) ds)
    · rename_i ds hd
      exact absurd hd (toDigits_head_ne (by decide) ds)
    · simpa [parseDigits_toDigits] using h
  | negSucc n =>
    have hlist : (toString (Int.negSucc n)).toList = '-' :: Nat.toDigits 10 (n + 1) := by
      have : toString (Int.negSucc n) = "-" ++ (n + 1).repr := rfl
      rw [this, String.toList_append, Nat.toList_repr]
      rfl
    simp only [parseSigned, hlist, parseDigits_toDigits]
    exact Option.filter_eq_some_iff.mpr ⟨rfl, decide_eq_true h⟩

/-- The text of a number stands for no other number. -/
theorem eq_of_parseSigned_toString {bound : Nat} {i j : Int}
    (h : parseSigned bound (toString i) = some j) : j = i := by
  have hrange : -(bound : Int) ≤ j ∧ j < bound := by
    simpa using (Option.filter_eq_some_iff.mp h).2
  have hwide : parseSigned (bound + i.natAbs + 1) (toString i) = some i :=
    parseSigned_toString (by omega)
  have hsame : parseSigned (bound + i.natAbs + 1) (toString i) = some j := by
    refine Option.filter_eq_some_iff.mpr ⟨(Option.filter_eq_some_iff.mp h).1, ?_⟩
    simp only [decide_eq_true_eq]
    omega
  exact Option.some.inj (hsame.symm.trans hwide)

theorem toString_injective {i j : Int} (h : toString i = toString j) : i = j := by
  have hparse : parseSigned (i.natAbs + 1) (toString i) = some i := parseSigned_toString (by omega)
  rw [h] at hparse
  exact eq_of_parseSigned_toString hparse

@[simp] theorem parseI32_toString {i : Int} (h : -(2 ^ 31 : Int) ≤ i ∧ i < 2 ^ 31) :
    parseI32 (toString i) = some i :=
  parseSigned_toString (by simpa using h)

/-- Digits and signs are all there is in the text of a number. -/
theorem not_mem_toString {i : Int} {c : Char} (hdigit : c.isDigit = false) (hsign : c ≠ '-') :
    c ∉ (toString i).toList := by
  have hdigits (n : Nat) : c ∉ Nat.toDigits 10 n := by
    intro hc
    have := Nat.isDigit_of_mem_toDigits (by decide) (by decide) hc
    rw [hdigit] at this
    cases this
  cases i with
  | ofNat n =>
    have hlist : (toString (Int.ofNat n)).toList = Nat.toDigits 10 n := Nat.toList_repr
    rw [hlist]
    exact hdigits n
  | negSucc n =>
    have hlist : (toString (Int.negSucc n)).toList = '-' :: Nat.toDigits 10 (n + 1) := by
      have : toString (Int.negSucc n) = "-" ++ (n + 1).repr := rfl
      rw [this, String.toList_append, Nat.toList_repr]
      rfl
    rw [hlist, List.mem_cons, not_or]
    exact ⟨hsign, hdigits _⟩

theorem dash_not_mem_toString {i : Int} (h : 0 ≤ i) : '-' ∉ (toString i).toList := by
  obtain ⟨n, rfl⟩ := Int.eq_ofNat_of_zero_le h
  intro hmem
  rw [show (toString (n : Int)).toList = Nat.toDigits 10 n from Nat.toList_repr] at hmem
  exact absurd (Nat.isDigit_of_mem_toDigits (by decide) (by decide) hmem) (by decide)

end Decimal
