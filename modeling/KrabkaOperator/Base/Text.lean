-- SUMMARY: Text scanning on lists of characters: first occurrence of a pattern, and trimming of white space.
import Mathlib.Tactic.Common
import Mathlib.Data.List.Basic
import Mathlib.Data.List.Infix

/-!
# Scanning text

Texts are lists of characters here; a `String` is scanned through `toList`.
`find` is the position of the first occurrence of a pattern, counted in
characters.
-/

namespace Text

/-- Position of the first occurrence of `pat`. -/
def find (pat : List Char) : List Char → Option Nat
  | [] => if pat = [] then some 0 else none
  | c :: cs => if pat.isPrefixOf (c :: cs) then some 0 else (find pat cs).map (· + 1)

/-- The white space of Unicode (`White_Space`). -/
def isWhitespace (c : Char) : Bool :=
  let n := c.toNat
  (9 ≤ n && n ≤ 13) || n == 0x20 || n == 0x85 || n == 0xA0 || n == 0x1680 ||
    (0x2000 ≤ n && n ≤ 0x200A) || n == 0x2028 || n == 0x2029 || n == 0x202F || n == 0x205F ||
    n == 0x3000

def trimStart (s : List Char) : List Char := s.dropWhile isWhitespace

def trimEnd (s : List Char) : List Char := (s.reverse.dropWhile isWhitespace).reverse

/-- Remove the white space at both ends. -/
def trim (s : List Char) : List Char := trimEnd (trimStart s)

/-! ## Texts in messages -/

/-- A character inside a quoted text. `printable` tells which characters beyond ASCII are
    shown as they are. -/
def debugChar (printable : Char → Bool) (c : Char) : List Char :=
  if c.toNat = 0 then ['\\', '0']
  else if c = '\t' then ['\\', 't']
  else if c = '\r' then ['\\', 'r']
  else if c = '\n' then ['\\', 'n']
  else if c = '"' ∨ c = '\\' then ['\\', c]
  else if (if c.toNat < 0x80 then 0x20 ≤ c.toNat ∧ c.toNat < 0x7F else printable c) then [c]
  else "\\u\x7b".toList ++ Nat.toDigits 16 c.toNat ++ "\x7d".toList

/-- A text in quotes. -/
def debug (printable : Char → Bool) (s : List Char) : String :=
  "\"" ++ String.ofList (s.flatMap (debugChar printable)) ++ "\""

/-! ## First occurrence -/

theorem find_eq_zero_of_prefix {pat s : List Char} (h : pat <+: s) : find pat s = some 0 := by
  cases s with
  | nil => simp [find, List.prefix_nil.mp h]
  | cons c cs => simp [find, List.isPrefixOf_iff_prefix.mpr h]

theorem find_prefix {pat s : List Char} {i : Nat} (h : find pat s = some i) : pat <+: s.drop i := by
  induction s generalizing i with
  | nil =>
    simp only [find] at h
    split at h
    · rename_i hp
      simp [hp]
    · cases h
  | cons c cs ih =>
    simp only [find] at h
    split at h
    · rename_i hp
      cases h
      exact List.isPrefixOf_iff_prefix.mp hp
    · obtain ⟨j, hj, rfl⟩ := Option.map_eq_some_iff.mp h
      simpa using ih hj

theorem find_add_length_le {pat s : List Char} {i : Nat} (h : find pat s = some i) :
    i + pat.length ≤ s.length := by
  induction s generalizing i with
  | nil =>
    simp only [find] at h
    split at h
    · rename_i hp
      cases h
      simp [hp]
    · cases h
  | cons c cs ih =>
    simp only [find] at h
    split at h
    · rename_i hp
      cases h
      simpa using (List.isPrefixOf_iff_prefix.mp hp).length_le
    · obtain ⟨j, hj, rfl⟩ := Option.map_eq_some_iff.mp h
      have := ih hj
      simp only [List.length_cons]
      omega

/-- A first occurrence stays the first one when text is added behind it. -/
theorem find_append {pat s : List Char} (t : List Char) {i : Nat} (h : find pat s = some i) :
    find pat (s ++ t) = some i := by
  induction s generalizing i with
  | nil =>
    simp only [find] at h
    split at h
    · rename_i hp
      cases h
      exact find_eq_zero_of_prefix (by simp [hp])
    · cases h
  | cons c cs ih =>
    simp only [find] at h
    split at h
    · rename_i hp
      cases h
      have hpre := List.isPrefixOf_iff_prefix.mp hp
      exact find_eq_zero_of_prefix (hpre.trans (List.prefix_append _ _))
    · rename_i hp
      obtain ⟨j, hj, rfl⟩ := Option.map_eq_some_iff.mp h
      have hlen := find_add_length_le hj
      -- The pattern is no longer than `cs`, so it cannot reach into `t`.
      have hnot : ¬ pat.isPrefixOf (c :: (cs ++ t)) = true := by
        intro hpre
        apply hp
        have hpre' : pat <+: (c :: cs) ++ t := List.isPrefixOf_iff_prefix.mp hpre
        have hself : (c :: cs) <+: (c :: cs) ++ t := List.prefix_append _ _
        exact List.isPrefixOf_iff_prefix.mpr
          (List.prefix_of_prefix_length_le hpre' hself (by simp; omega))
      simp [find, hnot, ih hj]

/-- A character that the pattern does not start with only shifts the search. -/
theorem find_cons_of_ne {p c : Char} {ps s : List Char} (h : p ≠ c) :
    find (p :: ps) (c :: s) = (find (p :: ps) s).map (· + 1) := by
  simp [find, List.isPrefixOf, h]

/-! ## Trimming -/

theorem trimStart_cons {c : Char} {s : List Char} (h : isWhitespace c = false) :
    trimStart (c :: s) = c :: s := by
  simp [trimStart, h]

theorem trimEnd_concat {c : Char} {s : List Char} (h : isWhitespace c = false) :
    trimEnd (s ++ [c]) = s ++ [c] := by
  simp [trimEnd, h]

theorem trim_eq_self {s : List Char} (h : ∀ c ∈ s, isWhitespace c = false) : trim s = s := by
  have hdrop : ∀ l : List Char, (∀ c ∈ l, isWhitespace c = false) → l.dropWhile isWhitespace = l := by
    intro l hl
    cases l with
    | nil => rfl
    | cons c cs => rw [List.dropWhile_cons, hl c List.mem_cons_self, if_neg Bool.false_ne_true]
  rw [trim, trimStart, hdrop s h, trimEnd, hdrop s.reverse fun c hc => h c (List.mem_reverse.mp hc),
    List.reverse_reverse]

theorem isWhitespace_of_isDigit {c : Char} (h : c.isDigit = true) : isWhitespace c = false := by
  have hrange : 48 ≤ c.toNat ∧ c.toNat ≤ 57 := Char.isDigit_iff_toNat.mp h
  simp only [isWhitespace, Bool.or_eq_false_iff, Bool.and_eq_false_iff, decide_eq_false_iff_not,
    beq_eq_false_iff_ne]
  omega

/-! ## Suffixes -/

/-- Texts with suffixes of which neither ends in the other one are different. -/
theorem append_ne_append {a b s t : String} (hs : ¬ s.toList <:+ t.toList)
    (ht : ¬ t.toList <:+ s.toList) : a ++ s ≠ b ++ t := by
  intro h
  have heq : a.toList ++ s.toList = b.toList ++ t.toList := by
    rw [← String.toList_append, h, String.toList_append]
  rcases List.suffix_or_suffix_of_suffix (List.suffix_append a.toList s.toList)
    (heq ▸ List.suffix_append b.toList t.toList) with h | h
  · exact hs h
  · exact ht h

end Text
