-- SUMMARY: The value of a quantity as Kubernetes reads it, and how far the parser of the operator agrees with it.
import KrabkaOperator.Base.Checks
import KrabkaOperator.Kube.Quantity
import Mathlib.Algebra.Order.Field.Rat
import Mathlib.Algebra.Order.Field.Basic
import Mathlib.Data.List.TakeWhile
import Mathlib.Data.Nat.Cast.Order.Field
import Mathlib.Tactic.FieldSimp
import Mathlib.Tactic.NormNum
import Mathlib.Tactic.Ring

/-!
# Exact quantities

A quantity is a signed decimal number with a suffix: a power of 1000 from `n` to `E`, a power of
1024, or an exponent. The parser of the operator reads fewer texts, rounds down, and reads `K`,
which is no suffix here.
-/

namespace Kube

/-! ## Values -/

def suffixValues : List (List Char × ℚ) :=
  [("n".toList, 1 / 1000000000), ("u".toList, 1 / 1000000), ("m".toList, 1 / 1000), ([], 1),
    ("k".toList, 1000), ("M".toList, 1000000), ("G".toList, 1000000000),
    ("T".toList, 1000000000000), ("P".toList, 1000000000000000),
    ("E".toList, 1000000000000000000), ("Ki".toList, 1024), ("Mi".toList, 1048576),
    ("Gi".toList, 1073741824), ("Ti".toList, 1099511627776), ("Pi".toList, 1125899906842624),
    ("Ei".toList, 1152921504606846976)]

/-- A run of digits, with at least one. -/
def digits? (s : List Char) : Option Nat :=
  if s ≠ [] ∧ s.all Char.isDigit then some (Nat.ofDigitChars 10 s 0) else none

def exponentValue : List Char → Option ℚ
  | '-' :: digits => (digits? digits).map fun n => 1 / 10 ^ n
  | '+' :: digits => (digits? digits).map fun n => 10 ^ n
  | digits => (digits? digits).map fun n => 10 ^ n

def suffixValue (s : List Char) : Option ℚ :=
  match suffixValues.lookup s with
  | some value => some value
  | none =>
    match s with
    | 'e' :: exponent | 'E' :: exponent => exponentValue exponent
    | _ => none

def isNumberChar (c : Char) : Bool := c.isDigit || c = '.'

/-- The value of an unsigned number. -/
def decimalValue (whole fraction : List Char) : ℚ :=
  Nat.ofDigitChars 10 whole 0 + Nat.ofDigitChars 10 fraction 0 / 10 ^ fraction.length

def unsignedQuantity (s : List Char) : Option ℚ :=
  let (whole, fraction) := splitPoint (s.takeWhile isNumberChar)
  if (whole = [] ∧ fraction = []) ∨ '.' ∈ fraction then none
  else (suffixValue (s.dropWhile isNumberChar)).map (decimalValue whole fraction * ·)

def exactQuantity (s : String) : Option ℚ :=
  match s.toList with
  | '-' :: rest => (unsignedQuantity rest).map (- ·)
  | '+' :: rest => unsignedQuantity rest
  | rest => unsignedQuantity rest

/-! ## The texts that the operator reads -/

/-- A text that the operator reads, cut into its number and its suffix. -/
structure Parsed (s : String) (n : Nat) (whole fraction suffix : List Char) (multiplier : Nat) :
    Prop where
  text : ∃ point, s.toList = whole ++ point ++ fraction ++ suffix ∧
    (point = ['.'] ∨ point = [] ∧ fraction = [])
  suffix_mem : (suffix, multiplier) ∈ ([], 1) :: quantitySuffixes
  nonempty : ¬ (whole = [] ∧ fraction = [])
  digits : ∀ c ∈ whole ++ fraction, c.isDigit = true
  value : n = (Nat.ofDigitChars 10 whole 0 * 10 ^ fraction.length +
    Nat.ofDigitChars 10 fraction 0) * multiplier / 10 ^ fraction.length

theorem splitSuffix_append (s : List Char) :
    ∃ suffix, s = (splitSuffix s).1 ++ suffix ∧
      (suffix, (splitSuffix s).2) ∈ ([], 1) :: quantitySuffixes := by
  unfold splitSuffix
  cases hfind : quantitySuffixes.find? fun suffix => suffix.1.isSuffixOf s with
  | none => exact ⟨[], (List.append_nil s).symm, List.mem_cons_self⟩
  | some entry =>
    obtain ⟨suffix, multiplier⟩ := entry
    have hfound : suffix.isSuffixOf s = true := by simpa using List.find?_some hfind
    have hsuffix : suffix <:+ s := List.isSuffixOf_iff_suffix.mp hfound
    obtain ⟨before, rfl⟩ := hsuffix
    refine ⟨suffix, ?_, List.mem_cons_of_mem _ (List.mem_of_find?_eq_some hfind)⟩
    dsimp only
    rw [List.length_append, Nat.add_sub_cancel, List.take_left]

theorem splitPoint_append (s : List Char) :
    ∃ point, s = (splitPoint s).1 ++ point ++ (splitPoint s).2 ∧
      (point = ['.'] ∨ point = [] ∧ (splitPoint s).2 = []) := by
  unfold splitPoint
  cases hdrop : s.dropWhile (· ≠ '.') with
  | nil =>
    refine ⟨[], ?_, Or.inr ⟨rfl, rfl⟩⟩
    rw [List.drop_nil, List.append_nil, List.append_nil]
    exact (List.takeWhile_append_dropWhile ..).symm.trans (by rw [hdrop, List.append_nil])
  | cons c rest =>
    have hc : c = '.' := by
      have hnot := List.head?_dropWhile_not (· ≠ '.') s
      rw [hdrop] at hnot
      simpa using hnot
    refine ⟨['.'], ?_, Or.inl rfl⟩
    subst hc
    rw [List.drop_one, List.tail_cons, List.append_assoc, List.singleton_append, ← hdrop]
    exact (List.takeWhile_append_dropWhile ..).symm

theorem checkedI128_eq_some {m n : Nat} (h : checkedI128 m = some n) : n = m := by
  unfold checkedI128 at h
  split at h
  · exact (Option.some_inj.mp h).symm
  · cases h

theorem scaleQuantity_eq_ok {whole fraction : List Char} {multiplier n : Nat}
    (h : scaleQuantity whole fraction multiplier = .ok n) :
    n = (Nat.ofDigitChars 10 whole 0 * 10 ^ fraction.length +
      Nat.ofDigitChars 10 fraction 0) * multiplier / 10 ^ fraction.length := by
  unfold scaleQuantity at h
  dsimp only at h
  split at h
  · cases h
  · rename_i scaled scale hscaled
    obtain ⟨w, hw, hscaled⟩ := Option.bind_eq_some_iff.mp hscaled
    obtain ⟨scale', hscale, hscaled⟩ := Option.bind_eq_some_iff.mp hscaled
    obtain ⟨f, hf, hscaled⟩ := Option.bind_eq_some_iff.mp hscaled
    obtain ⟨product, hproduct, hscaled⟩ := Option.bind_eq_some_iff.mp hscaled
    obtain ⟨scaled', hsum, hscaled⟩ := Option.bind_eq_some_iff.mp hscaled
    cases hscaled
    rw [checkedI128_eq_some hsum, checkedI128_eq_some hproduct, checkedI128_eq_some hf,
      checkedI128_eq_some hw, checkedI128_eq_some hscale] at h
    split at h
    · cases h
    · split at h
      · cases h
      · rename_i value hvalue
        rw [checkedI128_eq_some hvalue] at h
        exact (Except.ok.inj h).symm

theorem parseQuantity_eq_ok {s : String} {n : Nat} (h : parseQuantity s = .ok n) :
    ∃ whole fraction suffix multiplier, Parsed s n whole fraction suffix multiplier := by
  obtain ⟨suffix, htext, hsuffix⟩ := splitSuffix_append s.toList
  obtain ⟨point, hmantissa, hpoint⟩ := splitPoint_append (splitSuffix s.toList).1
  unfold parseQuantity at h
  split at h
  · cases h
  · dsimp only at h
    split at h
    · cases h
    · split at h
      · cases h
      · split at h
        · cases h
        · split at h
          · cases h
          · rename_i hnonempty
            split at h
            · cases h
            · rename_i hdigits
              refine ⟨_, _, suffix, _, ⟨⟨point, ?_, hpoint⟩, hsuffix, hnonempty, ?_,
                scaleQuantity_eq_ok h⟩⟩
              · rw [← hmantissa, ← htext]
              · exact List.all_eq_true.mp (by simpa using hdigits)

/-! ## Both readings of one text -/

theorem suffixValue_of_mem : ∀ entry ∈ ([], 1) :: quantitySuffixes,
    entry.1 = "K".toList ∨ suffixValue entry.1 = some (entry.2 : ℚ) := by
  simp only [quantitySuffixes, List.forall_mem_cons]
  decide

theorem suffixValue_K : suffixValue "K".toList = none := by decide

theorem head_of_suffix : ∀ entry ∈ ([], 1) :: quantitySuffixes,
    entry.1.takeWhile isNumberChar = [] ∧ entry.1.dropWhile isNumberChar = entry.1 := by
  decide

theorem last_of_suffix : ∀ entry ∈ ([], 1) :: quantitySuffixes,
    entry.1 = "K".toList ∨ entry.1.getLast? ≠ some 'K' := by
  decide

section Parsed

variable {s : String} {n : Nat} {whole fraction suffix : List Char} {multiplier : Nat}

theorem dot_notMem_of_digits {l : List Char} (h : ∀ c ∈ l, c.isDigit = true) : '.' ∉ l :=
  fun hmem => absurd (h '.' hmem) (by decide)

theorem splitPoint_of_digits {point : List Char} (hwhole : '.' ∉ whole)
    (hpoint : point = ['.'] ∨ point = [] ∧ fraction = []) :
    splitPoint (whole ++ point ++ fraction) = (whole, fraction) := by
  have hpos : ∀ c ∈ whole, decide (c ≠ '.') = true := fun c hc =>
    decide_eq_true fun heq => hwhole (heq ▸ hc)
  rcases hpoint with rfl | ⟨rfl, rfl⟩
  · rw [splitPoint, List.append_assoc, List.singleton_append, List.takeWhile_append_of_pos hpos,
      List.dropWhile_append_of_pos hpos, List.takeWhile_cons_of_neg (by simp),
      List.dropWhile_cons_of_neg (by simp), List.append_nil]
    rfl
  · rw [List.append_nil, List.append_nil, splitPoint, List.takeWhile_eq_self_iff.mpr hpos,
      List.dropWhile_eq_nil_iff.mpr hpos]
    rfl

/-- The number of a text that the operator reads. -/
theorem number_of_parsed (h : Parsed s n whole fraction suffix multiplier) :
    ∃ number, s.toList = number ++ suffix ∧ number ≠ [] ∧
      (∀ c ∈ number, isNumberChar c = true) ∧ splitPoint number = (whole, fraction) := by
  obtain ⟨⟨point, htext, hpoint⟩, -, hnonempty, hdigits, -⟩ := h
  have hwhole : ∀ c ∈ whole, c.isDigit = true := fun c hc =>
    hdigits c (List.mem_append_left _ hc)
  have hdigit {c : Char} (h : c.isDigit = true) : isNumberChar c = true := by
    rw [isNumberChar, h]
    rfl
  refine ⟨whole ++ point ++ fraction, htext, fun hnil => hnonempty ?_, ?_,
    splitPoint_of_digits (dot_notMem_of_digits hwhole) hpoint⟩
  · simp only [List.append_eq_nil_iff] at hnil
    exact ⟨hnil.1.1, hnil.2⟩
  · intro c hc
    rw [List.append_assoc, List.mem_append, List.mem_append] at hc
    rcases hc with hc | hc | hc
    · exact hdigit (hwhole c hc)
    · rcases hpoint with rfl | ⟨rfl, -⟩
      · rw [List.mem_singleton.mp hc]
        decide
      · cases hc
    · exact hdigit (hdigits c (List.mem_append_right _ hc))

/-- The exact reading cuts a text where the operator cuts it. -/
theorem exactQuantity_of_parsed (h : Parsed s n whole fraction suffix multiplier) :
    exactQuantity s = (suffixValue suffix).map (decimalValue whole fraction * ·) := by
  obtain ⟨number, htext, hne, hchars, hsplit⟩ := number_of_parsed h
  have hhead := head_of_suffix _ h.suffix_mem
  have hfraction : '.' ∉ fraction :=
    dot_notMem_of_digits fun c hc => h.digits c (List.mem_append_right _ hc)
  have hunsigned : unsignedQuantity (number ++ suffix) =
      (suffixValue suffix).map (decimalValue whole fraction * ·) := by
    rw [unsignedQuantity, List.takeWhile_append_of_pos hchars, List.dropWhile_append_of_pos hchars,
      hhead.1, hhead.2, List.append_nil, hsplit]
    exact if_neg (not_or.mpr ⟨h.nonempty, hfraction⟩)
  obtain ⟨c, rest, rfl⟩ := List.exists_cons_of_ne_nil hne
  have hc := hchars c List.mem_cons_self
  rw [← hunsigned, exactQuantity, htext, List.cons_append]
  split
  · rename_i heq
    obtain ⟨rfl, -⟩ := List.cons.inj heq
    exact absurd hc (by decide)
  · rename_i heq
    obtain ⟨rfl, -⟩ := List.cons.inj heq
    exact absurd hc (by decide)
  · rfl

/-- A text that the operator reads has no exact value when it ends with `K`, and has the value of
its number and its suffix otherwise. -/
theorem exactQuantity_cases (h : Parsed s n whole fraction suffix multiplier) :
    (suffix = "K".toList ∧ exactQuantity s = none) ∨
      exactQuantity s = some (decimalValue whole fraction * multiplier) := by
  rw [exactQuantity_of_parsed h]
  rcases suffixValue_of_mem _ h.suffix_mem with hK | hvalue
  · left
    dsimp only at hK
    rw [hK, suffixValue_K]
    exact ⟨rfl, rfl⟩
  · right
    dsimp only at hvalue
    rw [hvalue, Option.map_some]

/-- The value over the power of ten that the computation carries. -/
theorem value_eq_div (whole fraction : List Char) (multiplier : Nat) :
    decimalValue whole fraction * multiplier =
      (((Nat.ofDigitChars 10 whole 0 * 10 ^ fraction.length + Nat.ofDigitChars 10 fraction 0) *
        multiplier : ℕ) : ℚ) / (10 ^ fraction.length : ℕ) := by
  rw [decimalValue]
  push_cast
  field_simp

theorem floor_of_parsed (h : Parsed s n whole fraction suffix multiplier) :
    (n : ℚ) ≤ decimalValue whole fraction * multiplier ∧
      decimalValue whole fraction * multiplier < n + 1 := by
  have hvalue := h.value
  have hexact := value_eq_div whole fraction multiplier
  generalize (Nat.ofDigitChars 10 whole 0 * 10 ^ fraction.length +
    Nat.ofDigitChars 10 fraction 0) * multiplier = scaled at hvalue hexact
  have hscale : 0 < 10 ^ fraction.length := by positivity
  have hpos : (0 : ℚ) < (10 ^ fraction.length : ℕ) := by exact_mod_cast hscale
  rw [hexact, hvalue]
  constructor
  · exact Nat.cast_div_le
  · rw [div_lt_iff₀ hpos]
    exact_mod_cast Nat.lt_mul_of_div_lt (Nat.lt_succ_self _) hscale

end Parsed

/-- The operator rounds down to whole bytes. -/
theorem floor_of_parseQuantity {s : String} {n : Nat} {q : ℚ} (h : parseQuantity s = .ok n)
    (hq : exactQuantity s = some q) : (n : ℚ) ≤ q ∧ q < n + 1 := by
  obtain ⟨whole, fraction, suffix, multiplier, hparsed⟩ := parseQuantity_eq_ok h
  rcases exactQuantity_cases hparsed with ⟨-, hnone⟩ | hsome
  · cases hnone.symm.trans hq
  · cases hsome.symm.trans hq
    exact floor_of_parsed hparsed

/-- A text that the operator reads is a quantity, unless it ends with `K`. -/
theorem exactQuantity_eq_none {s : String} {n : Nat} (h : parseQuantity s = .ok n) :
    exactQuantity s = none ↔ s.toList.getLast? = some 'K' := by
  obtain ⟨whole, fraction, suffix, multiplier, hparsed⟩ := parseQuantity_eq_ok h
  obtain ⟨number, htext, -, hchars, -⟩ := number_of_parsed hparsed
  rcases exactQuantity_cases hparsed with ⟨rfl, hnone⟩ | hsome
  · refine iff_of_true hnone ?_
    rw [htext, List.getLast?_append_of_ne_nil _ (by decide)]
    rfl
  · refine iff_of_false (by rw [hsome]; nofun) fun hlast => ?_
    rw [htext, List.getLast?_append] at hlast
    cases hsuffix : suffix.getLast? with
    | none =>
      rw [hsuffix, Option.none_or] at hlast
      exact absurd (hchars 'K' (List.mem_of_getLast? hlast)) (by decide)
    | some c =>
      rw [hsuffix, Option.some_or] at hlast
      rcases last_of_suffix _ hparsed.suffix_mem with hK | hne
      · dsimp only at hK
        rw [hK] at hparsed
        rw [exactQuantity_of_parsed hparsed, suffixValue_K] at hsome
        cases hsome
      · exact hne (hsuffix.trans hlast)

end Kube
