-- SUMMARY: Which texts the operator reads as quantities, and the ones that it reads as zero.
import KrabkaOperator.Kube.ExactQuantity
import Mathlib.Data.Rat.Floor

/-!
# The range of the parser

A text of digits, a point and a suffix is read as the floor of its value, when the numbers of the
computation fit into an `i128`. Zero is refused before the multiplication and the division, so a
value between 0 and 1 is read as 0.
-/

namespace Kube

/-- A text cut into the digits before and after its point, and a suffix. -/
structure WrittenAs (s : String) (whole fraction suffix : List Char) (multiplier : Nat) : Prop where
  text : ∃ point, s.toList = whole ++ point ++ fraction ++ suffix ∧
    (point = ['.'] ∨ point = [] ∧ fraction = [])
  suffix_mem : (suffix, multiplier) ∈ ([], 1) :: quantitySuffixes
  nonempty : ¬ (whole = [] ∧ fraction = [])
  digits : ∀ c ∈ whole ++ fraction, c.isDigit = true

/-- The value of a text, with the suffixes that the operator reads. -/
def HasValue (s : String) (q : ℚ) : Prop :=
  ∃ whole fraction suffix multiplier, WrittenAs s whole fraction suffix multiplier ∧
    q = decimalValue whole fraction * multiplier

/-- A text that is read stands for a positive number of bytes and is read as its floor, a text of
at most 18 digits that stands for at least one byte is read, and the numbers that are read lie in
the order of the values. -/
structure ReadExactly (s : String) : Prop where
  sound : ∀ v, parseQuantity s = .ok v → ∃ q, HasValue s q ∧ (v : ℤ) = ⌊q⌋ ∧ 1 ≤ v
  complete : ∀ whole fraction suffix multiplier, WrittenAs s whole fraction suffix multiplier →
    whole.length + fraction.length ≤ 18 → 1 ≤ decimalValue whole fraction * multiplier →
    ∃ v, parseQuantity s = .ok v
  ordered : ∀ t v u q r, parseQuantity s = .ok v → parseQuantity t = .ok u →
    HasValue s q → HasValue t r → (v < u → q < r) ∧ (u < v → r < q)

/-! ## Digits -/

theorem digit_le_nine {c : Char} (h : c.isDigit = true) : c.toNat - '0'.toNat ≤ 9 := by
  simp only [Char.isDigit, Bool.and_eq_true, decide_eq_true_eq] at h
  have hle : c.toNat ≤ '9'.toNat := h.2
  exact (Nat.sub_le_sub_right hle _).trans (by decide)

theorem ofDigitChars_lt_of_digits {l : List Char} (h : ∀ c ∈ l, c.isDigit = true) (acc : Nat) :
    Nat.ofDigitChars 10 l acc < (acc + 1) * 10 ^ l.length := by
  induction l generalizing acc with
  | nil =>
    rw [Nat.ofDigitChars_nil, List.length_nil, pow_zero, mul_one]
    exact Nat.lt_succ_self acc
  | cons c l ih =>
    have hc := digit_le_nine (h c List.mem_cons_self)
    have hstep : 10 * acc + (c.toNat - '0'.toNat) + 1 ≤ (acc + 1) * 10 := by omega
    rw [Nat.ofDigitChars_cons, List.length_cons, pow_succ', ← mul_assoc]
    exact (ih (fun d hd => h d (List.mem_cons_of_mem _ hd)) _).trans_le
      (Nat.mul_le_mul_right _ hstep)

/-- A run of digits stands for a number below the power of ten of its length. -/
theorem digits_lt {l : List Char} (h : ∀ c ∈ l, c.isDigit = true) :
    Nat.ofDigitChars 10 l 0 < 10 ^ l.length := by
  simpa only [zero_add, one_mul] using ofDigitChars_lt_of_digits h 0

/-! ## Cutting a text -/

section WrittenAs

variable {s : String} {whole fraction suffix : List Char} {multiplier : Nat}

theorem WrittenAs.parsed (h : WrittenAs s whole fraction suffix multiplier) :
    Parsed s ((Nat.ofDigitChars 10 whole 0 * 10 ^ fraction.length +
      Nat.ofDigitChars 10 fraction 0) * multiplier / 10 ^ fraction.length)
      whole fraction suffix multiplier :=
  ⟨h.text, h.suffix_mem, h.nonempty, h.digits, rfl⟩

theorem Parsed.writtenAs {n : Nat} (h : Parsed s n whole fraction suffix multiplier) :
    WrittenAs s whole fraction suffix multiplier :=
  ⟨h.text, h.suffix_mem, h.nonempty, h.digits⟩

/-- No suffix ends another one, and none begins with a character of a number. -/
theorem suffix_of_suffix : ∀ entry ∈ quantitySuffixes, ∀ other ∈ ([], 1) :: quantitySuffixes,
    entry.1.isSuffixOf other.1 = true → entry = other := by
  decide

theorem suffix_head : ∀ entry ∈ quantitySuffixes,
    (entry.1.head?.any fun c => !isNumberChar c) = true := by
  decide

/-- The suffix that is found at the end of a number and a suffix is this suffix. -/
theorem suffix_eq_of_isSuffixOf {number : List Char} {entry other : List Char × Nat}
    (hentry : entry ∈ quantitySuffixes) (hother : other ∈ ([], 1) :: quantitySuffixes)
    (hnumber : ∀ c ∈ number, isNumberChar c = true)
    (h : entry.1.isSuffixOf (number ++ other.1) = true) : entry = other := by
  have hsuffix := List.isSuffixOf_iff_suffix.mp h
  rcases List.suffix_or_suffix_of_suffix hsuffix (List.suffix_append number other.1) with
    hend | ⟨l, hl⟩
  · exact suffix_of_suffix entry hentry other hother (List.isSuffixOf_iff_suffix.mpr hend)
  · obtain ⟨c, hhead, hc⟩ := (Option.any_eq_true ..).mp (suffix_head entry hentry)
    cases l with
    | nil =>
      exact suffix_of_suffix entry hentry other hother
        (List.isSuffixOf_iff_suffix.mpr (hl ▸ List.suffix_refl other.1))
    | cons d l =>
      -- the first character of the longer suffix would belong to the number
      obtain ⟨start, hstart⟩ := hsuffix
      rw [← hl, ← List.append_assoc] at hstart
      have hd := hnumber d (List.append_cancel_right hstart ▸
        List.mem_append_right start List.mem_cons_self)
      rw [← hl, List.cons_append, List.head?_cons, Option.some_inj] at hhead
      rw [hhead] at hd
      rw [hd] at hc
      cases hc

theorem splitSuffix_append_of_mem {number : List Char} {other : List Char × Nat}
    (hother : other ∈ ([], 1) :: quantitySuffixes)
    (hnumber : ∀ c ∈ number, isNumberChar c = true) :
    splitSuffix (number ++ other.1) = (number, other.2) := by
  unfold splitSuffix
  cases hfind : quantitySuffixes.find? fun suffix => suffix.1.isSuffixOf (number ++ other.1) with
  | none =>
    rcases List.mem_cons.mp hother with rfl | hmem
    · dsimp only
      rw [List.append_nil]
    · have hnot := List.find?_eq_none.mp hfind other hmem
      exact absurd (List.isSuffixOf_iff_suffix.mpr (List.suffix_append number other.1)) hnot
  | some entry =>
    have hfound := List.find?_some hfind
    obtain rfl := suffix_eq_of_isSuffixOf (List.mem_of_find?_eq_some hfind) hother hnumber hfound
    dsimp only
    rw [List.length_append, Nat.add_sub_cancel, List.take_left]

/-! ## Reading a text -/

theorem checkedI128_eq_some_iff {m n : Nat} :
    checkedI128 m = some n ↔ n = m ∧ m < 2 ^ 127 := by
  unfold checkedI128
  split
  · rename_i hlt
    exact ⟨fun h => ⟨(Option.some_inj.mp h).symm, hlt⟩, fun h => congrArg some h.1.symm⟩
  · rename_i hlt
    exact ⟨nofun, fun h => absurd h.2 hlt⟩

/-- The numbers of the computation. -/
structure Fits (whole fraction : List Char) (multiplier : Nat) : Prop where
  scale : 10 ^ fraction.length < 2 ^ 127
  value : (Nat.ofDigitChars 10 whole 0 * 10 ^ fraction.length +
    Nat.ofDigitChars 10 fraction 0) * multiplier < 2 ^ 127
  positive : 0 < Nat.ofDigitChars 10 whole 0 * 10 ^ fraction.length +
    Nat.ofDigitChars 10 fraction 0

theorem scaleQuantity_of_fits (hmultiplier : 1 ≤ multiplier) (h : Fits whole fraction multiplier) :
    scaleQuantity whole fraction multiplier = .ok ((Nat.ofDigitChars 10 whole 0 *
      10 ^ fraction.length + Nat.ofDigitChars 10 fraction 0) * multiplier /
      10 ^ fraction.length) := by
  have hscaled : Nat.ofDigitChars 10 whole 0 * 10 ^ fraction.length +
      Nat.ofDigitChars 10 fraction 0 < 2 ^ 127 :=
    (Nat.le_mul_of_pos_right _ hmultiplier).trans_lt h.value
  have hproduct : Nat.ofDigitChars 10 whole 0 * 10 ^ fraction.length < 2 ^ 127 :=
    (Nat.le_add_right _ _).trans_lt hscaled
  have hwhole : Nat.ofDigitChars 10 whole 0 < 2 ^ 127 :=
    (Nat.le_mul_of_pos_right _ (Nat.pow_pos (by decide))).trans_lt hproduct
  have hfraction : Nat.ofDigitChars 10 fraction 0 < 2 ^ 127 :=
    (Nat.le_add_left _ _).trans_lt hscaled
  have hcheck {n : Nat} (h : n < 2 ^ 127) : checkedI128 n = some n := if_pos h
  simp only [scaleQuantity, digitsI128, hcheck hwhole, hcheck h.scale, hcheck hfraction,
    hcheck hproduct, hcheck hscaled, Option.bind_eq_bind, Option.bind_some, Option.pure_def,
    if_neg h.positive.ne', hcheck h.value]

theorem fits_of_scaleQuantity {v : Nat} (h : scaleQuantity whole fraction multiplier = .ok v) :
    Fits whole fraction multiplier := by
  unfold scaleQuantity at h
  dsimp only at h
  split at h
  · cases h
  · rename_i scaled scale hscaled
    obtain ⟨w, hw, hscaled⟩ := Option.bind_eq_some_iff.mp hscaled
    obtain ⟨scale', hscale, hscaled⟩ := Option.bind_eq_some_iff.mp hscaled
    obtain ⟨f, hf, hscaled⟩ := Option.bind_eq_some_iff.mp hscaled
    obtain ⟨product, hproduct, hscaled⟩ := Option.bind_eq_some_iff.mp hscaled
    obtain ⟨scaled', hsum, hscaled⟩ := Option.bind_eq_some_iff.mp hscaled
    cases hscaled
    rw [checkedI128_eq_some hsum, checkedI128_eq_some hproduct, checkedI128_eq_some hf,
      checkedI128_eq_some hw, checkedI128_eq_some hscale] at h
    split at h
    · cases h
    · rename_i hpositive
      split at h
      · cases h
      · rename_i value hvalue
        exact ⟨(checkedI128_eq_some_iff.mp hscale).2, (checkedI128_eq_some_iff.mp hvalue).2,
          Nat.pos_of_ne_zero hpositive⟩

theorem isNumberChar_of_mem_mantissa {number : List Char}
    (hnumber : ∀ c ∈ number, isNumberChar c = true) :
    ¬ ('e' ∈ number ∨ 'E' ∈ number) ∧ number.head? ≠ some '-' := by
  refine ⟨fun h => ?_, fun h => ?_⟩
  · rcases h with he | he
    · exact absurd (hnumber _ he) (by decide)
    · exact absurd (hnumber _ he) (by decide)
  · exact absurd (hnumber _ (List.mem_of_mem_head? h)) (by decide)

/-- A text of the form is cut where it is written, and only the computation can refuse it. -/
theorem parseQuantity_of_writtenAs (h : WrittenAs s whole fraction suffix multiplier) :
    parseQuantity s = scaleQuantity whole fraction multiplier := by
  obtain ⟨number, htext, hne, hchars, hsplit⟩ := number_of_parsed h.parsed
  obtain ⟨hexponent, hsign⟩ := isNumberChar_of_mem_mantissa hchars
  have hcut : splitSuffix s.toList = (number, multiplier) := by
    rw [htext]
    exact splitSuffix_append_of_mem h.suffix_mem hchars
  have hnonempty : s.toList ≠ [] := fun hnil =>
    hne (List.append_eq_nil_iff.mp (htext.symm.trans hnil)).1
  have hdigits : (whole ++ fraction).all Char.isDigit = true := List.all_eq_true.mpr h.digits
  unfold parseQuantity
  rw [if_neg hnonempty, hcut]
  dsimp only
  rw [if_neg hne, if_neg hexponent, if_neg hsign, hsplit]
  dsimp only
  rw [if_neg h.nonempty, hdigits, Bool.not_true, if_neg Bool.false_ne_true]

theorem multiplier_pos (h : WrittenAs s whole fraction suffix multiplier) :
    1 ≤ multiplier ∧ multiplier ≤ 1024 ^ 6 := by
  have hall : ∀ entry ∈ ([], 1) :: quantitySuffixes, 1 ≤ entry.2 ∧ entry.2 ≤ 1024 ^ 6 := by
    decide
  exact hall _ h.suffix_mem

theorem parseQuantity_isOk_iff (h : WrittenAs s whole fraction suffix multiplier) :
    (∃ v, parseQuantity s = .ok v) ↔ Fits whole fraction multiplier := by
  rw [parseQuantity_of_writtenAs h]
  constructor
  · rintro ⟨v, hv⟩
    exact fits_of_scaleQuantity hv
  · exact fun hfits => ⟨_, scaleQuantity_of_fits (multiplier_pos h).1 hfits⟩

theorem floor_of_writtenAs {v : Nat} (h : WrittenAs s whole fraction suffix multiplier)
    (hv : parseQuantity s = .ok v) :
    (v : ℚ) ≤ decimalValue whole fraction * multiplier ∧
      decimalValue whole fraction * multiplier < v + 1 := by
  rw [parseQuantity_of_writtenAs h] at hv
  exact floor_of_parsed ⟨h.text, h.suffix_mem, h.nonempty, h.digits, scaleQuantity_eq_ok hv⟩

/-! ## The range -/

theorem one_le_value_iff (whole fraction : List Char) (multiplier : Nat) :
    1 ≤ decimalValue whole fraction * multiplier ↔ 10 ^ fraction.length ≤
      (Nat.ofDigitChars 10 whole 0 * 10 ^ fraction.length + Nat.ofDigitChars 10 fraction 0) *
        multiplier := by
  have hscale : (0 : ℚ) < (10 ^ fraction.length : ℕ) := by positivity
  rw [value_eq_div, le_div_iff₀ hscale, one_mul, Nat.cast_le]

theorem value_pos_iff (h : WrittenAs s whole fraction suffix multiplier) :
    0 < decimalValue whole fraction * multiplier ↔
      0 < Nat.ofDigitChars 10 whole 0 * 10 ^ fraction.length + Nat.ofDigitChars 10 fraction 0 := by
  have hscale : (0 : ℚ) < (10 ^ fraction.length : ℕ) := by positivity
  rw [value_eq_div, div_pos_iff_of_pos_right hscale, Nat.cast_pos]
  exact Nat.mul_pos_iff_of_pos_right (multiplier_pos h).1

theorem scale_lt_iff (n : Nat) : 10 ^ n < 2 ^ 127 ↔ n ≤ 38 := by
  constructor
  · intro hlt
    by_contra hlong
    have hpow : 10 ^ 39 ≤ 10 ^ n := Nat.pow_le_pow_right (by decide) (Nat.lt_of_not_le hlong)
    exact absurd (hpow.trans_lt hlt) (by decide)
  · intro hle
    exact (Nat.pow_le_pow_right (by decide) hle).trans_lt (by decide)

/-- The computation on 18 digits fits, whatever the suffix. -/
theorem fits_of_short (h : WrittenAs s whole fraction suffix multiplier)
    (hshort : whole.length + fraction.length ≤ 18)
    (hone : 1 ≤ decimalValue whole fraction * multiplier) : Fits whole fraction multiplier := by
  have hwhole := digits_lt fun c hc => h.digits c (List.mem_append_left fraction hc)
  have hfraction := digits_lt fun c hc => h.digits c (List.mem_append_right whole hc)
  have hscaled : Nat.ofDigitChars 10 whole 0 * 10 ^ fraction.length +
      Nat.ofDigitChars 10 fraction 0 ≤ 10 ^ 18 :=
    calc Nat.ofDigitChars 10 whole 0 * 10 ^ fraction.length + Nat.ofDigitChars 10 fraction 0
        ≤ (Nat.ofDigitChars 10 whole 0 + 1) * 10 ^ fraction.length := by
          rw [Nat.succ_mul]
          exact Nat.add_le_add_left hfraction.le _
      _ ≤ 10 ^ whole.length * 10 ^ fraction.length := Nat.mul_le_mul_right _ hwhole
      _ = 10 ^ (whole.length + fraction.length) := (pow_add ..).symm
      _ ≤ 10 ^ 18 := Nat.pow_le_pow_right (by decide) hshort
  refine ⟨(scale_lt_iff _).mpr ((Nat.le_add_left _ _).trans (hshort.trans (by decide))), ?_,
    (value_pos_iff h).mp (zero_lt_one.trans_le hone)⟩
  exact (Nat.mul_le_mul hscaled (multiplier_pos h).2).trans_lt (by decide)

/-- The computation of a positive value below 1 fits when the power of ten does. -/
theorem fits_of_small (h : WrittenAs s whole fraction suffix multiplier)
    (hlength : fraction.length ≤ 38) (hpositive : 0 < decimalValue whole fraction * multiplier)
    (hsmall : ¬ 1 ≤ decimalValue whole fraction * multiplier) :
    Fits whole fraction multiplier := by
  have hscale := (scale_lt_iff _).mpr hlength
  rw [one_le_value_iff, Nat.not_le] at hsmall
  exact ⟨hscale, hsmall.trans hscale, (value_pos_iff h).mp hpositive⟩

end WrittenAs

/-- The numbers that are read lie in the order of the values. -/
theorem lt_of_parseQuantity_lt {s t : String} {v u : Nat} {q r : ℚ}
    (hv : parseQuantity s = .ok v) (hu : parseQuantity t = .ok u) (hq : HasValue s q)
    (hr : HasValue t r) (hlt : v < u) : q < r := by
  obtain ⟨_, _, _, _, hs, rfl⟩ := hq
  obtain ⟨_, _, _, _, ht, rfl⟩ := hr
  have hstep : (v : ℚ) + 1 ≤ u := by exact_mod_cast hlt
  exact (floor_of_writtenAs hs hv).2.trans_le (hstep.trans (floor_of_writtenAs ht hu).1)

/-- A text is read exactly unless it stands for a positive value below 1 and has at most 38 digits
behind its point. -/
theorem readExactly_iff (s : String) :
    ReadExactly s ↔ ∀ whole fraction suffix multiplier,
      WrittenAs s whole fraction suffix multiplier → fraction.length ≤ 38 →
      0 < decimalValue whole fraction * multiplier →
      1 ≤ decimalValue whole fraction * multiplier := by
  constructor
  · intro hread whole fraction suffix multiplier h hlength hpositive
    by_contra hsmall
    obtain ⟨v, hv⟩ := (parseQuantity_isOk_iff h).mpr (fits_of_small h hlength hpositive hsmall)
    obtain ⟨q, -, -, hone⟩ := hread.sound v hv
    have hle : (1 : ℚ) ≤ v := by exact_mod_cast hone
    exact hsmall (hle.trans (floor_of_writtenAs h hv).1)
  · intro hlarge
    refine ⟨fun v hv => ?_, fun whole fraction suffix multiplier h hshort hone =>
      (parseQuantity_isOk_iff h).mpr (fits_of_short h hshort hone), fun t v u q r hv hu hq hr =>
      ⟨lt_of_parseQuantity_lt hv hu hq hr, lt_of_parseQuantity_lt hu hv hr hq⟩⟩
    obtain ⟨whole, fraction, suffix, multiplier, hparsed⟩ := parseQuantity_eq_ok hv
    have h := hparsed.writtenAs
    have hfits := (parseQuantity_isOk_iff h).mp ⟨v, hv⟩
    have hfloor := floor_of_writtenAs h hv
    have hone := hlarge whole fraction suffix multiplier h ((scale_lt_iff _).mp hfits.scale)
      ((value_pos_iff h).mpr hfits.positive)
    refine ⟨_, ⟨whole, fraction, suffix, multiplier, h, rfl⟩,
      (Int.floor_eq_iff.mpr ⟨by exact_mod_cast hfloor.1, by exact_mod_cast hfloor.2⟩).symm, ?_⟩
    have hlt : (1 : ℚ) < v + 1 := hone.trans_lt hfloor.2
    exact Nat.lt_succ_iff.mp (by exact_mod_cast hlt)

/-- `0.5` is read, as zero bytes. -/
theorem readExactly_half_fails : ¬ ReadExactly "0.5" := by
  intro hread
  obtain ⟨q, -, -, hone⟩ := hread.sound 0 (by decide)
  exact absurd hone (by decide)

end Kube
