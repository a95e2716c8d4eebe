-- SUMMARY: Different IP addresses have different texts, none of which has a line break.
import KrabkaOperator.Base.IpAddr
import KrabkaOperator.Base.Separated
import Mathlib.Data.List.TakeWhile

/-!
# The texts of IP addresses

An IPv4 address has dots and no colons. A text with both is that of a mapped address. An
abbreviated text has an empty piece between two colons, with the segments before and
behind it.
-/

namespace IpAddr

/-! ## Digits -/

/-- The digit of a character. -/
def hexIndex (c : Char) : Nat := (List.range 16).findIdx fun k => Nat.digitChar k = c

theorem hexIndex_digitChar {k : Nat} (h : k < 16) : hexIndex (Nat.digitChar k) = k := by
  have hall : ∀ k < 16, hexIndex (Nat.digitChar k) = k := by decide
  exact hall k h

/-- The number that is written in hexadecimal digits. -/
def hexValue (s : List Char) : Nat := s.foldl (fun n c => 16 * n + hexIndex c) 0

theorem hexValue_toDigits (n : Nat) : hexValue (Nat.toDigits 16 n) = n := by
  induction n using Nat.strongRecOn with
  | ind n ih =>
    rw [Nat.toDigits_eq_if (by decide)]
    split
    · next hlt =>
      simp only [hexValue, List.foldl_cons, List.foldl_nil, hexIndex_digitChar hlt]
      omega
    · next hge =>
      have hfront := ih (n / 16) (by omega)
      rw [hexValue] at hfront
      rw [hexValue, List.foldl_append, hfront, List.foldl_cons, List.foldl_nil,
        hexIndex_digitChar (Nat.mod_lt _ (by decide))]
      omega

theorem mem_toDigits_hex {n : Nat} {c : Char} (h : c ∈ Nat.toDigits 16 n) :
    ∃ k < 16, c = Nat.digitChar k := by
  induction n using Nat.strongRecOn with
  | ind n ih =>
    rw [Nat.toDigits_eq_if (by decide)] at h
    split at h
    · next hlt => exact ⟨n, hlt, List.mem_singleton.mp h⟩
    · next hge =>
      rcases List.mem_append.mp h with h | h
      · exact ih (n / 16) (by omega) h
      · exact ⟨n % 16, Nat.mod_lt _ (by decide), List.mem_singleton.mp h⟩

theorem notMem_toDigits_hex {n : Nat} {c : Char} (h : ∀ k < 16, c ≠ Nat.digitChar k) :
    c ∉ Nat.toDigits 16 n := by
  intro hmem
  obtain ⟨k, hk, heq⟩ := mem_toDigits_hex hmem
  exact h k hk heq

theorem hex_injective {a b : UInt16} (h : Nat.toDigits 16 a.toNat = Nat.toDigits 16 b.toNat) :
    a = b := by
  have hvalue := congrArg hexValue h
  rw [hexValue_toDigits, hexValue_toDigits] at hvalue
  exact UInt16.toNat_inj.mp hvalue

/-! ## Octets with dots -/

theorem notMem_digits {n : Nat} {c : Char} (h : c.isDigit = false) : c ∉ Nat.toDigits 10 n := by
  intro hmem
  rw [Nat.isDigit_of_mem_toDigits (by decide) (by decide) hmem] at h
  cases h

theorem dotted_injective {xs ys : List Nat} (hxs : xs ≠ []) (hys : ys ≠ [])
    (h : dotted xs = dotted ys) : xs = ys := by
  have hdot : ∀ zs : List Nat, ∀ s ∈ zs.map (Nat.toDigits 10), '.' ∉ s := by
    intro zs s hs
    obtain ⟨n, -, rfl⟩ := List.mem_map.mp hs
    exact notMem_digits (by decide)
  have hpieces := Separated.intercalate_injective (by simpa using hxs) (by simpa using hys)
    (hdot xs) (hdot ys) h
  refine List.map_injective_iff.mpr (fun n m hnm => ?_) hpieces
  rw [← @Nat.ofDigitChars_ten_toDigits n, hnm, Nat.ofDigitChars_ten_toDigits]

theorem mem_dotted {c : Char} {xs : List Nat} (h : c ∈ dotted xs) :
    c.isDigit = true ∨ c = '.' := by
  induction xs with
  | nil => cases h
  | cons x xs ih =>
    cases xs with
    | nil =>
      have hc : c ∈ Nat.toDigits 10 x := by simpa [dotted] using h
      exact .inl (Nat.isDigit_of_mem_toDigits (by decide) (by decide) hc)
    | cons y ys =>
      simp only [dotted, List.map_cons, List.intercalate_cons_cons, List.mem_append,
        List.mem_singleton] at h ih
      rcases h with (h | h) | h
      · exact .inl (Nat.isDigit_of_mem_toDigits (by decide) (by decide) h)
      · exact .inr h
      · exact ih h

theorem dot_mem_dotted (a b : Nat) (xs : List Nat) : '.' ∈ dotted (a :: b :: xs) := by
  simp [dotted, List.intercalate_cons_cons]

/-! ## Segments with colons -/

theorem mem_colons {c : Char} {segments : List UInt16} (h : c ∈ colons segments) :
    (∃ k < 16, c = Nat.digitChar k) ∨ c = ':' := by
  induction segments with
  | nil => cases h
  | cons s segments ih =>
    cases segments with
    | nil => exact .inl (mem_toDigits_hex (by simpa [colons] using h))
    | cons t ts =>
      simp only [colons, List.map_cons, List.intercalate_cons_cons, List.mem_append,
        List.mem_singleton] at h ih
      rcases h with (h | h) | h
      · exact .inl (mem_toDigits_hex h)
      · exact .inr h
      · exact ih h

theorem notMem_colons {c : Char} (hhex : ∀ k < 16, c ≠ Nat.digitChar k) (hcolon : c ≠ ':')
    (segments : List UInt16) : c ∉ colons segments := by
  intro hmem
  rcases mem_colons hmem with ⟨k, hk, heq⟩ | heq
  · exact hhex k hk heq
  · exact hcolon heq

/-- The pieces between the colons. No segments are one empty piece. -/
def pieces (segments : List UInt16) : List (List Char) :=
  if segments = [] then [[]] else segments.map fun s => Nat.toDigits 16 s.toNat

theorem splitOn_colons (segments : List UInt16) : (colons segments).splitOn ':' = pieces segments := by
  unfold pieces
  split
  · next h =>
    subst h
    rfl
  · next h =>
    refine List.splitOn_intercalate ':' (fun s hs => ?_) (by simpa using h)
    obtain ⟨n, -, rfl⟩ := List.mem_map.mp hs
    exact notMem_toDigits_hex (by decide)

theorem nil_notMem_pieces {segments : List UInt16} (h : segments ≠ []) : [] ∉ pieces segments := by
  rw [pieces, if_neg h]
  intro hmem
  obtain ⟨s, -, hs⟩ := List.mem_map.mp hmem
  exact Nat.toDigits_ne_nil hs

theorem pieces_injective {xs ys : List UInt16} (h : pieces xs = pieces ys) : xs = ys := by
  by_cases hxs : xs = []
  · by_cases hys : ys = []
    · rw [hxs, hys]
    · have hmem : [] ∈ pieces xs := by simp [pieces, hxs]
      exact absurd (h ▸ hmem) (nil_notMem_pieces hys)
  · by_cases hys : ys = []
    · have hmem : [] ∈ pieces ys := by simp [pieces, hys]
      exact absurd (h ▸ hmem) (nil_notMem_pieces hxs)
    · rw [pieces, if_neg hxs, pieces, if_neg hys] at h
      exact List.map_injective_iff.mpr (fun a b hab => hex_injective hab) h

/-- An abbreviated text. -/
def abbreviated (front back : List UInt16) : List Char :=
  colons front ++ "::".toList ++ colons back

theorem splitOn_abbreviated (front back : List UInt16) :
    (abbreviated front back).splitOn ':' = pieces front ++ [] :: pieces back := by
  have htext : abbreviated front back = colons front ++ ':' :: ([] ++ ':' :: colons back) := by
    simp [abbreviated]
  rw [htext, List.splitOn_append_cons_self, List.splitOn_append_cons_self, splitOn_colons,
    splitOn_colons]
  rfl

/-- The first piece is empty just when there is no segment in front. -/
theorem pieces_append_ne {front front' : List UInt16} (h : front = []) (h' : front' ≠ [])
    (rest rest' : List (List Char)) : pieces front ++ rest ≠ pieces front' ++ rest' := by
  obtain ⟨s, front', rfl⟩ := List.exists_cons_of_ne_nil h'
  rw [h, pieces, pieces, if_pos rfl, if_neg h']
  intro heq
  exact Nat.toDigits_ne_nil (List.cons.inj heq).1.symm

theorem abbreviated_injective {front back front' back' : List UInt16}
    (h : abbreviated front back = abbreviated front' back') : front = front' ∧ back = back' := by
  have hpieces := congrArg (List.splitOn ':') h
  rw [splitOn_abbreviated, splitOn_abbreviated] at hpieces
  by_cases hfront : front = []
  · by_cases hfront' : front' = []
    · rw [hfront, hfront'] at hpieces
      exact ⟨hfront.trans hfront'.symm,
        pieces_injective (List.cons.inj (List.append_cancel_left hpieces)).2⟩
    · exact absurd hpieces (pieces_append_ne hfront hfront' _ _)
  · by_cases hfront' : front' = []
    · exact absurd hpieces.symm (pieces_append_ne hfront' hfront _ _)
    · rcases Separated.append_cons_eq_append_cons.mp hpieces with
        ⟨heq, hback⟩ | ⟨mid, heq, -⟩ | ⟨mid, heq, -⟩
      · exact ⟨pieces_injective heq, pieces_injective hback⟩
      · exact absurd (heq ▸ by simp) (nil_notMem_pieces hfront)
      · exact absurd (heq ▸ by simp) (nil_notMem_pieces hfront')

theorem colons_ne_abbreviated {segments front back : List UInt16} (h : segments ≠ []) :
    colons segments ≠ abbreviated front back := by
  intro heq
  have hpieces := congrArg (List.splitOn ':') heq
  rw [splitOn_colons, splitOn_abbreviated] at hpieces
  exact absurd (hpieces ▸ by simp) (nil_notMem_pieces h)

theorem colons_injective {xs ys : List UInt16} (h : colons xs = colons ys) : xs = ys := by
  have hpieces := congrArg (List.splitOn ':') h
  rw [splitOn_colons, splitOn_colons] at hpieces
  exact pieces_injective hpieces

/-! ## The text of an IPv6 address -/

theorem takeWhile_zero (segments : List UInt16) :
    segments.takeWhile (· = 0) = List.replicate (zeroRun segments) 0 := by
  refine List.eq_replicate_iff.mpr ⟨rfl, fun s hs => ?_⟩
  have hzero := List.mem_takeWhile_imp hs
  exact of_decide_eq_true hzero

/-- The run that is left out has no segment but zeros. -/
theorem longestZeroRun_le (segments : List UInt16) :
    (longestZeroRun segments).2 ≤ zeroRun (segments.drop (longestZeroRun segments).1) := by
  unfold longestZeroRun
  generalize List.range segments.length = starts
  have hstep : ∀ (starts : List Nat) (best : Nat × Nat), best.2 ≤ zeroRun (segments.drop best.1) →
      (starts.foldl (fun best i =>
        let n := zeroRun (segments.drop i)
        if best.2 < n then (i, n) else best) best).2 ≤
      zeroRun (segments.drop (starts.foldl (fun best i =>
        let n := zeroRun (segments.drop i)
        if best.2 < n then (i, n) else best) best).1) := by
    intro starts
    induction starts with
    | nil => exact fun best h => h
    | cons i starts ih =>
      intro best h
      rw [List.foldl_cons]
      apply ih
      dsimp only
      split
      · exact Nat.le_refl _
      · exact h
  exact hstep starts (0, 0) (Nat.zero_le _)

theorem eq_of_zeroRun {segments : List UInt16} {n : Nat} (h : n ≤ zeroRun segments) :
    segments = List.replicate n 0 ++ segments.drop n := by
  have hprefix : List.replicate n 0 <+: segments := by
    refine List.IsPrefix.trans ?_ (List.takeWhile_prefix (· = 0))
    rw [takeWhile_zero]
    exact ⟨List.replicate (zeroRun segments - n) 0, by rw [List.replicate_append_replicate]; congr 1; omega⟩
  obtain ⟨rest, hrest⟩ := hprefix
  rw [← hrest, List.drop_left' (List.length_replicate ..)]

/-- The segments of an address that is not a mapped one. -/
theorem text_v6 {segments : List UInt16}
    (h : ∀ hi lo, segments ≠ [0, 0, 0, 0, 0, 0xffff, hi, lo]) :
    text (.v6 segments) = colons segments ∨
    ∃ front n back, segments = front ++ (List.replicate n 0 ++ back) ∧
      text (.v6 segments) = abbreviated front back := by
  unfold text
  dsimp only
  split
  · next hi lo => exact absurd rfl (h hi lo)
  · split
    · refine .inr ⟨_, (longestZeroRun segments).2, _, ?_, rfl⟩
      have hrun := eq_of_zeroRun (longestZeroRun_le segments)
      rw [List.drop_drop] at hrun
      rw [← hrun, List.take_append_drop]
    · exact .inl rfl

theorem text_mapped (hi lo : UInt16) : text (.v6 [0, 0, 0, 0, 0, 0xffff, hi, lo]) =
    "::ffff:".toList ++
      dotted [hi.toNat / 256, hi.toNat % 256, lo.toNat / 256, lo.toNat % 256] := rfl

theorem dot_notMem_text_v6 {segments : List UInt16}
    (h : ∀ hi lo, segments ≠ [0, 0, 0, 0, 0, 0xffff, hi, lo]) : '.' ∉ text (.v6 segments) := by
  have hcolons : ∀ segments, '.' ∉ colons segments := notMem_colons (by decide) (by decide)
  rcases text_v6 h with htext | ⟨front, n, back, -, htext⟩
  · rw [htext]
    exact hcolons segments
  · rw [htext, abbreviated, List.mem_append, List.mem_append, not_or, not_or]
    exact ⟨⟨hcolons front, by decide⟩, hcolons back⟩

/-! ## Addresses -/

/-- An IPv6 address has eight segments. -/
def WellFormed : IpAddr → Prop
  | .v4 _ _ _ _ => True
  | .v6 segments => segments.length = 8

theorem colon_mem_text_v6 {segments : List UInt16} (h : segments.length = 8) :
    ':' ∈ text (.v6 segments) := by
  by_cases hmapped : ∃ hi lo, segments = [0, 0, 0, 0, 0, 0xffff, hi, lo]
  · obtain ⟨hi, lo, rfl⟩ := hmapped
    rw [text_mapped]
    exact List.mem_append_left _ (by decide)
  · simp only [not_exists] at hmapped
    rcases text_v6 hmapped with htext | ⟨front, n, back, -, htext⟩
    · rw [htext]
      obtain _ | ⟨s, _ | ⟨t, rest⟩⟩ := segments
      · cases h
      · cases h
      · simp [colons, List.intercalate_cons_cons]
    · rw [htext]
      simp [abbreviated]

theorem colon_notMem_text_v4 (a b c d : UInt8) : ':' ∉ text (.v4 a b c d) := by
  intro hmem
  rcases mem_dotted hmem with h | h
  · exact absurd h (by decide)
  · exact absurd h (by decide)

theorem text_v4_injective {a b c d a' b' c' d' : UInt8}
    (h : text (.v4 a b c d) = text (.v4 a' b' c' d')) : v4 a b c d = v4 a' b' c' d' := by
  have hoctets := dotted_injective (List.cons_ne_nil _ _) (List.cons_ne_nil _ _) h
  simpa [UInt8.toNat_inj] using hoctets

theorem text_v6_injective {xs ys : List UInt16} (hxs : xs.length = 8) (hys : ys.length = 8)
    (h : text (.v6 xs) = text (.v6 ys)) : xs = ys := by
  have hdot : ∀ hi lo, '.' ∈ text (.v6 [0, 0, 0, 0, 0, 0xffff, hi, lo]) := fun hi lo =>
    List.mem_append_right _ (dot_mem_dotted _ _ _)
  by_cases hx : ∃ hi lo, xs = [0, 0, 0, 0, 0, 0xffff, hi, lo]
  · obtain ⟨hi, lo, rfl⟩ := hx
    by_cases hy : ∃ hi lo, ys = [0, 0, 0, 0, 0, 0xffff, hi, lo]
    · obtain ⟨hi', lo', rfl⟩ := hy
      rw [text_mapped, text_mapped] at h
      have hoctets := dotted_injective (List.cons_ne_nil _ _) (List.cons_ne_nil _ _)
        (List.append_cancel_left h)
      simp only [List.cons.injEq, and_true] at hoctets
      have hhi : hi = hi' := UInt16.toNat_inj.mp (by omega)
      have hlo : lo = lo' := UInt16.toNat_inj.mp (by omega)
      rw [hhi, hlo]
    · simp only [not_exists] at hy
      exact absurd (h ▸ hdot hi lo) (dot_notMem_text_v6 hy)
  · simp only [not_exists] at hx
    by_cases hy : ∃ hi lo, ys = [0, 0, 0, 0, 0, 0xffff, hi, lo]
    · obtain ⟨hi, lo, rfl⟩ := hy
      exact absurd (h ▸ hdot hi lo) (dot_notMem_text_v6 hx)
    · simp only [not_exists] at hy
      have hne : ∀ {zs : List UInt16}, zs.length = 8 → zs ≠ [] := by
        rintro zs hzs rfl
        cases hzs
      rcases text_v6 hx with htext | ⟨front, n, back, heq, htext⟩
      · rcases text_v6 hy with htext' | ⟨front', n', back', heq', htext'⟩
        · exact colons_injective (htext.symm.trans (h.trans htext'))
        · exact absurd (htext.symm.trans (h.trans htext')) (colons_ne_abbreviated (hne hxs))
      · rcases text_v6 hy with htext' | ⟨front', n', back', heq', htext'⟩
        · exact absurd (htext'.symm.trans (h.symm.trans htext)) (colons_ne_abbreviated (hne hys))
        · obtain ⟨rfl, rfl⟩ := abbreviated_injective (htext.symm.trans (h.trans htext'))
          -- The parts that are written leave one length for the zeros between them.
          subst heq heq'
          simp only [List.length_append, List.length_replicate] at hxs hys
          obtain rfl : n = n' := by omega
          rfl

/-- Addresses with one text are the same address. -/
theorem text_injective {a b : IpAddr} (ha : a.WellFormed) (hb : b.WellFormed)
    (h : a.text = b.text) : a = b := by
  cases a with
  | v4 =>
    cases b with
    | v4 => exact text_v4_injective h
    | v6 ys => exact absurd (h ▸ colon_mem_text_v6 hb) (colon_notMem_text_v4 _ _ _ _)
  | v6 xs =>
    cases b with
    | v4 => exact absurd (h ▸ colon_mem_text_v6 ha) (colon_notMem_text_v4 _ _ _ _)
    | v6 ys => rw [text_v6_injective ha hb h]

/-- No text of an address has a line break. -/
theorem newline_notMem_text (a : IpAddr) : '\n' ∉ a.text := by
  have hdotted : ∀ xs, '\n' ∉ dotted xs := by
    intro xs hmem
    rcases mem_dotted hmem with h | h
    · exact absurd h (by decide)
    · exact absurd h (by decide)
  have hcolons : ∀ segments, '\n' ∉ colons segments := notMem_colons (by decide) (by decide)
  cases a with
  | v4 => exact hdotted _
  | v6 segments =>
    by_cases hmapped : ∃ hi lo, segments = [0, 0, 0, 0, 0, 0xffff, hi, lo]
    · obtain ⟨hi, lo, rfl⟩ := hmapped
      rw [text_mapped, List.mem_append, not_or]
      exact ⟨by decide, hdotted _⟩
    · simp only [not_exists] at hmapped
      rcases text_v6 hmapped with htext | ⟨front, n, back, -, htext⟩
      · rw [htext]
        exact hcolons segments
      · rw [htext, abbreviated, List.mem_append, List.mem_append, not_or, not_or]
        exact ⟨⟨hcolons front, by decide⟩, hcolons back⟩

end IpAddr
