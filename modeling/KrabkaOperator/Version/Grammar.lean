-- SUMMARY: Which texts are read as versions, by the grammar of versions, and that a plus sign is the only thing that is read beyond it.
import KrabkaOperator.Version.Evaluate

/-!
# The grammar of versions

A version is written as one to three numbers with dots between them, and with any suffix
behind a dash. The numbers are read by a parser of integers, which also takes a plus sign.
-/

namespace Version

/-! ## The grammar -/

/-- The digits of a `u32`. -/
def Digits (c : List Char) (n : Nat) : Prop :=
  c ≠ [] ∧ (∀ d ∈ c, d.isDigit = true) ∧ Nat.ofDigitChars 10 c 0 = n ∧ n < 4294967296

/-- Digits, with or without a plus sign in front. -/
def SignedDigits (c : List Char) (n : Nat) : Prop :=
  Digits c n ∨ ∃ ds, c = '+' :: ds ∧ Digits ds n

variable {R R' : List Char → Nat → Prop} {c core : List Char} {n : Nat} {s : String}
  {v w : KafkaVersion}

/-- One to three numbers with dots between them. -/
inductive Core (R : List Char → Nat → Prop) : List Char → KafkaVersion → Prop
  | major {a : List Char} {n : Nat} (ha : R a n) : Core R a ⟨n, 0, 0⟩
  | minor {a b : List Char} {n m : Nat} (ha : R a n) (hb : R b m) : Core R (a ++ '.' :: b) ⟨n, m, 0⟩
  | patch {a b c : List Char} {n m k : Nat} (ha : R a n) (hb : R b m) (hc : R c k) :
      Core R (a ++ '.' :: (b ++ '.' :: c)) ⟨n, m, k⟩

/-- The text is a core within white space, with or without a suffix. -/
def CoreOf (core : List Char) (s : String) : Prop :=
  Text.trim s.toList = core ∨ ∃ suffix, Text.trim s.toList = core ++ '-' :: suffix

/-- The text is a version whose numbers are written by `R`. -/
def Written (R : List Char → Nat → Prop) (s : String) (v : KafkaVersion) : Prop :=
  ∃ core, CoreOf core s ∧ Core R core v

/-- The text is a version except for plus signs in front of its numbers. -/
def PlusSigned (s : String) : Prop :=
  ∃ core v, CoreOf core s ∧ Core SignedDigits core v ∧ '+' ∈ core

/-! ## Numbers -/

theorem parseDigits_eq_some_iff :
    (Decimal.parseDigits c).filter (· < 2 ^ 32) = some n ↔ Digits c n := by
  rw [Option.filter_eq_some_iff, Decimal.parseDigits, Digits]
  split
  · next h =>
    obtain ⟨hne, hdigits⟩ := h
    simp only [List.all_eq_true] at hdigits
    simp only [Option.some.injEq, decide_eq_true_eq]
    exact ⟨fun hread => ⟨hne, hdigits, hread⟩, fun hread => hread.2.2⟩
  · next h =>
    constructor
    · exact fun hread => absurd hread.1 (Option.some_ne_none n).symm
    · exact fun hread => absurd ⟨hread.1, List.all_eq_true.mpr hread.2.1⟩ h

/-- The parser of integers reads digits, and a plus sign in front of them. -/
theorem parseComponent_eq_some_iff : parseComponent c = some n ↔ SignedDigits c n := by
  rw [parseComponent, Decimal.parseUnsigned, String.toList_ofList, SignedDigits]
  split
  · next ds =>
    rw [parseDigits_eq_some_iff]
    constructor
    · exact fun h => .inr ⟨ds, rfl, h⟩
    · rintro (⟨-, hdigits, -⟩ | ⟨ds', heq, h⟩)
      · exact absurd (hdigits '+' List.mem_cons_self) (by decide)
      · cases heq
        exact h
  · next hplus =>
    rw [parseDigits_eq_some_iff]
    constructor
    · exact .inl
    · rintro (h | ⟨ds, rfl, -⟩)
      · exact h
      · exact absurd rfl (hplus ds)

theorem Digits.isDigit (h : Digits c n) : ∀ d ∈ c, d.isDigit = true := h.2.1

theorem SignedDigits.ne_nil (h : SignedDigits c n) : c ≠ [] := by
  rcases h with h | ⟨ds, rfl, -⟩
  · exact h.1
  · exact List.cons_ne_nil _ _

/-- There are digits and plus signs in a number, but no dots and no dashes. -/
theorem SignedDigits.chars (h : SignedDigits c n) : ∀ d ∈ c, d.isDigit = true ∨ d = '+' := by
  intro d hd
  rcases h with h | ⟨ds, rfl, h⟩
  · exact .inl (h.isDigit d hd)
  · rcases List.mem_cons.mp hd with rfl | hd
    · exact .inr rfl
    · exact .inl (h.isDigit d hd)

theorem SignedDigits.notMem (h : SignedDigits c n) {d : Char} (hdigit : d.isDigit = false)
    (hplus : d ≠ '+') : d ∉ c := by
  intro hd
  rcases h.chars d hd with hd | hd
  · rw [hdigit] at hd
    cases hd
  · exact hplus hd

theorem SignedDigits.digits (h : SignedDigits c n) (hplus : '+' ∉ c) : Digits c n := by
  rcases h with h | ⟨ds, rfl, -⟩
  · exact h
  · exact absurd List.mem_cons_self hplus

/-! ## Cores -/

theorem Core.mono (hR : ∀ c n, R c n → R' c n) (h : Core R core v) : Core R' core v := by
  cases h with
  | major ha => exact .major (hR _ _ ha)
  | minor ha hb => exact .minor (hR _ _ ha) (hR _ _ hb)
  | patch ha hb hc => exact .patch (hR _ _ ha) (hR _ _ hb) (hR _ _ hc)

/-- A character that is in no number and no dot is in no core. -/
theorem Core.notMem {d : Char} (hR : ∀ c n, R c n → d ∉ c) (hdot : d ≠ '.')
    (h : Core R core v) : d ∉ core := by
  cases h with
  | major ha => exact hR _ _ ha
  | minor ha hb => simp [hR _ _ ha, hR _ _ hb, hdot]
  | patch ha hb hc => simp [hR _ _ ha, hR _ _ hb, hR _ _ hc, hdot]

theorem Core.digits (h : Core SignedDigits core v) (hplus : '+' ∉ core) : Core Digits core v := by
  cases h with
  | major ha => exact .major (ha.digits hplus)
  | minor ha hb =>
    simp only [List.mem_append, List.mem_cons, not_or] at hplus
    exact .minor (ha.digits hplus.1) (hb.digits hplus.2.2)
  | patch ha hb hc =>
    simp only [List.mem_append, List.mem_cons, not_or] at hplus
    exact .patch (ha.digits hplus.1) (hb.digits hplus.2.2.1) (hc.digits hplus.2.2.2.2)

/-- What `KafkaVersion.parse` does with the text before the suffix. -/
def readCore (core : List Char) : Option KafkaVersion :=
  match core.splitOn '.' with
  | [major] => do
    let major ← parseComponent major
    pure ⟨major, 0, 0⟩
  | [major, minor] => do
    let major ← parseComponent major
    let minor ← parseComponent minor
    pure ⟨major, minor, 0⟩
  | [major, minor, patch] => do
    let major ← parseComponent major
    let minor ← parseComponent minor
    let patch ← parseComponent patch
    pure ⟨major, minor, patch⟩
  | _ => none

theorem parse_eq_readCore (s : String) :
    KafkaVersion.parse s = readCore ((Text.trim s.toList).takeWhile (· ≠ '-')) := by
  unfold KafkaVersion.parse
  dsimp only
  split
  · next htrim =>
    rw [htrim]
    rfl
  · rfl

theorem core_of_readCore (h : readCore core = some v) : Core SignedDigits core v := by
  have hjoin : ['.'].intercalate (core.splitOn '.') = core := List.intercalate_splitOn '.'
  unfold readCore at h
  split at h
  · next a hsplit =>
    obtain ⟨n, ha, hv⟩ := Option.bind_eq_some_iff.mp h
    cases hv
    rw [← hjoin, hsplit]
    simpa using Core.major (parseComponent_eq_some_iff.mp ha)
  · next a b hsplit =>
    obtain ⟨n, ha, h⟩ := Option.bind_eq_some_iff.mp h
    obtain ⟨m, hb, hv⟩ := Option.bind_eq_some_iff.mp h
    cases hv
    rw [← hjoin, hsplit]
    simpa using Core.minor (parseComponent_eq_some_iff.mp ha) (parseComponent_eq_some_iff.mp hb)
  · next a b c hsplit =>
    obtain ⟨n, ha, h⟩ := Option.bind_eq_some_iff.mp h
    obtain ⟨m, hb, h⟩ := Option.bind_eq_some_iff.mp h
    obtain ⟨k, hc, hv⟩ := Option.bind_eq_some_iff.mp h
    cases hv
    rw [← hjoin, hsplit]
    simpa using Core.patch (parseComponent_eq_some_iff.mp ha) (parseComponent_eq_some_iff.mp hb)
      (parseComponent_eq_some_iff.mp hc)
  · cases h

theorem readCore_of_core (h : Core SignedDigits core v) : readCore core = some v := by
  have hdot : ∀ {c : List Char} {n : Nat}, SignedDigits c n → '.' ∉ c :=
    fun h => h.notMem (by decide) (by decide)
  unfold readCore
  cases h with
  | major ha =>
    rw [List.splitOn_eq_singleton (hdot ha)]
    simp only [parseComponent_eq_some_iff.mpr ha]
    rfl
  | minor ha hb =>
    rw [List.splitOn_append_cons_self_of_not_mem (hdot ha), List.splitOn_eq_singleton (hdot hb)]
    simp only [parseComponent_eq_some_iff.mpr ha, parseComponent_eq_some_iff.mpr hb]
    rfl
  | patch ha hb hc =>
    rw [List.splitOn_append_cons_self_of_not_mem (hdot ha),
      List.splitOn_append_cons_self_of_not_mem (hdot hb), List.splitOn_eq_singleton (hdot hc)]
    simp only [parseComponent_eq_some_iff.mpr ha, parseComponent_eq_some_iff.mpr hb,
      parseComponent_eq_some_iff.mpr hc]
    rfl

/-! ## The suffix -/

theorem coreOf_takeWhile (s : String) :
    CoreOf ((Text.trim s.toList).takeWhile (· ≠ '-')) s := by
  have hsplit := List.takeWhile_append_dropWhile (p := (· ≠ '-')) (l := Text.trim s.toList)
  cases hrest : (Text.trim s.toList).dropWhile (· ≠ '-') with
  | nil =>
    rw [hrest, List.append_nil] at hsplit
    exact .inl hsplit.symm
  | cons d suffix =>
    have hd : d = '-' := by
      have hhead := List.head?_dropWhile_not (· ≠ '-') (Text.trim s.toList)
      rw [hrest] at hhead
      simpa using hhead
    rw [hrest, hd] at hsplit
    exact .inr ⟨suffix, hsplit.symm⟩

theorem takeWhile_of_coreOf (h : CoreOf core s) (hdash : '-' ∉ core) :
    (Text.trim s.toList).takeWhile (· ≠ '-') = core := by
  have hcore : ∀ d ∈ core, (decide (d ≠ '-')) = true := by
    intro d hd
    rw [decide_eq_true_eq]
    rintro rfl
    exact hdash hd
  rcases h with h | ⟨suffix, h⟩
  · rw [h]
    exact List.takeWhile_eq_self_iff.mpr hcore
  · rw [h, List.takeWhile_append_of_pos hcore]
    simp

theorem dash_notMem (h : Core SignedDigits core v) : '-' ∉ core :=
  h.notMem (fun _ _ hc => hc.notMem (by decide) (by decide)) (by decide)

/-! ## What is read -/

theorem parse_eq_some_iff : KafkaVersion.parse s = some v ↔ Written SignedDigits s v := by
  rw [parse_eq_readCore]
  constructor
  · exact fun h => ⟨_, coreOf_takeWhile s, core_of_readCore h⟩
  · intro ⟨core, hof, hcore⟩
    rw [takeWhile_of_coreOf hof (dash_notMem hcore)]
    exact readCore_of_core hcore

/-- The core of a text that is read is unique. -/
theorem core_unique {core' : List Char} (hof : CoreOf core s) (hcore : Core SignedDigits core v)
    (hof' : CoreOf core' s) (hcore' : Core SignedDigits core' w) : core = core' := by
  rw [← takeWhile_of_coreOf hof (dash_notMem hcore), takeWhile_of_coreOf hof' (dash_notMem hcore')]

theorem Written.signed (h : Written Digits s v) : Written SignedDigits s v := by
  obtain ⟨core, hof, hcore⟩ := h
  exact ⟨core, hof, hcore.mono fun _ _ => .inl⟩

theorem plus_notMem (h : Core Digits core v) : '+' ∉ core :=
  h.notMem (fun _ _ hc hplus => absurd (hc.isDigit _ hplus) (by decide)) (by decide)

/-- A text is read as it is written: just by the grammar, with its own metadata key for the short
    form, and in the order of the numbers that it has. -/
structure ReadsAsWritten (s : String) : Prop where
  exact : ∀ v, KafkaVersion.parse s = some v ↔ Written Digits s v
  short : ∀ v, KafkaVersion.parse s = some v →
    ∃ w, KafkaVersion.parse v.short = some w ∧ w.metadataKey = v.metadataKey
  order : ∀ s' v v', KafkaVersion.parse s = some v → KafkaVersion.parse s' = some v' →
    ∀ w w', Written SignedDigits s w → Written SignedDigits s' w' →
      (v.metadataKey < v'.metadataKey ↔
        w.major < w'.major ∨ w.major = w'.major ∧ w.minor < w'.minor)

theorem metadataKey_lt_iff :
    v.metadataKey < w.metadataKey ↔ v.major < w.major ∨ v.major = w.major ∧ v.minor < w.minor :=
  Prod.Lex.toLex_lt_toLex

/-- Every text is read as it is written, unless it is a version with plus signs. -/
theorem readsAsWritten_iff (s : String) : ReadsAsWritten s ↔ ¬ PlusSigned s := by
  constructor
  · intro h ⟨core, v, hof, hcore, hplus⟩
    obtain ⟨core', hof', hcore'⟩ := (h.exact v).mp (parse_eq_some_iff.mpr ⟨core, hof, hcore⟩)
    rw [core_unique hof hcore hof' (hcore'.mono fun _ _ => .inl)] at hplus
    exact plus_notMem hcore' hplus
  · intro h
    refine ⟨fun v => ?_, fun v hv => ?_, fun s' v v' hv hv' w w' hw hw' => ?_⟩
    · rw [parse_eq_some_iff]
      refine ⟨fun ⟨core, hof, hcore⟩ => ?_, Written.signed⟩
      exact ⟨core, hof, hcore.digits fun hplus => h ⟨core, v, hof, hcore, hplus⟩⟩
    · obtain ⟨hmajor, hminor⟩ := KafkaVersion.parse_lt hv
      exact ⟨_, parse_short hmajor hminor, rfl⟩
    · -- What is written is what is read.
      cases hv.symm.trans (parse_eq_some_iff.mpr hw)
      cases hv'.symm.trans (parse_eq_some_iff.mpr hw')
      exact metadataKey_lt_iff

/-- `+3.7` is read as a version, and is none by the grammar. -/
theorem readsAsWritten_plus :
    KafkaVersion.parse "+3.7" = some ⟨3, 7, 0⟩ ∧ ¬ Written Digits "+3.7" ⟨3, 7, 0⟩ := by
  refine ⟨by decide, fun ⟨core, hof, hcore⟩ => ?_⟩
  have heq := takeWhile_of_coreOf hof (dash_notMem (hcore.mono fun _ _ => .inl))
  have hplus : '+' ∈ (Text.trim "+3.7".toList).takeWhile (· ≠ '-') := by decide
  rw [heq] at hplus
  exact plus_notMem hcore hplus

end Version
