-- SUMMARY: Kafka versions and metadata versions: how they are read, which pairs are valid, and what a valid metadata version is.
import KrabkaOperator.Base.Decimal
import KrabkaOperator.Base.Text
import Mathlib.Data.List.TakeWhile
import Mathlib.Data.Prod.Lex
import Mathlib.Order.Lattice

/-!
# Versions

The binary of a cluster has a Kafka version, and its metadata has a feature level
that belongs to a `major.minor`. The table of the levels is that of the metadata
library.
-/

namespace Version

/-! ## Reading a version -/

structure KafkaVersion where
  major : Nat
  minor : Nat
  patch : Nat
  deriving DecidableEq, Repr

/-- What metadata versions are compared by. -/
abbrev MetadataKey := Nat ×ₗ Nat

def KafkaVersion.metadataKey (v : KafkaVersion) : MetadataKey := toLex (v.major, v.minor)

def KafkaVersion.short (v : KafkaVersion) : String := toString v.major ++ "." ++ toString v.minor

def parseComponent (c : List Char) : Option Nat :=
  Decimal.parseUnsigned (2 ^ 32) (String.ofList c)

def KafkaVersion.parse (s : String) : Option KafkaVersion :=
  let trimmed := Text.trim s.toList
  if trimmed = [] then none
  else
    match (trimmed.takeWhile (· ≠ '-')).splitOn '.' with
    | [major] => do
      let major ← parseComponent major
      pure ⟨major, 0, 0⟩
    | [major, minor] => do
      let major ← parseComponent major
      let minor ← parseComponent minor
      pure ⟨major, minor, 0⟩
    | [major, minor, patch] => do
      let major ← parseComponent major
      let minor ← parseComponent minor
      let patch ← parseComponent patch
      pure ⟨major, minor, patch⟩
    | _ => none

example : KafkaVersion.parse " 3.7-IV2 " = some ⟨3, 7, 0⟩ := by decide

/-! ## Which versions are valid -/

/-- The feature levels that the metadata library knows. -/
structure MetadataTable where
  fromVersionString : String → Option Int
  metadataVersionMin : Int
  onlineDowngradeMinLevel : Int

inductive VersionReason where
  | invalidVersion
  | metadataVersionTooHigh
  | metadataVersionTooLow
  deriving DecidableEq, Repr

def VersionReason.asStr : VersionReason → String
  | .invalidVersion => "InvalidVersion"
  | .metadataVersionTooHigh => "MetadataVersionTooHigh"
  | .metadataVersionTooLow => "MetadataVersionTooLow"

inductive VersionOutcome where
  | valid (resolvedMetadata : String)
  | invalid (reason : VersionReason) (message : String)
  deriving DecidableEq, Repr

section Evaluate

variable (printable : Char → Bool) (table : MetadataTable)

/-- The checks of a metadata version that could be read. -/
def evaluateResolved (binary resolved : KafkaVersion) (finalized : Option KafkaVersion) :
    VersionOutcome :=
  if binary.metadataKey < resolved.metadataKey then
    .invalid .metadataVersionTooHigh ("metadata.version " ++ resolved.short ++
      " is newer than kafkaVersion " ++ binary.short ++ "; upgrade the binary first")
  else
    match table.fromVersionString resolved.short with
    | none => .invalid .metadataVersionTooLow
        ("metadata.version " ++ resolved.short ++ " is not a supported level")
    | some level =>
      if level < table.metadataVersionMin then
        .invalid .metadataVersionTooLow ("metadata.version " ++ resolved.short ++
          " is below the broker's supported floor (3.3-IV3)")
      else if (finalized.any fun finalized => resolved.metadataKey < finalized.metadataKey) ∧
          level < table.onlineDowngradeMinLevel then
        .invalid .metadataVersionTooLow ("online metadata.version downgrade to " ++
          resolved.short ++ " is below the supported floor (3.7-IV0)")
      else .valid resolved.short

def evaluate (kafkaVersion : String) (specMetadataVersion finalizedMetadataVersion : Option String) :
    VersionOutcome :=
  match KafkaVersion.parse kafkaVersion with
  | none => .invalid .invalidVersion
      ("spec.kafkaVersion " ++ Text.debug printable kafkaVersion.toList ++ " is not a valid version")
  | some binary =>
    let finalized := finalizedMetadataVersion >>= KafkaVersion.parse
    match specMetadataVersion with
    | none => evaluateResolved table binary binary finalized
    | some raw =>
      match KafkaVersion.parse raw with
      | none => .invalid .invalidVersion
          ("spec.metadataVersion " ++ Text.debug printable raw.toList ++ " is not a valid version")
      | some resolved => evaluateResolved table binary resolved finalized

end Evaluate

/-! ## Reading back what was printed -/

theorem parseComponent_lt {c : List Char} {n : Nat} (h : parseComponent c = some n) : n < 2 ^ 32 := by
  unfold parseComponent Decimal.parseUnsigned at h
  simpa using (Option.filter_eq_some_iff.mp h).2

theorem parseComponent_toString {n : Nat} (h : n < 2 ^ 32) :
    parseComponent (toString n).toList = some n := by
  rw [parseComponent, String.ofList_toList]
  exact Decimal.parseUnsigned_toString h

/-- The components of a version that was read are `u32`. -/
theorem KafkaVersion.parse_lt {s : String} {v : KafkaVersion} (h : KafkaVersion.parse s = some v) :
    v.major < 2 ^ 32 ∧ v.minor < 2 ^ 32 := by
  unfold KafkaVersion.parse at h
  dsimp only at h
  split at h
  · cases h
  · split at h
    · obtain ⟨major, hmajor, hv⟩ := Option.bind_eq_some_iff.mp h
      cases hv
      exact ⟨parseComponent_lt hmajor, Nat.two_pow_pos 32⟩
    · obtain ⟨major, hmajor, h⟩ := Option.bind_eq_some_iff.mp h
      obtain ⟨minor, hminor, hv⟩ := Option.bind_eq_some_iff.mp h
      cases hv
      exact ⟨parseComponent_lt hmajor, parseComponent_lt hminor⟩
    · obtain ⟨major, hmajor, h⟩ := Option.bind_eq_some_iff.mp h
      obtain ⟨minor, hminor, h⟩ := Option.bind_eq_some_iff.mp h
      obtain ⟨patch, -, hv⟩ := Option.bind_eq_some_iff.mp h
      cases hv
      exact ⟨parseComponent_lt hmajor, parseComponent_lt hminor⟩
    · cases h

/-- The characters of a `major.minor`. -/
theorem isDigit_of_mem_toString {n : Nat} {c : Char} (h : c ∈ (toString n).toList) :
    c.isDigit = true := by
  have hlist : (toString n).toList = Nat.toDigits 10 n := Nat.toList_repr
  rw [hlist] at h
  exact Nat.isDigit_of_mem_toDigits (by decide) (by decide) h

theorem parse_short {v : KafkaVersion} (hmajor : v.major < 2 ^ 32) (hminor : v.minor < 2 ^ 32) :
    KafkaVersion.parse v.short = some ⟨v.major, v.minor, 0⟩ := by
  have hchars : v.short.toList = (toString v.major).toList ++ '.' :: (toString v.minor).toList := by
    rw [KafkaVersion.short, String.toList_append, String.toList_append, List.append_assoc]
    rfl
  have hmem : ∀ c ∈ v.short.toList, c.isDigit = true ∨ c = '.' := by
    intro c hc
    rw [hchars, List.mem_append, List.mem_cons] at hc
    rcases hc with hc | rfl | hc
    · exact .inl (isDigit_of_mem_toString hc)
    · exact .inr rfl
    · exact .inl (isDigit_of_mem_toString hc)
  have htrim : Text.trim v.short.toList = v.short.toList := by
    refine Text.trim_eq_self fun c hc => ?_
    rcases hmem c hc with hdigit | rfl
    · exact Text.isWhitespace_of_isDigit hdigit
    · decide
  have hcore : v.short.toList.takeWhile (· ≠ '-') = v.short.toList := by
    refine List.takeWhile_eq_self_iff.mpr fun c hc => ?_
    rcases hmem c hc with hdigit | rfl
    · rw [decide_eq_true_eq]
      rintro rfl
      cases hdigit
    · decide
  have hsplit : v.short.toList.splitOn '.' = [(toString v.major).toList, (toString v.minor).toList] := by
    have hdot : ∀ n : Nat, '.' ∉ (toString n).toList := fun n hc => by
      cases isDigit_of_mem_toString hc
    rw [hchars, List.splitOn_append_cons_self_of_not_mem (hdot _), List.splitOn_eq_singleton (hdot _)]
  have hne : v.short.toList ≠ [] := by
    rw [hchars]
    exact List.append_ne_nil_of_right_ne_nil _ (List.cons_ne_nil _ _)
  unfold KafkaVersion.parse
  dsimp only
  rw [htrim, if_neg hne, hcore, hsplit]
  dsimp only
  rw [parseComponent_toString hmajor, parseComponent_toString hminor]
  rfl

/-! ## What a valid metadata version is -/

section Valid

variable {printable : Char → Bool} {table : MetadataTable}

/-- A metadata version that is valid for a binary: no newer than it, of a supported level,
    and no online downgrade below the floor. -/
structure Valid (table : MetadataTable) (kafkaVersion : String) (finalized : Option String)
    (metadata : String) : Prop where
  atMostBinary : ∃ binary resolved, KafkaVersion.parse kafkaVersion = some binary ∧
    KafkaVersion.parse metadata = some resolved ∧ resolved.metadataKey ≤ binary.metadataKey
  supported : ∃ level, table.fromVersionString metadata = some level ∧
    table.metadataVersionMin ≤ level
  downgrade : ∀ resolved version old level, KafkaVersion.parse metadata = some resolved →
    finalized = some version → KafkaVersion.parse version = some old →
    resolved.metadataKey < old.metadataKey → table.fromVersionString metadata = some level →
    table.onlineDowngradeMinLevel ≤ level

theorem evaluateResolved_valid {binary resolved : KafkaVersion} {finalized : Option KafkaVersion}
    {metadata : String} (h : evaluateResolved table binary resolved finalized = .valid metadata) :
    metadata = resolved.short ∧ resolved.metadataKey ≤ binary.metadataKey ∧
      ∃ level, table.fromVersionString resolved.short = some level ∧
        table.metadataVersionMin ≤ level ∧ ∀ old, finalized = some old →
          resolved.metadataKey < old.metadataKey → table.onlineDowngradeMinLevel ≤ level := by
  unfold evaluateResolved at h
  split at h
  · cases h
  · rename_i hle
    split at h
    · cases h
    · rename_i level hlevel
      split at h
      · cases h
      · rename_i hmin
        split at h
        · cases h
        · rename_i hdown
          cases h
          refine ⟨rfl, not_lt.mp hle, level, hlevel, not_lt.mp hmin, ?_⟩
          intro old hold hlt
          by_contra hfloor
          exact hdown ⟨by simpa [hold] using hlt, not_le.mp hfloor⟩

/-- Every metadata version that `evaluate` returns is valid. -/
theorem evaluate_valid {kafkaVersion metadata : String} {pin finalized : Option String}
    (h : evaluate printable table kafkaVersion pin finalized = .valid metadata) :
    Valid table kafkaVersion finalized metadata := by
  have hcheck : ∃ binary resolved, KafkaVersion.parse kafkaVersion = some binary ∧
      (resolved.major < 2 ^ 32 ∧ resolved.minor < 2 ^ 32) ∧
      evaluateResolved table binary resolved (finalized >>= KafkaVersion.parse) = .valid metadata := by
    unfold evaluate at h
    split at h
    · cases h
    · rename_i binary hbinary
      split at h
      · exact ⟨binary, binary, hbinary, KafkaVersion.parse_lt hbinary, h⟩
      · split at h
        · cases h
        · rename_i resolved hresolved
          exact ⟨binary, resolved, hbinary, KafkaVersion.parse_lt hresolved, h⟩
  obtain ⟨binary, resolved, hbinary, ⟨hmajor, hminor⟩, hvalid⟩ := hcheck
  obtain ⟨rfl, hle, level, hlevel, hmin, hdown⟩ := evaluateResolved_valid hvalid
  have hparse := parse_short hmajor hminor
  refine ⟨⟨binary, _, hbinary, hparse, hle⟩, ⟨level, hlevel, hmin⟩, ?_⟩
  intro resolved' version old level' hresolved' hfin hold hlt hlevel'
  rw [hparse] at hresolved'
  cases hresolved'
  rw [hlevel] at hlevel'
  cases hlevel'
  refine hdown old ?_ hlt
  rw [hfin]
  exact hold

end Valid

end Version
