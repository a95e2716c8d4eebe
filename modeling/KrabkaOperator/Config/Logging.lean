-- SUMMARY: The inline logging filter: level names, the directives of a map, and when the filter can be read back.
import KrabkaOperator.Base.Checks
import KrabkaOperator.Base.Separated
import KrabkaOperator.Base.Text
import KrabkaOperator.Kube.Fields
import Mathlib.Data.Char
import Mathlib.Data.List.Lex
import Mathlib.Data.List.Sort

/-!
# Logging

The loggers of a Kafka become one filter text: a directive for each entry of the map,
sorted and joined by commas. The directive of the logger `root` is its level alone. Texts
are lists of characters, compared by their code points.
-/

namespace Config

/-! ## Levels -/

inductive LogLevel where
  | trace
  | debug
  | info
  | warn
  | error
  | off
  deriving DecidableEq, Repr

namespace LogLevel

def name : LogLevel → List Char
  | trace => "trace".toList
  | debug => "debug".toList
  | info => "info".toList
  | warn => "warn".toList
  | error => "error".toList
  | off => "off".toList

theorem equals_notMem_name (lvl : LogLevel) : '=' ∉ lvl.name := by
  cases lvl <;> decide

theorem comma_notMem_name (lvl : LogLevel) : ',' ∉ lvl.name := by
  cases lvl <;> decide

end LogLevel

/-- The ASCII letters in lower case, all other characters as they are. -/
def toAsciiLowercase (s : List Char) : List Char := s.map Char.toLower

def eqIgnoreAsciiCase (s t : List Char) : Prop := toAsciiLowercase s = toAsciiLowercase t

instance (s t : List Char) : Decidable (eqIgnoreAsciiCase s t) :=
  inferInstanceAs (Decidable (toAsciiLowercase s = toAsciiLowercase t))

/-- The level a text stands for, with the aliases of log4j. -/
def normalizeLevel (level : String) : Option LogLevel :=
  match String.ofList (toAsciiLowercase (Text.trim level.toList)) with
  | "trace" => some .trace
  | "debug" => some .debug
  | "info" => some .info
  | "warn" | "warning" => some .warn
  | "error" | "fatal" => some .error
  | "off" | "none" => some .off
  | _ => none

/-! ## Errors -/

inductive LoggingError where
  | emptyLoggers
  | emptyLoggerName
  | invalidLevel (logger level : String)
  deriving DecidableEq, Repr

namespace LoggingError

def reason : LoggingError → String
  | emptyLoggers => "EmptyLoggers"
  | emptyLoggerName => "EmptyLoggerName"
  | invalidLevel _ _ => "InvalidLogLevel"

def message : LoggingError → String
  | emptyLoggers => "logging.type=inline requires a non-empty loggers map"
  | emptyLoggerName => "logging.loggers contains a blank key"
  | invalidLevel logger level => "logger '" ++ logger ++ "' has invalid level '" ++ level ++
      "' (want trace|debug|info|warn|error|off)"

end LoggingError

/-! ## The filter -/

/-- The logger that an entry names. -/
def loggerName (entry : String × String) : List Char := Text.trim entry.1.toList

def isRoot (logger : List Char) : Prop := eqIgnoreAsciiCase logger "root".toList

instance (logger : List Char) : Decidable (isRoot logger) :=
  inferInstanceAs (Decidable (eqIgnoreAsciiCase logger "root".toList))

def directiveText (logger : List Char) (lvl : LogLevel) : List Char :=
  if isRoot logger then lvl.name else logger ++ '=' :: lvl.name

def directive (entry : String × String) : Except LoggingError (List Char) :=
  if loggerName entry = [] then .error .emptyLoggerName
  else
    match normalizeLevel entry.2 with
    | none => .error (.invalidLevel (String.ofList (loggerName entry)) entry.2)
    | some lvl => .ok (directiveText (loggerName entry) lvl)

/-- The filter for the entries of a map, in any order. -/
def composeFilter (entries : List (String × String)) : Except LoggingError (List Char) :=
  if entries = [] then .error .emptyLoggers
  else do
    let directives ← entries.mapM directive
    pure ([','].intercalate (directives.insertionSort (· ≤ ·)))

def composeInlineFilter (loggers : Kube.BTreeMap String) : Except LoggingError (List Char) :=
  composeFilter loggers.toList

/-! ## Reading a filter -/

/-- The target and the level of a directive. A level alone has the empty target. A level
    has no `=`, so the last one of a directive is the one before its level. -/
def readDirective (d : List Char) : List Char × List Char :=
  match Separated.splitLast '=' d with
  | some (target, lvl) => (target, lvl)
  | none => ([], d)

/-- The target of an entry: the trimmed name, empty for `root`. -/
def target (entry : String × String) : List Char :=
  if isRoot (loggerName entry) then [] else loggerName entry

/-- What an entry asks for. -/
def wanted (entry : String × String) : Option (List Char × List Char) :=
  (normalizeLevel entry.2).map fun lvl => (target entry, lvl.name)

/-- A filter that has each entry as one directive, each with a target of its own. -/
structure ReadsBack (entries : List (String × String)) (filter : List Char) : Prop where
  one_each : (filter.splitOn ',').length = entries.length
  distinct : ((filter.splitOn ',').map fun d => (readDirective d).1).Nodup
  same : ((filter.splitOn ',').map fun d => some (readDirective d)).Perm (entries.map wanted)

/-- Loggers that stay apart in a filter. -/
structure Unambiguous (entries : List (String × String)) : Prop where
  no_comma : ∀ entry ∈ entries, ',' ∉ loggerName entry
  distinct : (entries.map target).Nodup

instance (entries : List (String × String)) : Decidable (Unambiguous entries) :=
  decidable_of_iff ((∀ entry ∈ entries, ',' ∉ loggerName entry) ∧ (entries.map target).Nodup)
    ⟨fun h => ⟨h.1, h.2⟩, fun h => ⟨h.1, h.2⟩⟩

theorem readDirective_directiveText (logger : List Char) (lvl : LogLevel) :
    readDirective (directiveText logger lvl) =
      (if isRoot logger then [] else logger, lvl.name) := by
  by_cases h : isRoot logger
  · simp [directiveText, readDirective, h, Separated.splitLast_of_notMem lvl.equals_notMem_name]
  · simp [directiveText, readDirective, h, Separated.splitLast_append lvl.equals_notMem_name]

/-- `root` in any case has no comma. -/
theorem comma_notMem_of_isRoot {logger : List Char} (h : isRoot logger) : ',' ∉ logger := by
  intro hmem
  have : Char.toLower ',' ∈ toAsciiLowercase logger := List.mem_map_of_mem hmem
  rw [show toAsciiLowercase logger = _ from h] at this
  exact absurd this (by decide)

theorem comma_mem_directiveText {logger : List Char} {lvl : LogLevel} :
    ',' ∈ directiveText logger lvl ↔ ',' ∈ logger := by
  by_cases h : isRoot logger
  · simp only [directiveText, if_pos h]
    exact iff_of_false lvl.comma_notMem_name (comma_notMem_of_isRoot h)
  · simp [directiveText, h, lvl.comma_notMem_name]

/-- An entry that has a directive. -/
def IsLogger (entry : String × String) : Prop :=
  loggerName entry ≠ [] ∧ (normalizeLevel entry.2).isSome

/-- The directive of an entry that has one. -/
def entryDirective (entry : String × String) : List Char :=
  directiveText (loggerName entry) ((normalizeLevel entry.2).getD .off)

theorem directive_eq_ok (entry : String × String) (d : List Char) :
    directive entry = .ok d ↔ IsLogger entry ∧ d = entryDirective entry := by
  unfold directive IsLogger entryDirective
  by_cases h : loggerName entry = []
  · simp [h]
  · cases hlvl : normalizeLevel entry.2 with
    | none => simp [h]
    | some lvl => simp [h, eq_comm]

/-- A directive reads back as its entry. -/
theorem readDirective_entryDirective {entry : String × String} (h : IsLogger entry) :
    some (readDirective (entryDirective entry)) = wanted entry := by
  obtain ⟨lvl, hlvl⟩ := Option.isSome_iff_exists.mp h.2
  simp [entryDirective, readDirective_directiveText, wanted, hlvl, target]

theorem readDirective_entryDirective_fst (entry : String × String) :
    (readDirective (entryDirective entry)).1 = target entry := by
  simp only [entryDirective, readDirective_directiveText, target]

theorem comma_mem_entryDirective {entry : String × String} :
    ',' ∈ entryDirective entry ↔ ',' ∈ loggerName entry :=
  comma_mem_directiveText

/-! ## Accepted maps -/

section Accepted

variable {entries : List (String × String)} {filter : List Char}

/-- The filter of an accepted map joins the directives of its entries in order. -/
theorem composeFilter_eq_ok :
    composeFilter entries = .ok filter ↔ entries ≠ [] ∧ (∀ entry ∈ entries, IsLogger entry) ∧
      filter = [','].intercalate ((entries.map entryDirective).insertionSort (· ≤ ·)) := by
  unfold composeFilter
  by_cases h : entries = []
  · simp [h]
  · rw [if_neg h, Checks.bind_eq_ok]
    simp only [Checks.mapM_eq_ok directive_eq_ok, ne_eq, h, not_false_eq_true, true_and]
    constructor
    · rintro ⟨directives, ⟨hall, rfl⟩, heq⟩
      cases heq
      exact ⟨hall, rfl⟩
    · rintro ⟨hall, rfl⟩
      exact ⟨_, ⟨hall, rfl⟩, rfl⟩

/-- The order of the entries does not show in the filter. -/
theorem composeFilter_perm {entries' : List (String × String)} (hperm : entries'.Perm entries)
    (h : composeFilter entries = .ok filter) : composeFilter entries' = .ok filter := by
  obtain ⟨hne, hall, rfl⟩ := composeFilter_eq_ok.mp h
  have hdirectives : (entries'.map entryDirective).insertionSort (· ≤ ·) =
      (entries.map entryDirective).insertionSort (· ≤ ·) :=
    List.Perm.eq_of_pairwise (fun a b _ _ => le_antisymm) (List.pairwise_insertionSort _ _)
      (List.pairwise_insertionSort _ _) (((List.perm_insertionSort _ _).trans
        (hperm.map entryDirective)).trans (List.perm_insertionSort _ _).symm)
  refine composeFilter_eq_ok.mpr ⟨fun hnil => hne ?_, fun entry hentry => ?_, ?_⟩
  · simpa [hnil] using hperm
  · exact hall entry (hperm.mem_iff.mp hentry)
  · rw [hdirectives]

/-- Without commas in the names, the pieces of the filter are the directives. -/
theorem splitOn_composeFilter (h : composeFilter entries = .ok filter)
    (hcomma : ∀ entry ∈ entries, ',' ∉ loggerName entry) :
    (filter.splitOn ',').Perm (entries.map entryDirective) := by
  obtain ⟨hne, -, rfl⟩ := composeFilter_eq_ok.mp h
  have hsort := List.perm_insertionSort (· ≤ ·) (entries.map entryDirective)
  rw [List.splitOn_intercalate]
  · exact hsort
  · intro d hd
    obtain ⟨entry, hentry, rfl⟩ := List.mem_map.mp (hsort.mem_iff.mp hd)
    exact fun hmem => hcomma entry hentry (comma_mem_entryDirective.mp hmem)
  · intro hnil
    rw [hnil, List.nil_perm, List.map_eq_nil_iff] at hsort
    exact hne hsort

/-- As many pieces as entries leave no comma in a name. -/
theorem comma_notMem_of_length (h : composeFilter entries = .ok filter)
    (hlen : (filter.splitOn ',').length = entries.length) :
    ∀ entry ∈ entries, ',' ∉ loggerName entry := by
  obtain ⟨hne, -, rfl⟩ := composeFilter_eq_ok.mp h
  have hsort := List.perm_insertionSort (· ≤ ·) (entries.map entryDirective)
  have hpieces : (entries.map entryDirective).insertionSort (· ≤ ·) ≠ [] := by
    intro hnil
    rw [hnil, List.nil_perm, List.map_eq_nil_iff] at hsort
    exact hne hsort
  have hlen' : entries.length = ((entries.map entryDirective).insertionSort (· ≤ ·)).length := by
    rw [hsort.length_eq, List.length_map]
  rw [hlen', Separated.length_splitOn_intercalate hpieces] at hlen
  intro entry hentry hmem
  exact hlen (entryDirective entry) (hsort.mem_iff.mpr (List.mem_map_of_mem hentry))
    (comma_mem_entryDirective.mpr hmem)

theorem readsBack_iff (h : composeFilter entries = .ok filter) :
    ReadsBack entries filter ↔ Unambiguous entries := by
  have hall := (composeFilter_eq_ok.mp h).2.1
  have htarget : (entries.map entryDirective).map (fun d => (readDirective d).1) =
      entries.map target := by
    simp only [List.map_map, Function.comp_def, readDirective_entryDirective_fst]
  have hwanted : (entries.map entryDirective).map (fun d => some (readDirective d)) =
      entries.map wanted := by
    rw [List.map_map]
    exact List.map_congr_left fun entry hentry => readDirective_entryDirective (hall entry hentry)
  constructor
  · intro hread
    have hcomma := comma_notMem_of_length h hread.one_each
    have hperm := (splitOn_composeFilter h hcomma).map fun d => (readDirective d).1
    exact ⟨hcomma, htarget ▸ hperm.nodup_iff.mp hread.distinct⟩
  · intro hapart
    have hperm := splitOn_composeFilter h hapart.no_comma
    refine ⟨?_, ?_, ?_⟩
    · rw [hperm.length_eq, List.length_map]
    · exact (hperm.map _).nodup_iff.mpr (htarget ▸ hapart.distinct)
    · exact hwanted ▸ hperm.map fun d => some (readDirective d)

end Accepted

/-- An accepted map of loggers reads back from its filter, in any order of its entries, just
    when no name has a comma in it and no two entries have the same target. -/
theorem inline_filter_reads_back_iff {loggers : Kube.BTreeMap String} {filter : List Char}
    (h : composeInlineFilter loggers = .ok filter) :
    (∀ entries, entries.Perm loggers.toList →
      composeFilter entries = .ok filter ∧ ReadsBack entries filter) ↔
      Unambiguous loggers.toList := by
  constructor
  · intro hread
    exact (readsBack_iff h).mp (hread loggers.toList (.refl _)).2
  · intro hapart entries hperm
    have hentries := composeFilter_perm hperm h
    refine ⟨hentries, (readsBack_iff hentries).mpr ⟨fun entry hentry => ?_, ?_⟩⟩
    · exact hapart.no_comma entry (hperm.mem_iff.mp hentry)
    · exact (hperm.map target).nodup_iff.mpr hapart.distinct

theorem inline_filter_reads_back_mixed :
    Unambiguous (Kube.BTreeMap.ofList
      [("Root", " INFO "), ("a=b", "warning"), (" info ", "Debug")]).toList ∧
    ∀ entries, entries.Perm (Kube.BTreeMap.ofList
        [("Root", " INFO "), ("a=b", "warning"), (" info ", "Debug")]).toList →
      composeFilter entries = .ok "a=b=warn,info,info=debug".toList ∧
        ReadsBack entries "a=b=warn,info,info=debug".toList :=
  ⟨by decide, (inline_filter_reads_back_iff (by decide)).mpr (by decide)⟩

/-- One entry becomes two directives, and two entries become one. -/
theorem inline_filter_ambiguous :
    (composeInlineFilter (.ofList [("a,b", "info")]) = .ok "a,b=info".toList ∧
      ¬ ReadsBack (Kube.BTreeMap.ofList [("a,b", "info")]).toList "a,b=info".toList) ∧
    composeInlineFilter (.ofList [("root", "info"), ("ROOT", "debug")]) =
        .ok "debug,info".toList ∧
      ¬ ReadsBack (Kube.BTreeMap.ofList [("root", "info"), ("ROOT", "debug")]).toList
        "debug,info".toList := by
  refine ⟨⟨by decide, fun h => ?_⟩, by decide, fun h => ?_⟩
  · exact absurd h.one_each (by decide)
  · exact absurd h.distinct (by decide)

end Config
