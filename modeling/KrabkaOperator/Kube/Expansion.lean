-- SUMMARY: References to variables in the environment and the arguments of a container: how they are expanded, and which texts are left as they are.
import Mathlib.Tactic.Common
import Mathlib.Data.List.Basic
import Mathlib.Logic.Function.Basic

/-!
# Expansion of variables

In an argument and in a value of the environment, `$(NAME)` stands for the value of the
variable `NAME`, and `$$` for a `$`. A reference to a variable that is not defined stays
as it is written, and so does a `$(` that nothing closes.
-/

namespace Expansion

inductive Part where
  | char (c : Char)
  /-- `$$` -/
  | escaped
  /-- `$(name)` -/
  | reference (name : List Char)
  deriving DecidableEq, Repr

/-- Where the reader of a text is. -/
inductive Mode where
  | text
  /-- After a `$`. -/
  | operator
  /-- Inside of `$(`, with what it has read, the last character first. -/
  | name (read : List Char)

/-- The parts of a text. -/
def parts : Mode → List Char → List Part
  | .text, [] => []
  | .text, c :: cs => if c = '$' then parts .operator cs else .char c :: parts .text cs
  | .operator, [] => [.char '$']
  | .operator, c :: cs =>
    if c = '$' then .escaped :: parts .text cs
    else if c = '(' ∧ ')' ∈ cs then parts (.name []) cs
    else .char '$' :: .char c :: parts .text cs
  | .name _, [] => []
  | .name read, c :: cs =>
    if c = ')' then .reference read.reverse :: parts .text cs else parts (.name (c :: read)) cs

namespace Part

/-- How it is written. -/
def text : Part → List Char
  | .char c => [c]
  | .escaped => ['$', '$']
  | .reference name => '$' :: '(' :: name ++ [')']

/-- What it stands for. -/
def value (env : String → Option String) : Part → List Char
  | .char c => [c]
  | .escaped => ['$']
  | .reference name =>
    match env (String.ofList name) with
    | some value => value.toList
    | none => Part.text (.reference name)

/-- Whether it stands for itself, where just the listed variables are defined. -/
def plain (defined : List String) : Part → Bool
  | .char _ => true
  | .escaped => false
  | .reference name => String.ofList name ∉ defined

end Part

def expandChars (env : String → Option String) (cs : List Char) : List Char :=
  (parts .text cs).flatMap (Part.value env)

def expand (env : String → Option String) (s : String) : String :=
  String.ofList (expandChars env s.toList)

/-- Nothing of the text is an escape or a reference to a defined variable. -/
def Plain (defined : List String) (s : String) : Prop :=
  ∀ p ∈ parts .text s.toList, p.plain defined = true

instance (defined : List String) (s : String) : Decidable (Plain defined s) :=
  inferInstanceAs (Decidable (∀ p ∈ parts .text s.toList, p.plain defined = true))

variable {env : String → Option String} {defined : List String} {cs pre : List Char}

/-! ## Reading -/

/-- What has been read before the next character. -/
def Mode.pending : Mode → List Char
  | .text => []
  | .operator => ['$']
  | .name read => '$' :: '(' :: read.reverse

/-- The reader is inside of a reference only where it is closed. -/
def Mode.Closes : Mode → List Char → Prop
  | .name _, cs => ')' ∈ cs
  | _, _ => True

/-- The parts are the text. -/
theorem text_parts {m : Mode} (h : m.Closes cs) :
    (parts m cs).flatMap Part.text = m.pending ++ cs := by
  induction cs generalizing m with
  | nil =>
    cases m with
    | text => rfl
    | operator => rfl
    | name read => exact absurd h List.not_mem_nil
  | cons c cs ih =>
    cases m with
    | text =>
      rw [parts]
      split
      · rename_i hc
        rw [hc, ih (m := .operator) trivial]
        rfl
      · rw [List.flatMap_cons, ih (m := .text) trivial]
        rfl
    | operator =>
      rw [parts]
      split
      · rename_i hc
        rw [List.flatMap_cons, ih (m := .text) trivial, hc]
        rfl
      · split
        · rename_i hc
          rw [ih (m := .name []) hc.2, hc.1]
          rfl
        · rw [List.flatMap_cons, List.flatMap_cons, ih (m := .text) trivial]
          rfl
    | name read =>
      rw [parts]
      split
      · rename_i hc
        rw [List.flatMap_cons, ih (m := .text) trivial, hc]
        simp [Part.text, Mode.pending]
      · rename_i hc
        have hcloses : ')' ∈ cs := (List.mem_cons.mp h).resolve_left fun heq => hc heq.symm
        rw [ih (m := .name (c :: read)) hcloses]
        simp [Mode.pending]

theorem flatMap_text_parts (cs : List Char) : (parts .text cs).flatMap Part.text = cs :=
  text_parts trivial

/-- A text without `$` is read character by character. -/
theorem parts_append (h : '$' ∉ pre) (cs : List Char) :
    parts .text (pre ++ cs) = pre.map Part.char ++ parts .text cs := by
  induction pre with
  | nil => rfl
  | cons c pre ih =>
    obtain ⟨hc, hpre⟩ := not_or.mp (List.mem_cons.not.mp h)
    rw [List.cons_append, parts, if_neg (Ne.symm hc), ih hpre]
    rfl

theorem parts_name {read name : List Char} (h : ')' ∉ name) (cs : List Char) :
    parts (.name read) (name ++ ')' :: cs) =
      .reference (read.reverse ++ name) :: parts .text cs := by
  induction name generalizing read with
  | nil => rw [List.nil_append, parts, if_pos rfl, List.append_nil]
  | cons c name ih =>
    obtain ⟨hc, hname⟩ := not_or.mp (List.mem_cons.not.mp h)
    rw [List.cons_append, parts, if_neg (Ne.symm hc), ih hname]
    simp

theorem parts_reference {name : List Char} (h : ')' ∉ name) (cs : List Char) :
    parts .text ('$' :: '(' :: name ++ ')' :: cs) = .reference name :: parts .text cs := by
  have hcloses : ')' ∈ name ++ ')' :: cs := by simp
  have hopen : '(' ≠ '$' := by decide
  rw [List.cons_append, List.cons_append, parts, if_pos rfl, parts, if_neg hopen,
    if_pos ⟨rfl, hcloses⟩, parts_name h]
  rfl

/-! ## Expanding -/

theorem flatMap_value_chars (cs : List Char) :
    (cs.map Part.char).flatMap (Part.value env) = cs := by
  induction cs with
  | nil => rfl
  | cons c cs ih => rw [List.map_cons, List.flatMap_cons, ih, Part.value, List.singleton_append]

theorem expandChars_append (h : '$' ∉ pre) (cs : List Char) :
    expandChars env (pre ++ cs) = pre ++ expandChars env cs := by
  rw [expandChars, parts_append h, List.flatMap_append, flatMap_value_chars]
  rfl

theorem expandChars_of_not_mem (h : '$' ∉ cs) : expandChars env cs = cs := by
  have hcs : expandChars env (cs ++ []) = cs ++ expandChars env [] := expandChars_append h []
  rwa [List.append_nil, show expandChars env [] = [] from rfl, List.append_nil] at hcs

theorem expandChars_reference {name : List Char} (h : ')' ∉ name) (cs : List Char) :
    expandChars env ('$' :: '(' :: name ++ ')' :: cs) =
      Part.value env (.reference name) ++ expandChars env cs := by
  rw [expandChars, parts_reference h, List.flatMap_cons]
  rfl

theorem value_eq_text {p : Part} (hdefined : ∀ name, (env name).isSome = true → name ∈ defined)
    (h : p.plain defined = true) : p.value env = p.text := by
  cases p with
  | char c => rfl
  | escaped => cases h
  | reference name =>
    rw [Part.plain, decide_eq_true_eq] at h
    have hname : env (String.ofList name) = none :=
      Option.not_isSome_iff_eq_none.mp fun hsome => h (hdefined _ hsome)
    simp only [Part.value, hname]

/-- A plain text stands for itself. -/
theorem expand_of_plain {s : String} (hdefined : ∀ name, (env name).isSome = true → name ∈ defined)
    (h : Plain defined s) : expand env s = s := by
  have hvalue : (parts .text s.toList).flatMap (Part.value env) =
      (parts .text s.toList).flatMap Part.text :=
    List.flatMap_congr fun p hp => value_eq_text hdefined (h p hp)
  rw [expand, expandChars, hvalue, flatMap_text_parts, String.ofList_toList]

/-- What comes before the first `$` does not matter. -/
theorem plain_append_iff {start s : String} (h : '$' ∉ start.toList) :
    Plain defined (start ++ s) ↔ Plain defined s := by
  rw [Plain, String.toList_append, parts_append h, Plain]
  simp only [List.mem_append, List.mem_map]
  constructor
  · exact fun hall p hp => hall p (.inr hp)
  · rintro hall p (⟨c, -, rfl⟩ | hp)
    · rfl
    · exact hall p hp

/-! ### A text that stands for itself is plain

Where no value has a `$`, a part that is not plain has fewer of them in what it stands for. -/

theorem count_value_le (hvalues : ∀ name v, env name = some v → '$' ∉ v.toList) (p : Part) :
    (p.value env).count '$' ≤ p.text.count '$' := by
  cases p with
  | char c => exact Nat.le_refl _
  | escaped => exact Nat.le_succ 1
  | reference name =>
    rw [Part.value]
    split
    · rename_i v hv
      rw [List.count_eq_zero.mpr (hvalues _ v hv)]
      exact Nat.zero_le _
    · exact Nat.le_refl _

theorem plain_of_count_eq (hvalues : ∀ name v, env name = some v → '$' ∉ v.toList)
    (hdefined : ∀ name ∈ defined, (env name).isSome = true) {p : Part}
    (h : (p.value env).count '$' = p.text.count '$') : p.plain defined = true := by
  cases p with
  | char c => rfl
  | escaped =>
    rw [show (Part.value env .escaped).count '$' = 1 from rfl] at h
    exact absurd h (by decide)
  | reference name =>
    rw [Part.plain, decide_eq_true_eq]
    intro hmem
    obtain ⟨v, hv⟩ := Option.isSome_iff_exists.mp (hdefined _ hmem)
    rw [Part.value] at h
    simp only [hv, List.count_eq_zero.mpr (hvalues _ v hv), Part.text, List.cons_append,
      List.count_cons_self] at h
    exact absurd h (Nat.succ_ne_zero _).symm

theorem forall_count_eq (hvalues : ∀ name v, env name = some v → '$' ∉ v.toList) {ps : List Part}
    (h : (ps.flatMap (Part.value env)).count '$' = (ps.flatMap Part.text).count '$') :
    ∀ p ∈ ps, (p.value env).count '$' = p.text.count '$' := by
  have hle (qs : List Part) :
      (qs.flatMap (Part.value env)).count '$' ≤ (qs.flatMap Part.text).count '$' := by
    induction qs with
    | nil => exact Nat.le_refl _
    | cons q qs ih =>
      rw [List.flatMap_cons, List.flatMap_cons, List.count_append, List.count_append]
      exact Nat.add_le_add (count_value_le hvalues q) ih
  induction ps with
  | nil => exact fun p hp => absurd hp List.not_mem_nil
  | cons q ps ih =>
    rw [List.flatMap_cons, List.flatMap_cons, List.count_append, List.count_append] at h
    have hq := count_value_le hvalues q
    have hps := hle ps
    intro p hp
    rcases List.mem_cons.mp hp with rfl | hp
    · omega
    · exact ih (by omega) p hp

/-- The texts that stand for themselves, where no value has a `$`, are the plain ones. -/
theorem expand_eq_self_iff {s : String} (hvalues : ∀ name v, env name = some v → '$' ∉ v.toList)
    (hdefined : ∀ name, (env name).isSome = true ↔ name ∈ defined) :
    expand env s = s ↔ Plain defined s := by
  constructor
  · intro h p hp
    have hchars : expandChars env s.toList = s.toList := by
      rw [← String.toList_ofList (l := expandChars env s.toList)]
      exact congrArg String.toList h
    have hflat : (parts .text s.toList).flatMap (Part.value env) =
        (parts .text s.toList).flatMap Part.text := by
      rw [flatMap_text_parts]
      exact hchars
    exact plain_of_count_eq hvalues (fun name hname => (hdefined name).mpr hname)
      (forall_count_eq hvalues (congrArg _ hflat) p hp)
  · exact expand_of_plain fun name => (hdefined name).mp

theorem expand_append {start s : String} (h : '$' ∉ start.toList) :
    expand env (start ++ s) = start ++ expand env s := by
  rw [expand, String.toList_append, expandChars_append h, String.ofList_append,
    String.ofList_toList]
  rfl

theorem expand_of_not_mem {s : String} (h : '$' ∉ s.toList) : expand env s = s := by
  rw [expand, expandChars_of_not_mem h, String.ofList_toList]

/-- A reference to a defined variable. -/
theorem expand_reference {name v : String} (h : ')' ∉ name.toList) (hv : env name = some v)
    (s : String) : expand env ("$(" ++ name ++ ")" ++ s) = v ++ expand env s := by
  have htext : ("$(" ++ name ++ ")" ++ s).toList =
      '$' :: '(' :: name.toList ++ ')' :: s.toList := by simp
  rw [expand, htext, expandChars_reference h, Part.value, String.ofList_toList, hv,
    String.ofList_append, String.ofList_toList]
  rfl

/-! ## Environments -/

/-- Where the value of a variable comes from. -/
inductive ValueSource where
  | value (text : String)
  /-- A field of the pod. -/
  | field (path : String)
  | secretKey (name key : String)
  deriving DecidableEq, Repr

structure Variable where
  name : String
  source : ValueSource
  deriving DecidableEq, Repr

/-- The value of a variable, after those before it. -/
def ValueSource.resolve (lookup : ValueSource → String) (env : String → Option String) :
    ValueSource → String
  | .value text => expand env text
  | source => lookup source

/-- The environment of a container: its own variables, in order, over those of the Services
    of the namespace. -/
def environment (lookup : ValueSource → String) (services : String → Option String)
    (vars : List Variable) : String → Option String :=
  vars.foldl (fun env v => Function.update env v.name (some (v.source.resolve lookup env))) services

section Environment

variable {lookup : ValueSource → String} {services : String → Option String} {vars : List Variable}

theorem environment_append (more : List Variable) :
    environment lookup services (vars ++ more) =
      environment lookup (environment lookup services vars) more := by
  rw [environment, List.foldl_append]
  rfl

theorem environment_cons (v : Variable) :
    environment lookup services (v :: vars) = environment lookup
      (Function.update services v.name (some (v.source.resolve lookup services))) vars := rfl

theorem forall_update {P : String → Prop} {e : String → Option String} {name x : String}
    (h : ∀ n v, e n = some v → P v) (hx : P x) :
    ∀ n v, Function.update e name (some x) n = some v → P v := by
  intro n v hv
  by_cases hn : n = name
  · rw [hn, Function.update_self] at hv
    exact Option.some.inj hv ▸ hx
  · rw [Function.update_of_ne hn] at hv
    exact h n v hv

/-- What each variable keeps, the environment has. -/
theorem environment_invariant {I : (String → Option String) → Prop} (h : I services)
    (hstep : ∀ v ∈ vars, ∀ e, I e →
      I (Function.update e v.name (some (v.source.resolve lookup e)))) :
    I (environment lookup services vars) := by
  induction vars generalizing services with
  | nil => exact h
  | cons v vars ih =>
    exact ih (hstep v List.mem_cons_self _ h) fun w hw => hstep w (List.mem_cons_of_mem _ hw)

theorem environment_of_not_mem {name : String} (h : name ∉ vars.map (·.name)) :
    environment lookup services vars name = services name := by
  induction vars generalizing services with
  | nil => rfl
  | cons v vars ih =>
    obtain ⟨hv, hvars⟩ := not_or.mp (List.mem_cons.not.mp h)
    exact (ih hvars).trans (Function.update_of_ne hv ..)

/-- What is defined in a container. -/
theorem isSome_environment {name : String} : (environment lookup services vars name).isSome = true ↔
    name ∈ vars.map (·.name) ∨ (services name).isSome = true := by
  induction vars generalizing services with
  | nil => simp [environment]
  | cons v vars ih =>
    rw [environment_cons, ih]
    by_cases h : name = v.name
    · subst h
      simp
    · simp [h]

end Environment

end Expansion
