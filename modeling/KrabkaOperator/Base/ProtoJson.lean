-- SUMMARY: JSON values, and the forms in which a message can be written as JSON: a field under one of two names, a default that is left out, an integer as a number or as text.
import KrabkaOperator.Base.Decimal

/-!
# Messages as JSON

A writer of a message has choices that its reader cannot foresee. A field has its
original name or its name in camel case, a field with the default value may be left out,
an enumeration is a name or an ordinal, and an integer a number or a text. `Form` says
which JSON stands for a value; a reader is right when it reads every form.
-/

namespace ProtoJson

/-! ## Values -/

/-- An integer, or a number with a fraction or an exponent. -/
inductive Number where
  | int (i : Int)
  | float (x : Rat)
  deriving DecidableEq, Repr

inductive Value where
  | null
  | bool (b : Bool)
  | number (n : Number)
  | string (s : String)
  | array (vs : List Value)
  | object (entries : List (String × Value))
  deriving Repr

def Value.get? (key : String) : Value → Option Value
  | .object entries => entries.lookup key
  | _ => none

def Value.asStr? : Value → Option String
  | .string s => some s
  | _ => none

def Value.asArray? : Value → Option (List Value)
  | .array vs => some vs
  | _ => none

/-- The integers of a signed type. -/
def InRange (bound : Nat) (i : Int) : Prop := -(bound : Int) ≤ i ∧ i < bound

instance {bound : Nat} {i : Int} : Decidable (InRange bound i) := instDecidableAnd

def InI32 : Int → Prop := InRange (2 ^ 31)

instance {i : Int} : Decidable (InI32 i) := instDecidableAnd

def InI64 : Int → Prop := InRange (2 ^ 63)

instance {i : Int} : Decidable (InI64 i) := instDecidableAnd

def Number.asI64? : Number → Option Int
  | .int i => if InI64 i then some i else none
  | .float _ => none

/-! ## Forms -/

/-- A field is written under one of its two names, or under none. -/
def Writes (v : Value) (camel snake : String) (x : Option Value) : Prop :=
  v.get? camel = x ∧ v.get? snake = none ∨ v.get? camel = none ∧ v.get? snake = x

/-- A field with the default value may be left out, or be null. -/
inductive Form {α : Type} (IsValue : α → Value → Prop) (default : α) : α → Option Value → Prop
  | absent : Form IsValue default default none
  | null : Form IsValue default default (some .null)
  | written {a : α} {v : Value} (h : IsValue a v) : Form IsValue default a (some v)

def IsString (s : String) (v : Value) : Prop := v = .string s

def IsStrings (ss : List String) (v : Value) : Prop := v = .array (ss.map .string)

/-- An integer is a number, or a text. -/
inductive IsInt32 (i : Int) : Value → Prop
  | number (h : InI32 i) : IsInt32 i (.number (.int i))
  | text (h : InI32 i) : IsInt32 i (.string (toString i))

/-- A value of an enumeration is its name, or its ordinal. -/
inductive IsEnum {α : Type} (name : α → String) (ordinal : α → Int) (a : α) : Value → Prop
  | name : IsEnum name ordinal a (.string (name a))
  | ordinal : IsEnum name ordinal a (.number (.int (ordinal a)))

/-! ## Reading every form -/

section Read

variable {α : Type} {IsValue : α → Value → Prop} {default a : α} {x : Option Value} {v : Value}
  {camel snake : String}

/-- A reader that looks for both names finds the field. -/
theorem Writes.find (h : Writes v camel snake x) : (v.get? camel).or (v.get? snake) = x := by
  rcases h with ⟨hcamel, hsnake⟩ | ⟨hcamel, hsnake⟩
  · rw [hcamel, hsnake, Option.or_none]
  · rw [hcamel, hsnake, Option.none_or]

/-- A reader is right when it is right on values and on the two forms of the default. -/
theorem Form.read {f : Option Value → α} (h : Form IsValue default a x)
    (habsent : f none = default) (hnull : f (some .null) = default)
    (hvalue : ∀ a v, IsValue a v → f (some v) = a) : f x = a := by
  cases h with
  | absent => exact habsent
  | null => exact hnull
  | written h => exact hvalue _ _ h

theorem Form.read_string {s : String} (h : Form IsString "" s x) :
    (x >>= Value.asStr?).getD "" = s :=
  h.read (f := fun x => (x >>= Value.asStr?).getD "") rfl rfl fun s v hv => by
    rw [hv]
    rfl

theorem filterMap_asStr (ss : List String) : (ss.map Value.string).filterMap Value.asStr? = ss := by
  rw [List.filterMap_map]
  exact List.filterMap_some

theorem Form.read_strings {ss : List String} (h : Form IsStrings [] ss x) :
    ((x >>= Value.asArray?).map (·.filterMap Value.asStr?)).getD [] = ss :=
  h.read (f := fun x => ((x >>= Value.asArray?).map (·.filterMap Value.asStr?)).getD []) rfl rfl
    fun ss v hv => by
      rw [hv]
      exact filterMap_asStr ss

/-- An optional text, which may not be there. -/
theorem Form.read_optional {r : Option String}
    (h : Form (fun r v => ∃ s, r = some s ∧ IsString s v) none r x) : x >>= Value.asStr? = r :=
  h.read (f := fun x => x >>= Value.asStr?) rfl rfl fun r v hv => by
    obtain ⟨s, rfl, rfl⟩ := hv
    rfl

/-- A number or a text; what is neither, or is out of range, is 0. -/
def readI32 : Option Value → Int
  | some (.number n) => (n.asI64?.filter fun i => InI32 i).getD 0
  | some (.string s) => (Decimal.parseI32 s).getD 0
  | _ => 0

theorem InI32.inI64 {i : Int} (h : InI32 i) : InI64 i := by
  simp only [InI32, InI64, InRange] at h ⊢
  omega

theorem readI32_of_isInt32 {i : Int} (h : IsInt32 i v) : readI32 (some v) = i := by
  cases h with
  | number h =>
    rw [readI32, Number.asI64?, if_pos h.inI64, Option.filter_some_pos (by simpa using h)]
    rfl
  | text h =>
    rw [readI32, Decimal.parseI32_toString h]
    rfl

theorem Form.read_int32 {i : Int} (h : Form IsInt32 0 i x) : readI32 x = i :=
  h.read (f := readI32) rfl rfl fun _ _ => readI32_of_isInt32

end Read

end ProtoJson
