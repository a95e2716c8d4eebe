-- SUMMARY: The host of an http URL as the URL standard reads it, and when it is a name that ends in a given suffix.
import KrabkaOperator.Base.Separated
import Mathlib.Data.List.Basic
import Mathlib.Data.List.DropRight
import Mathlib.Data.List.Infix
import Mathlib.Tactic.Common

/-!
# The host of a URL

The parser of the URL standard, for the schemes `http` and `https`: blanks at both ends and
tabs and newlines anywhere are dropped, a backslash is a slash, and a host is percent-decoded
before it is read as a name or an address. The tables of Unicode and the parsers of addresses
are left open.
-/

namespace Url

/-! ## Parts of a text -/

/-- What is behind the last occurrence of a character, the whole text without one. -/
def afterLast (c : Char) (s : List Char) : List Char := (s.reverse.takeWhile (· ≠ c)).reverse

def isTabOrNewline (c : Char) : Bool := c = '\t' || c = '\n' || c = '\r'

def isC0OrSpace (c : Char) : Bool := c.toNat ≤ 0x20

def trim (s : List Char) : List Char := (s.dropWhile isC0OrSpace).rdropWhile isC0OrSpace

/-- A text without tabs and newlines. -/
def stripped (s : List Char) : List Char := s.filter fun c => !isTabOrNewline c

def isSlash (c : Char) : Bool := c = '/' || c = '\\'

/-- The characters that end an authority. -/
def isTerminator (c : Char) : Bool := isSlash c || c = '?' || c = '#'

/-! ## Percent-decoding -/

def utf8 (s : List Char) : List UInt8 := s.flatMap String.utf8EncodeChar

def hexDigit (b : UInt8) : Option UInt8 :=
  if 0x30 ≤ b ∧ b ≤ 0x39 then some (b - 0x30)
  else if 0x41 ≤ b ∧ b ≤ 0x46 then some (b - 0x41 + 10)
  else if 0x61 ≤ b ∧ b ≤ 0x66 then some (b - 0x61 + 10)
  else none

def percentDecode : List UInt8 → List UInt8
  | b :: x :: y :: rest =>
    if b = 0x25 then
      match hexDigit x, hexDigit y with
      | some m, some n => (16 * m + n) :: percentDecode rest
      | _, _ => b :: percentDecode (x :: y :: rest)
    else b :: percentDecode (x :: y :: rest)
  | bytes => bytes

/-! ## Hosts -/

inductive Host where
  | domain (name : List Char)
  | ipv4 (address : Nat)
  | ipv6 (address : Nat)
  deriving DecidableEq, Repr

/-- Decoding with replacement characters, the mapping of names to ASCII, and the parsers of
addresses. -/
structure Rules where
  decodeUtf8 : List UInt8 → List Char
  domainToAscii : List Char → Option (List Char)
  parseIpv4 : List Char → Option Nat
  parseIpv6 : List Char → Option Nat

/-- The characters that no name has. -/
def isForbidden (c : Char) : Bool :=
  c.toNat ≤ 0x20 || c.toNat = 0x7F || c ∈ "#/:<>?@[\\]^|%".toList

def isHexDigit (c : Char) : Bool := c.isDigit || c ∈ "abcdefABCDEF".toList

/-- Whether a label is read as a number, in decimals or behind `0x`. -/
def isNumber : List Char → Bool
  | [] => false
  | '0' :: 'x' :: digits | '0' :: 'X' :: digits => digits.all isHexDigit
  | label => label.all Char.isDigit

/-- The last label of a name. One dot at the end does not count. -/
def lastLabel (name : List Char) : List Char :=
  afterLast '.' (if name.getLast? = some '.' then name.dropLast else name)

variable (rules : Rules)

def parseHost (text : List Char) : Option Host :=
  if text.head? = some '[' then
    if text.getLast? = some ']' then (rules.parseIpv6 (text.drop 1).dropLast).map .ipv6 else none
  else do
    let name ← rules.domainToAscii (rules.decodeUtf8 (percentDecode (utf8 text)))
    if name = [] ∨ name.any isForbidden then none
    else if isNumber (lastLabel name) then (rules.parseIpv4 name).map .ipv4
    else some (.domain name)

/-- The host and the port of an authority. A colon between brackets belongs to the host. -/
def splitPort : Bool → List Char → List Char × Option (List Char)
  | _, [] => ([], none)
  | inside, c :: rest =>
    if c = ':' ∧ inside = false then ([], some rest)
    else
      let (host, port) := splitPort (if c = '[' then true else if c = ']' then false else inside) rest
      (c :: host, port)

def isPort (port : List Char) : Bool :=
  port.all Char.isDigit && port.foldl (fun n c => 10 * n + (c.toNat - 0x30)) 0 < 65536

def parseAuthority (authority : List Char) : Option Host :=
  let (text, port) := splitPort false (afterLast '@' authority)
  if text = [] ∨ ¬ port.all isPort then none else parseHost rules text

/-- The authority behind the scheme and its slashes. -/
def authority (rest : List Char) : List Char :=
  (rest.dropWhile isSlash).takeWhile fun c => !isTerminator c

/-- The host of an http URL. -/
def httpHost (input : List Char) : Option Host :=
  let s := stripped (trim input)
  let scheme := (s.takeWhile (· ≠ ':')).map Char.toLower
  if scheme = "http".toList ∨ scheme = "https".toList then
    parseAuthority rules (authority ((s.dropWhile (· ≠ ':')).drop 1))
  else none

/-- Labels of small letters behind a dot. -/
structure DotName (s : List Char) : Prop where
  dot : s.head? = some '.'
  chars : ∀ c ∈ s, c = '.' ∨ c.isLower = true
  last : s.getLast? ≠ some '.'

/-- The characters of a name, checked one by one. -/
theorem chars_of_all {s : List Char} (h : s.all (fun c => c = '.' || c.isLower) = true) :
    ∀ c ∈ s, c = '.' ∨ c.isLower = true := by
  simpa only [List.all_eq_true, Bool.or_eq_true, decide_eq_true_eq] using h

/-- What the standards say about decoding and about names. A byte of ASCII stands for itself. A
name keeps its colons and, in small letters, the labels of letters at its end, and a name of
small letters and dots is kept as it is. -/
structure Rules.Documented : Prop where
  decode_nil : rules.decodeUtf8 [] = []
  decode_ascii (before after : List UInt8) (b : UInt8) (h : b.toNat < 0x80) :
    rules.decodeUtf8 (before ++ b :: after) =
      rules.decodeUtf8 before ++ Char.ofNat b.toNat :: rules.decodeUtf8 after
  keeps_colon (text name : List Char) (h : rules.domainToAscii text = some name)
    (hcolon : ':' ∈ text) : ':' ∈ name
  keeps_labels (text labels name : List Char) (h : rules.domainToAscii (text ++ labels) = some name)
    (hlabels : DotName (labels.map Char.toLower)) : labels.map Char.toLower <:+ name
  keeps_plain (name : List Char) (h : ∀ c ∈ name, c = '.' ∨ c.isLower = true) :
    rules.domainToAscii name = some name

/-! ## Lemmas about lists -/

theorem takeWhile_filter {α : Type} {p q : α → Bool} (h : ∀ c, p c = false → q c = true)
    (s : List α) : (s.filter q).takeWhile p = (s.takeWhile p).filter q := by
  induction s with
  | nil => rfl
  | cons c s ih =>
    cases hp : p c with
    | true =>
      cases hq : q c with
      | true => simp only [List.filter_cons, List.takeWhile_cons, hp, hq, if_true, ih]
      | false => simpa [hp, hq] using ih
    | false => simp only [List.filter_cons, List.takeWhile_cons, hp, h c hp, if_true,
        Bool.false_eq_true, if_false, List.filter_nil]

theorem takeWhile_append_of_exists {α : Type} {p : α → Bool} {s : List α}
    (h : ∃ c ∈ s, p c = false) (t : List α) : (s ++ t).takeWhile p = s.takeWhile p := by
  induction s with
  | nil =>
    obtain ⟨c, hc, -⟩ := h
    cases hc
  | cons c s ih =>
    cases hp : p c with
    | false => simp only [List.cons_append, List.takeWhile_cons, hp, Bool.false_eq_true, if_false]
    | true =>
      obtain ⟨d, hd, hpd⟩ := h
      have hd' : d ∈ s := (List.mem_cons.mp hd).resolve_left fun heq => by simp [heq, hp] at hpd
      simp only [List.cons_append, List.takeWhile_cons, hp, if_true, ih ⟨d, hd', hpd⟩]

theorem takeWhile_eq_self {α : Type} {p : α → Bool} {s : List α} (h : ∀ c ∈ s, p c = true) :
    s.takeWhile p = s :=
  List.takeWhile_eq_self_iff.mpr h

/-! ## Behind the last occurrence -/

theorem afterLast_of_notMem {c : Char} {s : List Char} (h : c ∉ s) : afterLast c s = s := by
  rw [afterLast, takeWhile_eq_self, List.reverse_reverse]
  intro d hd
  exact decide_eq_true fun heq => h (heq ▸ List.mem_reverse.mp hd)

theorem notMem_afterLast {c : Char} {s : List Char} : c ∉ afterLast c s := by
  intro h
  have h' := List.mem_takeWhile_imp (List.mem_reverse.mp h)
  simp at h'

theorem afterLast_append {c : Char} {s t : List Char} (h : c ∈ t) :
    afterLast c (s ++ t) = afterLast c t := by
  rw [afterLast, List.reverse_append,
    takeWhile_append_of_exists ⟨c, List.mem_reverse.mpr h, by simp⟩, afterLast]

theorem afterLast_append_cons {c : Char} {s t : List Char} (h : c ∉ t) :
    afterLast c (s ++ c :: t) = t := by
  rw [afterLast_append List.mem_cons_self, ← List.singleton_append, afterLast,
    List.reverse_append, List.takeWhile_append_of_pos]
  · simp
  · intro d hd
    exact decide_eq_true fun heq => h (heq ▸ List.mem_reverse.mp hd)

theorem afterLast_filter {c : Char} {q : Char → Bool} (h : q c = true) (s : List Char) :
    afterLast c (s.filter q) = (afterLast c s).filter q := by
  rw [afterLast, afterLast, ← List.filter_reverse, takeWhile_filter, List.filter_reverse]
  intro d hd
  have heq : d = c := by simpa using hd
  rw [heq, h]

theorem afterLast_suffix {c : Char} {s : List Char} : afterLast c s <:+ s :=
  List.reverse_prefix.mp (by
    rw [afterLast, List.reverse_reverse]
    exact List.takeWhile_prefix _)

/-! ## Bytes of ASCII -/

def asciiByte (c : Char) : UInt8 := c.val.toUInt8

theorem toNat_asciiByte {c : Char} (h : c.toNat < 0x80) : (asciiByte c).toNat = c.toNat := by
  have hval : c.val.toNat < 0x80 := h
  simp only [asciiByte, UInt32.toNat_toUInt8, Char.toNat]
  omega

theorem ofNat_asciiByte {c : Char} (h : c.toNat < 0x80) : Char.ofNat (asciiByte c).toNat = c := by
  rw [toNat_asciiByte h, Char.ofNat_toNat]

theorem utf8_append (s t : List Char) : utf8 (s ++ t) = utf8 s ++ utf8 t := List.flatMap_append

theorem utf8EncodeChar_ascii {c : Char} (h : c.toNat < 0x80) :
    String.utf8EncodeChar c = [asciiByte c] := by
  refine String.utf8EncodeChar_eq_singleton (Char.utf8Size_eq_one_iff.mpr ?_)
  have hval : c.val.toNat < 0x80 := h
  exact UInt32.le_iff_toNat_le.mpr (Nat.le_of_lt_succ hval)

theorem utf8_ascii {s : List Char} (h : ∀ c ∈ s, c.toNat < 0x80) : utf8 s = s.map asciiByte := by
  induction s with
  | nil => rfl
  | cons c s ih =>
    rw [List.forall_mem_cons] at h
    rw [utf8, List.flatMap_cons, utf8EncodeChar_ascii h.1, List.singleton_append, List.map_cons]
    exact congrArg _ (ih h.2)

theorem percentDecode_cons_of_ne {b : UInt8} (h : b ≠ 0x25) (q : List UInt8) :
    percentDecode (b :: q) = b :: percentDecode q := by
  cases q with
  | nil => rfl
  | cons x q =>
    cases q with
    | nil => rfl
    | cons y q => rw [percentDecode, if_neg h]

/-- Without two digits behind it a byte is not decoded. -/
theorem percentDecode_cons_of_hexDigit {b x : UInt8} {q : List UInt8}
    (h : hexDigit x = none ∨ q.head?.bind hexDigit = none) :
    percentDecode (b :: x :: q) = b :: percentDecode (x :: q) := by
  cases q with
  | nil => rfl
  | cons y q =>
    rw [percentDecode]
    split
    · split
      · rename_i m n hx hy
        rcases h with h | h
        · rw [hx] at h
          cases h
        · rw [List.head?_cons, Option.bind_some, hy] at h
          cases h
      · rfl
    · rfl

/-- A byte that is no digit and no percent sign separates what is decoded. -/
theorem percentDecode_append_cons {b : UInt8} (hne : b ≠ 0x25) (hhex : hexDigit b = none)
    (p q : List UInt8) :
    percentDecode (p ++ b :: q) = percentDecode p ++ b :: percentDecode q := by
  fun_induction percentDecode p with
  | case1 x y rest m n hy hx ih =>
    rw [List.cons_append, List.cons_append, List.cons_append, percentDecode, if_pos rfl]
    simp only [hx, hy, ih, List.cons_append]
  | case2 x y rest hnone ih =>
    have hxy : hexDigit x = none ∨ hexDigit y = none := by
      cases hx : hexDigit x with
      | none => exact Or.inl rfl
      | some m => exact Or.inr (Option.eq_none_iff_forall_not_mem.mpr fun n hy => hnone m n hx hy)
    rw [List.cons_append, List.cons_append, percentDecode_cons_of_hexDigit hxy]
    exact congrArg _ ih
  | case3 a x y rest ha ih =>
    rw [List.cons_append, percentDecode_cons_of_ne ha, ih, List.cons_append]
  | case4 p hp =>
    -- Fewer than three bytes: none of them is decoded, as the byte behind them is no digit.
    cases p with
    | nil => exact percentDecode_cons_of_ne hne q
    | cons a p =>
      cases p with
      | nil =>
        rw [List.singleton_append, percentDecode_cons_of_hexDigit (Or.inl hhex),
          percentDecode_cons_of_ne hne, List.singleton_append]
      | cons c p =>
        cases p with
        | nil =>
          change percentDecode (a :: c :: b :: q) = a :: c :: b :: percentDecode q
          have hhead : (b :: q).head?.bind hexDigit = none := hhex
          rw [percentDecode_cons_of_hexDigit (Or.inr hhead),
            percentDecode_cons_of_hexDigit (Or.inl hhex), percentDecode_cons_of_ne hne]
        | cons d p => exact (hp a c d p rfl).elim

theorem percentDecode_eq_self {bytes : List UInt8} (h : 0x25 ∉ bytes) :
    percentDecode bytes = bytes := by
  induction bytes with
  | nil => rfl
  | cons b bytes ih =>
    rw [List.mem_cons, not_or] at h
    rw [percentDecode_cons_of_ne fun heq => h.1 heq.symm, ih h.2]

theorem percentDecode_ascii {s : List Char} (h : ∀ c ∈ s, c.toNat < 0x80) (hpercent : '%' ∉ s) :
    percentDecode (s.map asciiByte) = s.map asciiByte := by
  refine percentDecode_eq_self fun hmem => ?_
  obtain ⟨c, hc, hbyte⟩ := List.mem_map.mp hmem
  have hchar := ofNat_asciiByte (h c hc)
  rw [hbyte] at hchar
  obtain rfl : '%' = c := hchar
  exact hpercent hc

/-! ## Names -/

theorem isLower_iff_toNat {c : Char} : c.isLower = true ↔ 97 ≤ c.toNat ∧ c.toNat ≤ 122 := by
  change (decide (c.val ≥ 'a'.val) && decide (c.val ≤ 'z'.val)) = true ↔ _
  simp only [Bool.and_eq_true, decide_eq_true_eq, ge_iff_le, UInt32.le_iff_toNat_le]
  exact Iff.rfl

/-- Only capitals are changed. -/
theorem toNat_toLower (c : Char) : c.toLower.toNat =
    if 65 ≤ c.toNat ∧ c.toNat ≤ 90 then c.toNat + 32 else c.toNat := by
  have hcapital : (c.val ≥ 'A'.val ∧ c.val ≤ 'Z'.val) ↔ 65 ≤ c.toNat ∧ c.toNat ≤ 90 := by
    simp only [ge_iff_le, UInt32.le_iff_toNat_le]
    exact Iff.rfl
  unfold Char.toLower
  split
  · rename_i hupper
    have hrange := hcapital.mp hupper
    have hadd : (c.val + 32).toNat = (c.toNat + 32) % 2 ^ 32 := UInt32.toNat_add _ _
    rw [if_pos hrange]
    exact hadd.trans (Nat.mod_eq_of_lt (by omega))
  · rename_i hupper
    rw [if_neg fun hrange => hupper (hcapital.mpr hrange)]

theorem toNat_lt_of_toLower {c : Char} (h : c.toLower.toNat < 0x80) : c.toNat < 0x80 := by
  rw [toNat_toLower] at h
  split at h <;> omega

theorem toNat_lt_of_isLower {c : Char} (h : c = '.' ∨ c.isLower = true) : c.toNat < 0x80 := by
  rcases h with rfl | h
  · decide
  · have := isLower_iff_toNat.mp h
    omega

theorem eq_dot_of_toLower {c : Char} (h : c.toLower = '.') : c = '.' := by
  have hval : c.toLower.toNat = 46 := congrArg Char.toNat h
  rw [toNat_toLower] at hval
  refine Char.toNat_inj.mp (?_ : c.toNat = 46)
  split at hval <;> omega

theorem isForbidden_of_isLower {c : Char} (h : c = '.' ∨ c.isLower = true) :
    isForbidden c = false := by
  rcases h with rfl | h
  · decide
  · have hrange := isLower_iff_toNat.mp h
    have hlist : "#/:<>?@[\\]^|%".toList.all (fun d => d.toNat < 97 || d.toNat = 124) = true := by
      decide
    simp only [isForbidden, Bool.or_eq_false_iff, decide_eq_false_iff_not]
    refine ⟨⟨by omega, by omega⟩, fun hmem => ?_⟩
    have hd := List.all_eq_true.mp hlist c hmem
    simp only [Bool.or_eq_true, decide_eq_true_eq] at hd
    omega

theorem isDigit_of_isLower {c : Char} (h : c.isLower = true) : c.isDigit = false := by
  by_contra hdigit
  have hrange : 48 ≤ c.toNat ∧ c.toNat ≤ 57 :=
    Char.isDigit_iff_toNat.mp (by simpa using hdigit)
  have := isLower_iff_toNat.mp h
  omega

theorem isTabOrNewline_of_isLower {c : Char} (h : c = '.' ∨ c.isLower = true) :
    isTabOrNewline c = false := by
  by_contra hblank
  simp only [isTabOrNewline, Bool.not_eq_false, Bool.or_eq_true, decide_eq_true_eq] at hblank
  rcases hblank with (rfl | rfl) | rfl <;> exact absurd h (by decide)

theorem isNumber_of_isLower {label : List Char} (h : ∀ c ∈ label, c.isLower = true) :
    isNumber label = false := by
  unfold isNumber
  split
  · rfl
  · exact absurd (h '0' List.mem_cons_self) (by decide)
  · exact absurd (h '0' List.mem_cons_self) (by decide)
  · rename_i hne _ _
    obtain ⟨c, hc⟩ := List.exists_mem_of_ne_nil label hne
    exact List.all_eq_false.mpr ⟨c, hc, by simp [isDigit_of_isLower (h c hc)]⟩

theorem ne_dot_of_mem_lastLabel {name : List Char} {c : Char} (h : c ∈ lastLabel name) :
    c ∈ name ∧ c ≠ '.' := by
  refine ⟨?_, fun heq => notMem_afterLast (heq ▸ h)⟩
  have hmem := afterLast_suffix.subset h
  split at hmem
  · exact List.mem_of_mem_dropLast hmem
  · exact hmem

theorem lastLabel_append {text labels : List Char} (h : DotName labels) :
    lastLabel (text ++ labels) = lastLabel labels := by
  have hne : labels ≠ [] := by
    rintro rfl
    cases h.dot
  have hlast : (text ++ labels).getLast? ≠ some '.' := by
    rw [List.getLast?_append_of_ne_nil _ hne]
    exact h.last
  rw [lastLabel, lastLabel, if_neg hlast, if_neg h.last,
    afterLast_append (List.mem_of_mem_head? h.dot)]

/-- A name with labels of small letters at its end is no number. -/
theorem isNumber_append {text labels : List Char} (h : DotName labels) :
    isNumber (lastLabel (text ++ labels)) = false := by
  rw [lastLabel_append h]
  refine isNumber_of_isLower fun c hc => ?_
  have hmem := ne_dot_of_mem_lastLabel hc
  exact (h.chars c hmem.1).resolve_left hmem.2

section Hosts

variable {rules : Rules} (hdoc : rules.Documented)

include hdoc

theorem decode_ascii {s : List Char} (h : ∀ c ∈ s, c.toNat < 0x80) :
    rules.decodeUtf8 (s.map asciiByte) = s := by
  induction s with
  | nil => exact hdoc.decode_nil
  | cons c s ih =>
    rw [List.forall_mem_cons] at h
    have hcons := hdoc.decode_ascii [] (s.map asciiByte) (asciiByte c)
      ((toNat_asciiByte h.1).symm ▸ h.1)
    rw [List.map_cons, ← List.nil_append (asciiByte c :: _), hcons, hdoc.decode_nil, ih h.2,
      ofNat_asciiByte h.1, List.nil_append]

/-- The text of a host after decoding, with labels at its end. -/
theorem decoded_append {text labels : List Char} (h : DotName (labels.map Char.toLower)) :
    rules.decodeUtf8 (percentDecode (utf8 (text ++ labels))) =
      rules.decodeUtf8 (percentDecode (utf8 text)) ++ labels := by
  have hascii : ∀ c ∈ labels, c.toNat < 0x80 := fun c hc =>
    toNat_lt_of_toLower (toNat_lt_of_isLower (h.chars _ (List.mem_map_of_mem hc)))
  obtain ⟨c, rest, rfl⟩ : ∃ c rest, labels = c :: rest := by
    cases labels with
    | nil => cases h.dot
    | cons c rest => exact ⟨c, rest, rfl⟩
  obtain rfl : c = '.' := eq_dot_of_toLower (Option.some_inj.mp h.dot)
  have hpercent : '%' ∉ rest := fun hmem =>
    absurd (h.chars _ (List.mem_map_of_mem (List.mem_cons_of_mem _ hmem))) (by decide)
  rw [utf8_append, utf8_ascii hascii, List.map_cons,
    percentDecode_append_cons (by decide) (by decide), hdoc.decode_ascii _ _ _ (by decide),
    percentDecode_ascii (fun c hc => hascii c (List.mem_cons_of_mem _ hc)) hpercent,
    decode_ascii hdoc fun c hc => hascii c (List.mem_cons_of_mem _ hc)]
  rfl

/-- A colon in the text of a host is one in the decoded text. -/
theorem colon_mem_decoded {text : List Char} (h : ':' ∈ text) :
    ':' ∈ rules.decodeUtf8 (percentDecode (utf8 text)) := by
  obtain ⟨p, q, rfl⟩ := List.append_of_mem h
  have hcolon : utf8 (':' :: q) = 0x3A :: utf8 q := rfl
  rw [utf8_append, hcolon, percentDecode_append_cons (by decide) (by decide),
    hdoc.decode_ascii _ _ _ (by decide)]
  exact List.mem_append_right _ List.mem_cons_self

/-- A host with a colon is no name. -/
theorem parseHost_colon {text : List Char} (hcolon : ':' ∈ text)
    (hbracket : text.getLast? ≠ some ']') : parseHost rules text = none := by
  unfold parseHost
  by_cases hhead : text.head? = some '['
  · rw [if_pos hhead, if_neg hbracket]
  · rw [if_neg hhead]
    cases hname : rules.domainToAscii (rules.decodeUtf8 (percentDecode (utf8 text))) with
    | none => rfl
    | some name =>
      have hmem := hdoc.keeps_colon _ _ hname (colon_mem_decoded hdoc hcolon)
      exact if_pos (Or.inr (List.any_eq_true.mpr ⟨':', hmem, by decide⟩))

/-- A host with labels of letters at its end is a name that ends in them. -/
theorem parseHost_labels {text labels : List Char} {host : Host}
    (hlabels : DotName (labels.map Char.toLower))
    (hbracket : (text ++ labels).getLast? ≠ some ']')
    (h : parseHost rules (text ++ labels) = some host) :
    ∃ name, host = .domain name ∧ labels.map Char.toLower <:+ name := by
  unfold parseHost at h
  by_cases hhead : (text ++ labels).head? = some '['
  · rw [if_pos hhead, if_neg hbracket] at h
    cases h
  · rw [if_neg hhead] at h
    obtain ⟨name, hname, h⟩ := Option.bind_eq_some_iff.mp h
    rw [decoded_append hdoc hlabels] at hname
    have hsuffix := hdoc.keeps_labels _ _ _ hname hlabels
    obtain ⟨p, hp⟩ := hsuffix
    rw [← hp, isNumber_append hlabels] at h
    simp only [Bool.false_eq_true, if_false] at h
    split at h
    · cases h
    · cases h
      exact ⟨_, rfl, List.suffix_append _ _⟩

/-- A name of small letters and dots is read as it is. -/
theorem parseHost_plain {name : List Char} (hne : name ≠ [])
    (h : ∀ c ∈ name, c = '.' ∨ c.isLower = true) : parseHost rules name = some (.domain name) := by
  have hascii : ∀ c ∈ name, c.toNat < 0x80 := fun c hc => toNat_lt_of_isLower (h c hc)
  have hpercent : '%' ∉ name := fun hmem => absurd (h _ hmem) (by decide)
  have hhead : name.head? ≠ some '[' := fun hhead =>
    absurd (h _ (List.mem_of_mem_head? hhead)) (by decide)
  have hforbidden : ¬ (name = [] ∨ name.any isForbidden = true) := by
    rintro (hnil | hany)
    · exact hne hnil
    · obtain ⟨c, hc, hbad⟩ := List.any_eq_true.mp hany
      exact absurd hbad (by simp [isForbidden_of_isLower (h c hc)])
  have hnumber : isNumber (lastLabel name) = false := isNumber_of_isLower fun c hc =>
    have hmem := ne_dot_of_mem_lastLabel hc
    (h c hmem.1).resolve_left hmem.2
  rw [parseHost, if_neg hhead, utf8_ascii hascii, percentDecode_ascii hascii hpercent,
    decode_ascii hdoc hascii, hdoc.keeps_plain name h]
  simp only [Option.bind_eq_bind, Option.bind_some, if_neg hforbidden, hnumber, Bool.false_eq_true,
    if_false]

end Hosts

/-! ## Authorities -/

theorem splitPort_append {inside : Bool} {s text : List Char} {port : Option (List Char)}
    (h : splitPort inside s = (text, port)) :
    s = text ++ (port.map (':' :: ·)).getD [] := by
  induction s generalizing inside text with
  | nil =>
    cases h
    rfl
  | cons c s ih =>
    unfold splitPort at h
    split at h
    · rename_i hc
      cases h
      rw [hc.1]
      rfl
    · cases h
      exact congrArg _ (ih rfl)

theorem isDigit_of_isPort {port : List Char} (h : isPort port = true) :
    ∀ c ∈ port, c.isDigit = true :=
  List.all_eq_true.mp (Bool.and_eq_true_iff.mp h).1

/-- An optional port with its colon. -/
inductive PortText : List Char → Prop where
  | none : PortText []
  | some (digits : List Char) (h : ∀ c ∈ digits, c.isDigit = true) : PortText (':' :: digits)

theorem portText_of_all {port : Option (List Char)} (h : port.all isPort = true) :
    PortText ((port.map (':' :: ·)).getD []) := by
  cases port with
  | none => exact .none
  | some digits => exact .some digits (isDigit_of_isPort h)

theorem colon_notMem_of_isDigit {digits : List Char} (h : ∀ c ∈ digits, c.isDigit = true) :
    ':' ∉ digits := fun hmem => absurd (h ':' hmem) (by decide)

/-- A text that ends with a letter is cut from its port in one way only, or takes in the colon. -/
theorem eq_of_append_portText {text text' port port' : List Char} {c : Char}
    (hc : text.getLast? = some c) (hdigit : c.isDigit = false) (hcolon : c ≠ ':')
    (hport : PortText port) (hport' : PortText port') (h : text ++ port = text' ++ port') :
    text' = text ∨ ∃ digits, port = ':' :: digits ∧ port' = [] := by
  cases hport' with
  | none =>
    cases hport with
    | none => exact Or.inl (by simpa using h.symm)
    | some digits hd => exact Or.inr ⟨digits, rfl, rfl⟩
  | some digits' hd' =>
    cases hport with
    | none =>
      have hmem : c ∈ ':' :: digits' := by
        have hlast : (text' ++ ':' :: digits').getLast? = some c := by
          rw [← h, List.append_nil, hc]
        rw [List.getLast?_append_of_ne_nil _ (List.cons_ne_nil _ _)] at hlast
        exact List.mem_of_getLast? hlast
      rcases List.mem_cons.mp hmem with rfl | hmem
      · exact absurd rfl hcolon
      · rw [hd' c hmem] at hdigit
        cases hdigit
    | some digits hd =>
      rcases Separated.append_cons_eq_append_cons.mp h with ⟨rfl, -⟩ | ⟨mid, -, rfl⟩ | ⟨mid, -, rfl⟩
      · exact Or.inl rfl
      · exact absurd (List.mem_append_right _ List.mem_cons_self) (colon_notMem_of_isDigit hd')
      · exact absurd (List.mem_append_right _ List.mem_cons_self) (colon_notMem_of_isDigit hd)

theorem lt_toNat_of_isLower_toLower {c : Char} (h : c.toLower.isLower = true) : 64 < c.toNat := by
  have hrange := isLower_iff_toNat.mp h
  rw [toNat_toLower] at hrange
  split at hrange <;> omega

theorem isDigit_of_isLower_toLower {c : Char} (h : c.toLower.isLower = true) :
    c.isDigit = false := by
  by_contra hdigit
  have hrange : 48 ≤ c.toNat ∧ c.toNat ≤ 57 :=
    Char.isDigit_iff_toNat.mp (by simpa using hdigit)
  have hlt := lt_toNat_of_isLower_toLower h
  omega

/-- Labels of letters end with a letter. -/
theorem exists_getLast?_labels {labels : List Char} (h : DotName (labels.map Char.toLower)) :
    ∃ c, labels.getLast? = some c ∧ c.toLower.isLower = true := by
  cases hlast : labels.getLast? with
  | none =>
    rw [List.getLast?_eq_none_iff.mp hlast] at h
    cases h.dot
  | some c =>
    have hne := h.last
    rw [List.getLast?_map, hlast] at hne
    refine ⟨c, rfl, (h.chars _ (List.mem_map_of_mem (List.mem_of_getLast? hlast))).resolve_left ?_⟩
    exact fun heq => hne (congrArg some heq)

section Authorities

variable {rules : Rules} (hdoc : rules.Documented)

include hdoc

/-- An authority whose host ends with labels of letters is read as a name that ends in them. -/
theorem parseAuthority_labels {authority text labels port : List Char} {host : Host}
    (hlabels : DotName (labels.map Char.toLower)) (hport : PortText port)
    (hhost : afterLast '@' authority = text ++ labels ++ port)
    (h : parseAuthority rules authority = some host) :
    ∃ name, host = .domain name ∧ labels.map Char.toLower <:+ name := by
  unfold parseAuthority at h
  rcases hsplit : splitPort false (afterLast '@' authority) with ⟨text', port'⟩
  rw [hsplit] at h
  dsimp only at h
  split at h
  · cases h
  · rename_i hok
    have hport' : PortText ((port'.map (':' :: ·)).getD []) :=
      portText_of_all (by_contra fun hbad => hok (Or.inr hbad))
    have heq := hhost.symm.trans (splitPort_append hsplit)
    obtain ⟨c, hc, hlower⟩ := exists_getLast?_labels hlabels
    have hlast : (text ++ labels).getLast? = some c := by
      rw [List.getLast?_append, hc, Option.some_or]
    have hcolon : c ≠ ':' := fun heq => by
      rw [heq] at hlower
      exact absurd hlower (by decide)
    rcases eq_of_append_portText hlast (isDigit_of_isLower_toLower hlower) hcolon hport hport' heq
      with rfl | ⟨digits, rfl, hnone⟩
    · refine parseHost_labels hdoc hlabels (fun hbracket => ?_) h
      rw [hlast] at hbracket
      obtain rfl := Option.some_inj.mp hbracket
      exact absurd hlower (by decide)
    · -- The colon was between brackets: the text has it, and ends with a digit or with it.
      rw [hnone, List.append_nil] at heq
      have hdigits : ∀ c ∈ digits, c.isDigit = true := by
        cases hport with
        | some _ hd => exact hd
      have hbracket : text'.getLast? ≠ some ']' := by
        intro hlast'
        rw [← heq, List.getLast?_append_of_ne_nil _ (List.cons_ne_nil _ _)] at hlast'
        rcases List.mem_cons.mp (List.mem_of_getLast? hlast') with heq' | hmem
        · cases heq'
        · exact absurd (hdigits _ hmem) (by decide)
      have hmem : ':' ∈ text' := heq ▸ List.mem_append_right _ List.mem_cons_self
      rw [parseHost_colon hdoc hmem hbracket] at h
      cases h

/-- An authority of small letters and dots is its host. -/
theorem parseAuthority_plain {name : List Char} (hne : name ≠ [])
    (h : ∀ c ∈ name, c = '.' ∨ c.isLower = true) :
    parseAuthority rules name = some (.domain name) := by
  have hat : '@' ∉ name := fun hmem => absurd (h _ hmem) (by decide)
  have hcolon : ':' ∉ name := fun hmem => absurd (h _ hmem) (by decide)
  unfold parseAuthority
  rcases hsplit : splitPort false (afterLast '@' name) with ⟨text, port⟩
  have heq := splitPort_append hsplit
  rw [afterLast_of_notMem hat] at heq
  have hnone : port = none := by
    cases port with
    | none => rfl
    | some digits =>
      exact absurd (heq ▸ List.mem_append_right _ List.mem_cons_self) hcolon
  subst hnone
  obtain rfl : name = text := by simpa using heq
  dsimp only
  rw [if_neg (by simpa using hne), parseHost_plain hdoc hne h]

end Authorities

/-! ## Whole URLs -/

theorem stripped_append (s t : List Char) : stripped (s ++ t) = stripped s ++ stripped t :=
  List.filter_append ..

theorem stripped_eq_self {s : List Char} (h : ∀ c ∈ s, isTabOrNewline c = false) :
    stripped s = s :=
  List.filter_eq_self.mpr fun c hc => by rw [h c hc, Bool.not_false]

theorem rdropWhile_append_of_not {α : Type} {p : α → Bool} {x : α} (hx : p x = false)
    (s t : List α) : (s ++ x :: t).rdropWhile p = s ++ x :: t.rdropWhile p := by
  induction t using List.reverseRecOn with
  | nil =>
    rw [List.rdropWhile_concat_neg _ _ _ (by simp [hx]), List.rdropWhile_nil]
  | append_singleton t y ih =>
    have hassoc : s ++ x :: (t ++ [y]) = (s ++ x :: t) ++ [y] := by simp
    cases hy : p y with
    | true => rw [hassoc, List.rdropWhile_concat_pos _ _ _ hy, ih, List.rdropWhile_concat_pos _ _ _ hy]
    | false =>
      rw [hassoc, List.rdropWhile_concat_neg _ _ _ (by simp [hy]),
        List.rdropWhile_concat_neg _ _ _ (by simp [hy]), hassoc]

/-- The letters of a scheme. -/
theorem scheme_chars {scheme : List Char}
    (h : scheme.map Char.toLower = "http".toList ∨ scheme.map Char.toLower = "https".toList)
    {c : Char} (hc : c ∈ scheme) : c.toLower.isLower = true := by
  have hhttp : "http".toList.all Char.isLower = true := by decide
  have hhttps : "https".toList.all Char.isLower = true := by decide
  have hmem := List.mem_map_of_mem (f := Char.toLower) hc
  rcases h with h | h
  · exact List.all_eq_true.mp hhttp _ (h ▸ hmem)
  · exact List.all_eq_true.mp hhttps _ (h ▸ hmem)

/-- The host of an http URL is the one of its authority, without tabs and newlines. -/
theorem httpHost_eq (rules : Rules) {scheme rest path : List Char}
    (h : scheme.map Char.toLower = "http".toList ∨ scheme.map Char.toLower = "https".toList) :
    ∃ path', httpHost rules (scheme ++ "://".toList ++ rest ++ '/' :: path) =
      parseAuthority rules (authority ("//".toList ++ stripped rest ++ '/' :: path')) := by
  have hlt : ∀ c ∈ scheme, 64 < c.toNat := fun c hc =>
    lt_toNat_of_isLower_toLower (scheme_chars h hc)
  have hcolon : ∀ c ∈ scheme, decide (c ≠ ':') = true := fun c hc =>
    decide_eq_true fun heq => absurd (hlt c hc) (by rw [heq]; decide)
  have hclean : stripped scheme = scheme := stripped_eq_self fun c hc => by
    have hc := hlt c hc
    simp only [isTabOrNewline, Bool.or_eq_false_iff, decide_eq_false_iff_not]
    refine ⟨⟨?_, ?_⟩, ?_⟩ <;> rintro rfl <;> exact absurd hc (by decide)
  have htrim : trim (scheme ++ "://".toList ++ rest ++ '/' :: path) =
      scheme ++ "://".toList ++ rest ++ '/' :: path.rdropWhile isC0OrSpace := by
    obtain ⟨c, scheme', rfl⟩ : ∃ c scheme', scheme = c :: scheme' := by
      cases scheme with
      | nil => rcases h with h | h <;> cases h
      | cons c scheme' => exact ⟨c, scheme', rfl⟩
    have hc : isC0OrSpace c = false :=
      decide_eq_false (by have hc := hlt c List.mem_cons_self; omega)
    rw [trim, List.cons_append, List.cons_append, List.cons_append,
      List.dropWhile_cons_of_neg (by rw [hc]; exact Bool.false_ne_true)]
    exact rdropWhile_append_of_not (show isC0OrSpace '/' = false by decide) (c :: _) path
  refine ⟨stripped (path.rdropWhile isC0OrSpace), ?_⟩
  have hpath : stripped (scheme ++ "://".toList ++ rest ++ '/' :: path.rdropWhile isC0OrSpace) =
      scheme ++ ':' :: ("//".toList ++ stripped rest ++ '/' ::
        stripped (path.rdropWhile isC0OrSpace)) := by
    rw [stripped_append, stripped_append, stripped_append, hclean, List.append_assoc,
      List.append_assoc]
    rfl
  simp only [httpHost, htrim, hpath, List.takeWhile_append_of_pos hcolon,
    List.dropWhile_append_of_pos hcolon, List.takeWhile_cons_of_neg, List.dropWhile_cons_of_neg,
    ne_eq, not_true_eq_false, decide_false, Bool.false_eq_true, not_false_eq_true, List.append_nil,
    List.drop_one, List.tail_cons]
  exact if_pos h

/-! ## An authority behind backslashes -/

def isBackslashOrBlank (c : Char) : Bool := c = '\\' || isTabOrNewline c

/-- The part of a text between its first backslashes and the next one. -/
def unslashed (s : List Char) : List Char :=
  (s.dropWhile isBackslashOrBlank).takeWhile (· ≠ '\\')

/-- Nothing, or a text that starts with a slash, a query or a fragment. -/
inductive PathText : List Char → Prop where
  | none : PathText []
  | some (c : Char) (path : List Char) (h : c ∈ ['/', '?', '#']) : PathText (c :: path)

theorem PathText.shorten {path path' : List Char} (h : PathText path) (hinit : path' <+: path) :
    PathText path' := by
  cases path' with
  | nil => exact .none
  | cons c path' =>
    cases h with
    | none => cases List.prefix_nil.mp hinit
    | some d path hd =>
      obtain ⟨rfl, -⟩ := List.cons_prefix_cons.mp hinit
      exact .some _ _ hd

theorem isTabOrNewline_of_terminator {c : Char} (h : isTerminator c = true) :
    isTabOrNewline c = false := by
  simp only [isTerminator, isSlash, Bool.or_eq_true, decide_eq_true_eq] at h
  rcases h with ((rfl | rfl) | rfl) | rfl <;> decide

theorem stripped_cons {c : Char} (h : isTabOrNewline c = false) (s : List Char) :
    stripped (c :: s) = c :: stripped s :=
  List.filter_cons_of_pos (by rw [h, Bool.not_false])

/-- Behind a path comes the end of an authority. -/
theorem exists_terminator {path : List Char} (h : PathText path) (rest : List Char) :
    ∃ c rest', stripped path ++ '/' :: rest = c :: rest' ∧ isTerminator c = true := by
  cases h with
  | none => exact ⟨'/', rest, rfl, by decide⟩
  | some c path hc =>
    have hterm : isTerminator c = true := by
      have hall : ['/', '?', '#'].all isTerminator = true := by decide
      exact List.all_eq_true.mp hall c hc
    exact ⟨c, _, by rw [stripped_cons (isTabOrNewline_of_terminator hterm)]; rfl, hterm⟩

/-- The parser reads the part of an authority between its first backslashes and the next one. -/
theorem authority_eq_unslashed {text path rest : List Char}
    (htext : ∀ c ∈ text, c ∉ ['/', '?', '#']) (hpath : PathText path) (hne : unslashed text ≠ []) :
    authority ("//".toList ++ stripped (text ++ path) ++ '/' :: rest) =
      stripped (unslashed text) := by
  generalize hbody : text.dropWhile isBackslashOrBlank = body
  have hcut : unslashed text = body.takeWhile (· ≠ '\\') := by rw [unslashed, hbody]
  have hlead : ∀ c ∈ stripped (text.takeWhile isBackslashOrBlank), isSlash c = true := by
    intro c hc
    obtain ⟨hc, hblank⟩ := List.mem_filter.mp hc
    have hlead := List.mem_takeWhile_imp hc
    simp only [isBackslashOrBlank, Bool.or_eq_true, decide_eq_true_eq] at hlead
    rcases hlead with rfl | hlead
    · decide
    · rw [hlead] at hblank
      cases hblank
  have hterm : ∀ c ∈ unslashed text, isTerminator c = false := by
    intro c hc
    have hmem : c ∈ text := List.dropWhile_subset _ (List.takeWhile_subset _ hc)
    rw [hcut] at hc
    have hslash : c ≠ '\\' := by simpa using List.mem_takeWhile_imp hc
    have hnot := htext c hmem
    simp only [List.mem_cons, List.not_mem_nil, or_false, not_or] at hnot
    simp [isTerminator, isSlash, hslash, hnot]
  obtain ⟨c, rest', heq, hc⟩ : ∃ c rest',
      stripped (body.dropWhile (· ≠ '\\')) ++ (stripped path ++ '/' :: rest) = c :: rest' ∧
        isTerminator c = true := by
    cases hback : body.dropWhile (· ≠ '\\') with
    | nil => exact exists_terminator hpath rest
    | cons d back =>
      have hd : d = '\\' := by
        have hnot := List.head?_dropWhile_not (· ≠ '\\') body
        rw [hback] at hnot
        simpa using hnot
      exact ⟨d, _, by rw [stripped_cons (by rw [hd]; decide)]; rfl, by rw [hd]; decide⟩
  have hparts : stripped (text ++ path) ++ '/' :: rest =
      stripped (text.takeWhile isBackslashOrBlank) ++
        (stripped (unslashed text) ++ c :: rest') := by
    have hstripped (p : Char → Bool) (s : List Char) :
        stripped s = stripped (s.takeWhile p) ++ stripped (s.dropWhile p) := by
      rw [← stripped_append, List.takeWhile_append_dropWhile]
    rw [stripped_append, hstripped isBackslashOrBlank text, hbody, hstripped (· ≠ '\\') body, ← heq,
      hcut]
    simp only [List.append_assoc]
  obtain ⟨d, cut, hd⟩ := List.exists_cons_of_ne_nil hne
  have hblank : isTabOrNewline d = false := by
    have hnot := List.head?_dropWhile_not isBackslashOrBlank text
    have hhead : body.head? = some d := by
      rw [← List.takeWhile_append_dropWhile (l := body), ← hcut, hd]
      rfl
    rw [hbody, hhead] at hnot
    simp only [isBackslashOrBlank, Bool.or_eq_false_iff] at hnot
    exact hnot.2
  have hslash : isSlash d = false := by
    have hd' := hterm d (hd ▸ List.mem_cons_self)
    simp only [isTerminator, Bool.or_eq_false_iff] at hd'
    exact hd'.1.1
  have hdrop : (stripped (unslashed text) ++ c :: rest').dropWhile isSlash =
      stripped (unslashed text) ++ c :: rest' := by
    rw [hd, stripped_cons hblank, List.cons_append,
      List.dropWhile_cons_of_neg (by rw [hslash]; exact Bool.false_ne_true)]
  have hslashes : "//".toList.all isSlash = true := by decide
  rw [authority, List.append_assoc, hparts,
    List.dropWhile_append_of_pos (List.all_eq_true.mp hslashes),
    List.dropWhile_append_of_pos hlead, hdrop, List.takeWhile_append_of_pos,
    List.takeWhile_cons_of_neg (by rw [hc]; decide), List.append_nil]
  intro c hc
  rw [hterm c (List.mem_filter.mp hc).1, Bool.not_false]

end Url
