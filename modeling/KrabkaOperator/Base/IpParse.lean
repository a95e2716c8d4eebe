-- SUMMARY: The parser of IP addresses: dotted IPv4, and IPv6 with at most one abbreviation and an embedded IPv4 address.
import KrabkaOperator.Base.Decimal
import KrabkaOperator.Base.IpAddr
import KrabkaOperator.Base.Text

/-!
# Parsing IP addresses
-/

namespace IpAddr

/-- An octet has at most three digits and no superfluous zero. -/
def parseOctet (s : List Char) : Option UInt8 :=
  if s.length ≤ 3 ∧ (s.head? = some '0' → s.length = 1) then
    ((Decimal.parseDigits s).filter (· < 256)).map UInt8.ofNat
  else
    none

def parseV4 (s : List Char) : Option (UInt8 × UInt8 × UInt8 × UInt8) :=
  match (s.splitOn '.').mapM parseOctet with
  | some [a, b, c, d] => some (a, b, c, d)
  | _ => none

def hexDigit (c : Char) : Option Nat :=
  if c.isDigit then some (c.toNat - '0'.toNat)
  else if 'a' ≤ c ∧ c ≤ 'f' then some (c.toNat - 'a'.toNat + 10)
  else if 'A' ≤ c ∧ c ≤ 'F' then some (c.toNat - 'A'.toNat + 10)
  else none

def parseSegment (s : List Char) : Option UInt16 :=
  if s ≠ [] ∧ s.length ≤ 4 then
    (s.mapM hexDigit).map fun ds => UInt16.ofNat (ds.foldl (fun n d => n * 16 + d) 0)
  else
    none

/-- The segments between colons. The last two may be an IPv4 address. -/
def parseSegments : List (List Char) → Option (List UInt16)
  | [] => some []
  | [s] =>
    match parseSegment s with
    | some segment => some [segment]
    | none => (parseV4 s).map fun (a, b, c, d) =>
      [UInt16.ofNat (a.toNat * 256 + b.toNat), UInt16.ofNat (c.toNat * 256 + d.toNat)]
  | s :: rest => do
    let segment ← parseSegment s
    let segments ← parseSegments rest
    pure (segment :: segments)

/-- One side of an abbreviation. -/
def parseSide (s : List Char) : Option (List UInt16) :=
  if s = [] then some [] else parseSegments (s.splitOn ':')

def parseV6 (s : List Char) : Option (List UInt16) :=
  match Text.find "::".toList s with
  | none => (parseSide s).filter (·.length = 8)
  | some i => do
    let head ← parseSide (s.take i)
    let tail ← parseSide (s.drop (i + 2))
    if '.' ∉ s.take i ∧ head.length + tail.length ≤ 7 then
      pure (head ++ List.replicate (8 - head.length - tail.length) 0 ++ tail)
    else
      none

/-- `str::parse::<IpAddr>`. -/
def parse (s : String) : Option IpAddr :=
  match parseV4 s.toList with
  | some (a, b, c, d) => some (.v4 a b c d)
  | none => (parseV6 s.toList).map .v6

theorem parseOctet_toDigits (a : UInt8) : parseOctet (Nat.toDigits 10 a.toNat) = some a := by
  have hall : ∀ n : Fin 256, parseOctet (Nat.toDigits 10 n) = some (UInt8.ofNat n) := by
    decide +kernel
  have h := hall ⟨a.toNat, a.toNat_lt⟩
  rwa [UInt8.ofNat_toNat] at h

/-- The text of an IPv4 address is parsed as that address. -/
theorem parse_text_v4 (a b c d : UInt8) :
    parse (String.ofList (text (.v4 a b c d))) = some (.v4 a b c d) := by
  have hdot : ∀ s ∈ [a.toNat, b.toNat, c.toNat, d.toNat].map (Nat.toDigits 10), '.' ∉ s := by
    intro s hs hmem
    obtain ⟨n, -, rfl⟩ := List.mem_map.mp hs
    have hdigit := Nat.isDigit_of_mem_toDigits (by decide) (by decide) hmem
    revert hdigit
    decide
  have hne : [a.toNat, b.toNat, c.toNat, d.toNat].map (Nat.toDigits 10) ≠ [] := by
    rw [List.map_cons]
    exact List.cons_ne_nil _ _
  have hsplit := List.splitOn_intercalate '.' hdot hne
  have hoctets : ([a.toNat, b.toNat, c.toNat, d.toNat].map (Nat.toDigits 10)).mapM parseOctet =
      some [a, b, c, d] := by
    simp [parseOctet_toDigits]
  have htext : text (.v4 a b c d) = dotted [a.toNat, b.toNat, c.toNat, d.toNat] := rfl
  have hparse : parseV4 (text (.v4 a b c d)) = some (a, b, c, d) := by
    simp only [htext, parseV4, dotted, hsplit, hoctets]
  rw [parse, String.toList_ofList, hparse]

example : parse "2001:db8::1:0:0:1" = some (.v6 [0x2001, 0xdb8, 0, 0, 1, 0, 0, 1]) := by
  decide

example : parse "::ffff:10.0.0.9" = some (.v6 [0, 0, 0, 0, 0, 0xffff, 0x0a00, 9]) := by
  decide

example : parse "10.0.0.09" = none := by decide

end IpAddr
