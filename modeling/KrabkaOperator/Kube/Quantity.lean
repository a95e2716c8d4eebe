-- SUMMARY: Resource quantities, such as the size of a volume, in bytes.
import Mathlib.Tactic.Common
import Mathlib.Algebra.Group.Int.Defs
import Mathlib.Algebra.Group.Nat.Defs
import Mathlib.Data.List.Basic

/-!
# Quantities

A quantity is a decimal number with an optional suffix, a power of 1000 or of 1024.
All sums and products are checked to be an `i128`.
-/

namespace Kube

/-- A number that fits into an `i128`. -/
def checkedI128 (n : Nat) : Option Nat := if n < 2 ^ 127 then some n else none

def quantitySuffixes : List (List Char × Nat) :=
  [("Ki".toList, 1024), ("Mi".toList, 1024 ^ 2), ("Gi".toList, 1024 ^ 3), ("Ti".toList, 1024 ^ 4),
    ("Pi".toList, 1024 ^ 5), ("Ei".toList, 1024 ^ 6), ("K".toList, 1000), ("M".toList, 1000 ^ 2),
    ("G".toList, 1000 ^ 3), ("T".toList, 1000 ^ 4), ("P".toList, 1000 ^ 5), ("E".toList, 1000 ^ 6)]

/-- The number before the suffix, and what the suffix stands for. -/
def splitSuffix (s : List Char) : List Char × Nat :=
  match quantitySuffixes.find? fun suffix => suffix.1.isSuffixOf s with
  | some (suffix, multiplier) => (s.take (s.length - suffix.length), multiplier)
  | none => (s, 1)

/-- The digits before and after the first point. -/
def splitPoint (s : List Char) : List Char × List Char :=
  (s.takeWhile (· ≠ '.'), (s.dropWhile (· ≠ '.')).drop 1)

/-- The number of a run of digits, which may be empty. -/
def digitsI128 (s : List Char) : Option Nat := checkedI128 (Nat.ofDigitChars 10 s 0)

/-- `whole.fraction * multiplier`, rounded down. -/
def scaleQuantity (whole fraction : List Char) (multiplier : Nat) : Except String Nat :=
  let scaled? := do
    let whole ← digitsI128 whole
    let scale ← checkedI128 (10 ^ fraction.length)
    let fraction ← digitsI128 fraction
    let product ← checkedI128 (whole * scale)
    let scaled ← checkedI128 (product + fraction)
    pure (scaled, scale)
  match scaled? with
  | none => .error "quantity overflows i128"
  | some (scaled, scale) =>
    if scaled = 0 then .error "quantity must be strictly positive"
    else
      match checkedI128 (scaled * multiplier) with
      | none => .error "quantity overflows i128"
      | some value => .ok (value / scale)

def parseQuantity (s : String) : Except String Nat :=
  if s.toList = [] then .error "empty quantity string"
  else
    let (mantissa, multiplier) := splitSuffix s.toList
    if mantissa = [] then .error "missing numeric mantissa before suffix"
    else if 'e' ∈ mantissa ∨ 'E' ∈ mantissa then .error "scientific notation not supported"
    else if mantissa.head? = some '-' then .error "negative quantity rejected"
    else
      let (whole, fraction) := splitPoint mantissa
      if whole = [] ∧ fraction = [] then .error "mantissa is not a valid number"
      else if !(whole ++ fraction).all Char.isDigit then .error "mantissa is not a valid number"
      else scaleQuantity whole fraction multiplier

example : parseQuantity "1.5Gi" = .ok 1610612736 := by decide

end Kube
