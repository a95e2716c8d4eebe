-- SUMMARY: IP addresses and their canonical text.
import Mathlib.Tactic.Common

/-!
# IP addresses

An IPv4 address has four octets, an IPv6 address eight segments of 16 bits. The
text of an IPv6 address abbreviates the first of the longest runs of at least two
zero segments, and writes a mapped IPv4 address with dots.
-/

inductive IpAddr where
  | v4 (a b c d : UInt8)
  | v6 (segments : List UInt16)
  deriving DecidableEq, Repr

namespace IpAddr

def dotted (octets : List Nat) : List Char :=
  ['.'].intercalate (octets.map (Nat.toDigits 10))

def colons (segments : List UInt16) : List Char :=
  [':'].intercalate (segments.map fun s => Nat.toDigits 16 s.toNat)

/-- The number of zero segments at the start. -/
def zeroRun (segments : List UInt16) : Nat := (segments.takeWhile (· = 0)).length

/-- Start and length of the first of the longest runs of zeros. -/
def longestZeroRun (segments : List UInt16) : Nat × Nat :=
  (List.range segments.length).foldl (fun best i =>
    let n := zeroRun (segments.drop i)
    if best.2 < n then (i, n) else best) (0, 0)

def text : IpAddr → List Char
  | .v4 a b c d => dotted [a.toNat, b.toNat, c.toNat, d.toNat]
  | .v6 segments =>
    match segments with
    | [0, 0, 0, 0, 0, 0xffff, hi, lo] =>
      "::ffff:".toList ++
        dotted [hi.toNat / 256, hi.toNat % 256, lo.toNat / 256, lo.toNat % 256]
    | _ =>
      let (start, len) := longestZeroRun segments
      if 1 < len then
        colons (segments.take start) ++ "::".toList ++ colons (segments.drop (start + len))
      else
        colons segments

/-- `Ipv4Addr::LOCALHOST`. -/
def localhost : IpAddr := .v4 127 0 0 1

example : localhost.text = "127.0.0.1".toList := by decide

example : (v6 [0x2001, 0xdb8, 0, 0, 1, 0, 0, 1]).text = "2001:db8::1:0:0:1".toList := by
  decide

end IpAddr
