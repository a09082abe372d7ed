import ClusterLink.Json.Tree

/-!
# The values of JSON numbers

A number without point and exponent is an integer where it fits 64 bits, and
every other number is a double. The double is not the nearest one: the leading
digits are gathered into a significand below `2 ^ 64`, and that is scaled by a
single power of ten, so a long number can be off in its last bits.
-/

namespace ClusterLink.Json

/-- The value of a number. -/
inductive Number where
  /-- An integer from `-2 ^ 63` to `2 ^ 64 - 1`, zero without a minus sign. -/
  | integer (n : Int)
  /-- A double. -/
  | real (x : Float)

/-- Takes digits into a significand for as long as it stays below `2 ^ 64`; the digits from the
first one that does not fit are returned too. -/
def gather (significand : Nat) : List Char → Nat × List Char
  | [] => (significand, [])
  | c :: rest =>
    let next := significand * 10 + (c.toNat - '0'.toNat)
    if next < UInt64.size then gather next rest else (significand, c :: rest)

/-- A power of ten as a double. -/
def pow10 (n : Nat) : Float :=
  Float.ofScientific 1 false n

/-- Divides by a power of ten, in steps of `10 ^ 308` until zero. -/
def scaleDown (x : Float) (n : Nat) : Float :=
  if n ≤ 308 then x / pow10 n
  else if x == 0 then x
  else scaleDown (x / pow10 308) (n - 308)
termination_by n

/-- Multiplies by a power of ten; the result has to be finite. -/
def scaleUp? (x : Float) (n : Nat) : Option Float :=
  if n ≤ 308 then
    let y := x * pow10 n
    if y.isInf then none else some y
  else if x == 0 then some x
  else none

/-- A significand times a power of ten. -/
def scale? (significand : Nat) (exponent : Int) : Option Float :=
  let x := significand.toUInt64.toFloat
  if 0 ≤ exponent then scaleUp? x exponent.toNat else some (scaleDown x (-exponent).toNat)

/-- The greatest written exponent that is taken as it is. -/
def maxExponent : Nat := 2147483647

/-- The magnitude of a number as a double: the digits that did not fit in front of the point
count as places, those behind it are dropped. -/
def Numeral.magnitude? (n : Numeral) : Option Float :=
  let (front, dropped) := gather 0 n.whole
  let (significand, behind) := gather front n.fraction
  let places : Int := dropped.length - (n.fraction.length - behind.length : Nat)
  match n.exponent with
  | none => scale? significand places
  | some (negative, digits) =>
    let e := decimal digits
    if maxExponent < e then
      if significand ≠ 0 ∧ !negative then none else some 0
    else scale? significand (if negative then places - e else places + e)

/-- The value of a number; none if it is too large for a double. -/
def Numeral.value? (n : Numeral) : Option Number :=
  let m := decimal n.whole
  if n.fraction.isEmpty && n.exponent.isNone
      && (if n.negative then m ≠ 0 ∧ m ≤ UInt64.size / 2 else m < UInt64.size) then
    some (.integer (if n.negative then -m else m))
  else
    n.magnitude?.map fun x => .real (if n.negative then -x else x)

end ClusterLink.Json
