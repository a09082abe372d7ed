import ClusterLink.Text.Utf8

/-!
# Base 64

The standard alphabet with padding: three bytes become four digits of six bits,
and one or two bytes at the end are filled up with `=`.
-/

namespace ClusterLink.Text.Base64

/-- The digit for a value below sixty-four. -/
def digit (v : Nat) : Char :=
  if v < 26 then Char.ofNat ('A'.toNat + v)
  else if v < 52 then Char.ofNat ('a'.toNat + (v - 26))
  else if v < 62 then Char.ofNat ('0'.toNat + (v - 52))
  else if v = 62 then '+'
  else '/'

/-- The text of a byte string. -/
def encode : Bytes → List Char
  | [] => []
  | [a] =>
    let v := a.toNat * 16
    [digit (v / 64), digit (v % 64), '=', '=']
  | [a, b] =>
    let v := (a.toNat * 256 + b.toNat) * 4
    [digit (v / 4096), digit (v / 64 % 64), digit (v % 64), '=']
  | a :: b :: c :: rest =>
    let v := a.toNat * 65536 + b.toNat * 256 + c.toNat
    digit (v / 262144) :: digit (v / 4096 % 64) :: digit (v / 64 % 64) :: digit (v % 64)
      :: encode rest

end ClusterLink.Text.Base64
