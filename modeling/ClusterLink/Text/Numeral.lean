/-!
# Numerals

Reading an unsigned number from a text in a base up to thirty-six, with digits
of either case and a bound that the value must stay below. One plus sign may
stand in front; nothing else is allowed beside digits.
-/

namespace ClusterLink.Text.Numeral

/-- The value of a digit, if it is below the base. -/
def digit? (base : Nat) (c : Char) : Option Nat :=
  let value :=
    if c.isDigit then some (c.toNat - '0'.toNat)
    else if c.isLower then some (c.toNat - 'a'.toNat + 10)
    else if c.isUpper then some (c.toNat - 'A'.toNat + 10)
    else none
  value.filter (· < base)

/-- The number that some digits write. -/
def digits? (base : Nat) (cs : List Char) : Option Nat :=
  cs.foldlM (fun n c => (digit? base c).map (n * base + ·)) 0

/-- The text of a numeral without the plus sign that may open it. -/
def unsigned : List Char → List Char
  | '+' :: cs => cs
  | cs => cs

/-- The number below `bound` that a numeral writes. -/
def read? (base bound : Nat) (cs : List Char) : Option Nat :=
  match unsigned cs with
  | [] => none
  | c :: rest => (digits? base (c :: rest)).filter (· < bound)

end ClusterLink.Text.Numeral
