/-!
# JSON as written

The syntax tree of a JSON text: what stands in it, before anything is asked of
its strings and numbers. A string is kept as its written pieces, since a `\u`
escape may name half of a character, and a number as its digits, since it may
fit no type. A reader of values decides later which of the two it accepts, and
a part that nobody reads is never asked.
-/

namespace ClusterLink.Json

/-- One piece of a written string. -/
inductive Piece where
  /-- A character, written as itself or by a short escape. -/
  | char (c : Char)
  /-- A `\u` escape with four hexadecimal digits: a code unit below `2 ^ 16`. -/
  | unit (n : Nat)
  deriving DecidableEq

/-- A written number. -/
structure Numeral where
  /-- Whether a minus sign opens it. -/
  negative : Bool
  /-- The digits before the point, at least one. -/
  whole : List Char
  /-- The digits after the point; none if there is no point. -/
  fraction : List Char
  /-- The sign and the digits of the exponent; a minus sign is `true`. -/
  exponent : Option (Bool × List Char)
  deriving DecidableEq

/-- A JSON text without its blanks. -/
inductive Tree where
  /-- The word `null`. -/
  | null
  /-- One of the words `true` and `false`. -/
  | bool (b : Bool)
  /-- A number. -/
  | number (n : Numeral)
  /-- A string. -/
  | string (s : List Piece)
  /-- The items between brackets. -/
  | array (items : List Tree)
  /-- The members between braces, each a key and a value, with repetitions. -/
  | object (members : List (List Piece × Tree))

/-- The pieces that write a text. -/
def Piece.ofText (s : String) : List Piece :=
  s.toList.map .char

/-- The units from `D800`, which open a pair. -/
def isHighUnit (n : Nat) : Bool :=
  0xD800 ≤ n && n < 0xDC00

/-- The units from `DC00`, which close a pair. -/
def isLowUnit (n : Nat) : Bool :=
  0xDC00 ≤ n && n < 0xE000

/-- The character that a high and a low unit make together. -/
def pairedUnits (high low : Nat) : Char :=
  Char.ofNat (0x10000 + (high - 0xD800) * 0x400 + (low - 0xDC00))

/-- The text of some pieces, last character first, in front of `acc`; a unit that is half of
a pair needs the other half next to it. -/
def textOnto? (acc : List Char) : List Piece → Option (List Char)
  | [] => some acc
  | .char c :: rest => textOnto? (c :: acc) rest
  | .unit n :: rest =>
    if isHighUnit n then
      match rest with
      | .unit m :: rest' =>
        if isLowUnit m then textOnto? (pairedUnits n m :: acc) rest' else none
      | _ => none
    else if isLowUnit n then none
    else textOnto? (Char.ofNat n :: acc) rest

/-- The text that some pieces write, if they write one. -/
def text? (s : List Piece) : Option String :=
  (textOnto? [] s).map fun cs => String.ofList cs.reverse

/-- The digits of a natural number in base ten. -/
def Numeral.ofNat (n : Nat) : Numeral where
  negative := false
  whole := Nat.toDigits 10 n
  fraction := []
  exponent := none

/-- The natural number that some digits write. -/
def decimal (digits : List Char) : Nat :=
  digits.foldl (fun n c => n * 10 + (c.toNat - '0'.toNat)) 0

/-- The natural number that a numeral writes plainly: without sign, point or exponent. -/
def Numeral.nat? (n : Numeral) : Option Nat :=
  if n.negative || !n.fraction.isEmpty || n.exponent.isSome then none
  else some (decimal n.whole)

end ClusterLink.Json
