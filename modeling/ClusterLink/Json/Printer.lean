import ClusterLink.Json.Tree

/-!
# Compact JSON text

`Tree.render` writes a syntax tree without blanks. In a string the quote, the
backslash and the control characters below the space are escaped, five of them
by a letter and the others by number; every other character stands for itself.
-/

namespace ClusterLink.Json

/-- The last `digits` hexadecimal digits of a number, in lower case. -/
def hexDigits : (digits n : Nat) → List Char
  | 0, _ => []
  | k + 1, n => hexDigits k (n / 16) ++ [Nat.digitChar (n % 16)]

/-- The escape of a code unit. -/
def renderUnit (n : Nat) : List Char :=
  '\\' :: 'u' :: hexDigits 4 n

/-- A character inside a string. -/
def renderChar (c : Char) : List Char :=
  if c = '"' then ['\\', '"']
  else if c = '\\' then ['\\', '\\']
  else if c = '\x08' then ['\\', 'b']
  else if c = '\x0c' then ['\\', 'f']
  else if c = '\n' then ['\\', 'n']
  else if c = '\r' then ['\\', 'r']
  else if c = '\t' then ['\\', 't']
  else if c < ' ' then renderUnit c.toNat
  else [c]

/-- A piece of a string. -/
def Piece.render : Piece → List Char
  | .char c => renderChar c
  | .unit n => renderUnit n

/-- A string between its quotes. -/
def renderString (s : List Piece) : List Char :=
  '"' :: s.flatMap Piece.render ++ ['"']

/-- A number. -/
def Numeral.render (n : Numeral) : List Char :=
  (if n.negative then ['-'] else []) ++ n.whole
    ++ (if n.fraction.isEmpty then [] else '.' :: n.fraction)
    ++ match n.exponent with
      | none => []
      | some (negative, digits) => 'e' :: (if negative then ['-'] else []) ++ digits

mutual

/-- A tree as compact text. -/
def Tree.render : Tree → List Char
  | .null => "null".toList
  | .bool true => "true".toList
  | .bool false => "false".toList
  | .number n => n.render
  | .string s => renderString s
  | .array items => '[' :: renderItems items ++ [']']
  | .object members => '\x7b' :: renderMembers members ++ ['\x7d']

/-- Items with commas between them. -/
def renderItems : List Tree → List Char
  | [] => []
  | [t] => t.render
  | t :: rest => t.render ++ ',' :: renderItems rest

/-- Members with commas between them. -/
def renderMembers : List (List Piece × Tree) → List Char
  | [] => []
  | [(k, t)] => renderString k ++ ':' :: t.render
  | (k, t) :: rest => renderString k ++ ':' :: t.render ++ ',' :: renderMembers rest

end

/-- The text of a tree. -/
def Tree.text (t : Tree) : String :=
  String.ofList t.render

end ClusterLink.Json
