import ClusterLink.Text.Printable

/-!
# Quoted text

How a piece of input is shown inside a message: between double quotes, on one
line, with every character that could mislead the eye written by name or by
number. A single quote and any other visible character stay as they are.
-/

namespace ClusterLink.Text.Quoted

/-- The number form of a character: lowercase hexadecimal, no leading zeros. -/
def byNumber (c : Char) : List Char :=
  ['\\', 'u', '\x7b'] ++ Nat.toDigits 16 c.toNat ++ ['\x7d']

/-- The form of one character inside the quotes. -/
def escape (c : Char) : List Char :=
  if c = '"' then ['\\', '"']
  else if c = '\\' then ['\\', '\\']
  else if c = '\t' then ['\\', 't']
  else if c = '\n' then ['\\', 'n']
  else if c = '\r' then ['\\', 'r']
  else if c = '\x00' then ['\\', '0']
  else if isVisible c then [c]
  else byNumber c

/-- A text between double quotes. -/
def quote (cs : List Char) : List Char :=
  '"' :: cs.flatMap escape ++ ['"']

end ClusterLink.Text.Quoted
