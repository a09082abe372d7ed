import ClusterLink.Json.Token

/-!
# The JSON parser

`Tree.parse?` reads a whole text. It runs over the tokens once with the open
containers on a stack of its own, so that nesting costs no call depth and has
no limit.

## The model

A `Reader` holds what may come next (`Expect`) and the containers around it
(`Open`), innermost first; items and members already read stand last one first.
`Reader.step?` takes one token and fails where the grammar has no such token.
-/

namespace ClusterLink.Json

/-- A container that waits for a value inside it. -/
inductive Open where
  /-- An array with its items so far. -/
  | array (items : List Tree)
  /-- An object with its members so far, at the value of `key`. -/
  | member (members : List (List Piece × Tree)) (key : List Piece)

/-- What may come next. -/
inductive Expect where
  /-- A value. -/
  | value
  /-- The first item of an array, or its end. -/
  | firstItem
  /-- The first key of an object, or its end. -/
  | firstKey
  /-- A key, after a comma. -/
  | key (members : List (List Piece × Tree))
  /-- The colon after a key. -/
  | colon (members : List (List Piece × Tree)) (key : List Piece)
  /-- A comma after an item, or the end of the array. -/
  | afterItem (items : List Tree)
  /-- A comma after a member, or the end of the object. -/
  | afterMember (members : List (List Piece × Tree))
  /-- Nothing: the text is complete. -/
  | nothing (t : Tree)

/-- The parser between two tokens. -/
structure Reader where
  /-- The containers around the current one, innermost first. -/
  stack : List Open
  /-- What may come next. -/
  expect : Expect

/-- The parser before the first token. -/
def Reader.start : Reader := ⟨[], .value⟩

/-- The parser after a complete value. -/
def Reader.place (t : Tree) : List Open → Reader
  | [] => ⟨[], .nothing t⟩
  | .array items :: stack => ⟨stack, .afterItem (t :: items)⟩
  | .member members key :: stack => ⟨stack, .afterMember ((key, t) :: members)⟩

/-- The parser after a token that begins a value inside `stack`. -/
def Reader.begin? (stack : List Open) : Token → Option Reader
  | .null => some (place .null stack)
  | .bool b => some (place (.bool b) stack)
  | .number n => some (place (.number n) stack)
  | .string s => some (place (.string s) stack)
  | .openArray => some ⟨stack, .firstItem⟩
  | .openObject => some ⟨stack, .firstKey⟩
  | _ => none

/-- One token. -/
def Reader.step? (r : Reader) (t : Token) : Option Reader :=
  match r.expect, t with
  | .value, t => begin? r.stack t
  | .firstItem, .closeArray => some (place (.array []) r.stack)
  | .firstItem, t => begin? (.array [] :: r.stack) t
  | .firstKey, .closeObject => some (place (.object []) r.stack)
  | .firstKey, .string s => some ⟨r.stack, .colon [] s⟩
  | .key members, .string s => some ⟨r.stack, .colon members s⟩
  | .colon members key, .colon => some ⟨.member members key :: r.stack, .value⟩
  | .afterItem items, .comma => some ⟨.array items :: r.stack, .value⟩
  | .afterItem items, .closeArray => some (place (.array items.reverse) r.stack)
  | .afterMember members, .comma => some ⟨r.stack, .key members⟩
  | .afterMember members, .closeObject => some (place (.object members.reverse) r.stack)
  | _, _ => none

/-- The tree that has been read, if the text is complete. -/
def Reader.result? (r : Reader) : Option Tree :=
  match r.expect with
  | .nothing t => some t
  | _ => none

/-- The tree that some tokens write. -/
def Tree.ofTokens? (ts : List Token) : Option Tree :=
  (ts.foldlM Reader.step? .start).bind Reader.result?

/-- The tree of a text. -/
def Tree.parse? (s : List Char) : Option Tree :=
  (Token.lex? s).bind Tree.ofTokens?

end ClusterLink.Json
