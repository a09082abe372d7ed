import ClusterLink.Json.Number
import ClusterLink.Json.Parser

/-!
# JSON values

What a JSON text means: its strings are texts, its numbers have values, and an
object maps each key to the last value given for it. Containers may be nested
`maxDepth` deep.
-/

namespace ClusterLink.Json

/-- The value of a JSON text. -/
inductive Value where
  /-- The value `null`. -/
  | null
  /-- A truth value. -/
  | bool (b : Bool)
  /-- A number. -/
  | number (n : Number)
  /-- A text. -/
  | text (s : String)
  /-- A list of values. -/
  | array (items : List Value)
  /-- A map from texts to values, each key once. -/
  | object (members : List (String × Value))

/-- The greatest nesting of containers. -/
def maxDepth : Nat := 127

/-- Members without those that a later one with the same key replaces. -/
def lastOfEach (members : List (String × Value)) : List (String × Value) :=
  members.foldr (fun m kept => if kept.any (·.1 == m.1) then kept else m :: kept) []

mutual

/-- The value of a tree whose containers are nested at most `depth` deep. -/
def Value.ofTree? (depth : Nat) : Tree → Option Value
  | .null => some .null
  | .bool b => some (.bool b)
  | .number n => n.value?.map .number
  | .string s => (text? s).map .text
  | .array items =>
    if depth = 0 then none else (ofItems? (depth - 1) items).map .array
  | .object members =>
    if depth = 0 then none
    else (ofMembers? (depth - 1) members).map fun ms => .object (lastOfEach ms)

/-- The values of some trees. -/
def Value.ofItems? (depth : Nat) : List Tree → Option (List Value)
  | [] => some []
  | t :: rest => do
    let v ← ofTree? depth t
    let vs ← ofItems? depth rest
    return v :: vs

/-- The keys and values of some members. -/
def Value.ofMembers? (depth : Nat) : List (List Piece × Tree) → Option (List (String × Value))
  | [] => some []
  | (key, t) :: rest => do
    let k ← text? key
    let v ← ofTree? depth t
    let vs ← ofMembers? depth rest
    return (k, v) :: vs

end

/-- The value of a text. -/
def Value.parse? (s : String) : Option Value :=
  (Tree.parse? s.toList).bind (Value.ofTree? maxDepth)

end ClusterLink.Json
