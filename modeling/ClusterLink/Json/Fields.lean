import ClusterLink.Json.Tree

/-!
# Reading fields from JSON

A record with fixed fields may be written in two ways: as an object that gives
the fields by name in any order, or as an array that gives them in order and
may stop early. Members under other names are passed over, but their names must
be texts. A name given twice is refused.
-/

namespace ClusterLink.Json

/-- What is given under one name: nothing, or one value. -/
def given? (members : List (String × Tree)) (name : String) : Option (Option Tree) :=
  match members.filter (·.1 == name) with
  | [] => some none
  | [m] => some (some m.2)
  | _ => none

/-- What a tree gives for each of the fields `names`, in their order. -/
def Tree.fields? (names : List String) : Tree → Option (List (Option Tree))
  | .object members => do
    let named ← members.mapM fun (key, t) => (text? key).map (·, t)
    names.mapM (given? named)
  | .array items =>
    if names.length < items.length then none
    else some (items.map some ++ List.replicate (names.length - items.length) none)
  | _ => none

/-- The text that a tree is. -/
def Tree.text? : Tree → Option String
  | .string s => Json.text? s
  | _ => none

/-- The natural number that a tree is, written plainly. -/
def Tree.nat? : Tree → Option Nat
  | .number n => n.nat?
  | _ => none

end ClusterLink.Json
