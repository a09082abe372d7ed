import ClusterLink.Json.Fields
import ClusterLink.Json.Parser
import ClusterLink.Json.Printer
import ClusterLink.Request.Basic

/-!
# Requests as JSON

A request is written as an object with four members. It is read from such an
object in any order, or from an array of its four values; a kind may be given
by its name or by an object whose only member has that name and the value
`null`.
-/

namespace ClusterLink.Request

open Json (Tree Piece)

/-- The names of the four members, in the order in which they are written. -/
def memberNames : List String :=
  ["kind", "path", "bucket", "password"]

/-- The tree of a request. -/
def toTree (r : Request) : Tree :=
  .object (memberNames.zip [r.kind.name, r.path, r.bucket, r.password] |>.map
    fun (name, value) => (Piece.ofText name, .string (Piece.ofText value)))

/-- The kind that a tree gives. -/
def Kind.ofTree? : Tree → Option Kind
  | .string s => (Json.text? s).bind ofName?
  | .object [(name, .null)] => (Json.text? name).bind ofName?
  | _ => none

/-- The request that a tree gives. -/
def ofTree? (t : Tree) : Option Request :=
  match t.fields? memberNames with
  | some [some kind, some path, some bucket, some password] => do
    return ⟨← Kind.ofTree? kind, ← path.text?, ← bucket.text?, ← password.text?⟩
  | _ => none

/-- The compact JSON text of a request. -/
def json (r : Request) : String :=
  r.toTree.text

/-- The request that a JSON text gives. -/
def ofJson? (s : String) : Option Request :=
  (Tree.parse? s.toList).bind ofTree?

end ClusterLink.Request
