import ClusterLink.Text.Blank

/-!
# Header fields

The fields of a message head, in the order in which they are sent. A name may
occur several times; looking one up finds its first value, and does not
distinguish the case of ASCII letters.
-/

namespace ClusterLink

/-- The names and values of some header fields, in order. -/
abbrev Fields := List (String × String)

/-- Whether two field names are the same but for the case of ASCII letters. -/
def sameField (a b : String) : Bool :=
  Text.sameName a.toList b.toList

/-- The first value given for a name. -/
def Fields.get? (fields : Fields) (name : String) : Option String :=
  (fields.find? fun f => sameField f.1 name).map (·.2)

@[simp] theorem Fields.get?_nil (name : String) : Fields.get? [] name = none := rfl

end ClusterLink
