/-!
# The outcome of a reply

A reply reports its outcome by a status code. Callers are told one of three
things only, whatever the code.
-/

namespace ClusterLink

/-- What became of a request. -/
inductive Status where
  /-- The operation succeeded. -/
  | success
  /-- The addressed resource does not exist. -/
  | notFound
  /-- Any other outcome. -/
  | failure
  deriving DecidableEq, Repr

namespace Status

/-- The outcome that a status code reports. -/
def ofCode (code : UInt16) : Status :=
  if code = 200 ∨ code = 201 then success
  else if code = 404 then notFound
  else failure

/-- Whether the operation succeeded. -/
def isSuccess : Status → Bool
  | success => true
  | _ => false

end Status

end ClusterLink
