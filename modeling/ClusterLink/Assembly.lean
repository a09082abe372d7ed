import ClusterLink.Reply.Frame

/-!
# Assembling a reply

An `Assembly` holds the reply in progress: its head and the bytes of its body
gathered so far. Bytes are only ever gathered behind a head, a new head begins
with none, and none are left when the reply has ended.
-/

namespace ClusterLink

open Reply (Header)

/-- A complete reply. -/
structure Reply where
  /-- The head. -/
  header : Header
  /-- The text of the body, or the reason if the body is empty. -/
  body : String
  deriving DecidableEq, Repr

/-- The reply in progress. -/
inductive Assembly where
  /-- No reply has begun yet. -/
  | fresh
  /-- The last reply has ended. -/
  | idle
  /-- A reply has begun. -/
  | gathering (header : Header) (body : Bytes)
  deriving DecidableEq, Repr

namespace Assembly

/-- A reply begins; one in progress is given up. -/
def start (header : Header) : Assembly :=
  gathering header []

/-- The head of the reply in progress. -/
def header? : Assembly → Option Header
  | gathering header _ => some header
  | _ => none

/-- The bytes gathered so far; none before the first reply. -/
def body? : Assembly → Option Bytes
  | fresh => none
  | idle => some []
  | gathering _ body => some body

/-- The bytes gathered so far. -/
def body (a : Assembly) : Bytes :=
  a.body?.getD []

/-- Gathers more of the body, if a reply is in progress. -/
def gather? : Assembly → Bytes → Option Assembly
  | gathering header body, bytes => some (gathering header (body ++ bytes))
  | _, _ => none

/-- Replaces the bytes gathered so far. -/
def withBody : Assembly → Bytes → Assembly
  | gathering header _, bytes => gathering header bytes
  | a, _ => a

/-- The text of a body, for which the reason stands in if it is empty. -/
def textOf (header : Header) (body : Bytes) : String :=
  if body.isEmpty then header.reason else String.ofList (Text.Utf8.decodeLossy body)

/-- Ends the reply in progress. -/
def finish? : Assembly → Option (Reply × Assembly)
  | gathering header body => some (⟨header, textOf header body⟩, idle)
  | _ => none

/-- Gives up the reply in progress. -/
def reset : Assembly → Assembly
  | fresh => fresh
  | _ => idle

/-- Whether a reply is in progress. -/
def isOpen (a : Assembly) : Bool :=
  a.header?.isSome

/-- Bytes are gathered exactly while a reply is in progress. -/
theorem isSome_gather? (a : Assembly) (bytes : Bytes) : (a.gather? bytes).isSome = a.isOpen := by
  cases a <;> rfl

end Assembly

end ClusterLink
