import ClusterLink.Request.Basic

/-!
# Outstanding requests

Replies come in the order of the requests, so the requests that wait for one
stand in a queue, and a reply belongs to the first. A streaming request leaves
the queue as soon as its reply begins, since that reply may never end; it is
then carried beside the queue until the first piece of its body.

Two requests may be equal and yet be submitted for different callers, and one
request may be submitted twice. So a request is submitted under a ticket, and
tickets are told apart by their number.
-/

namespace ClusterLink

/-- A request that a caller has in hand. -/
structure Ticket where
  /-- The number that tells the ticket from others. -/
  id : Nat
  /-- The request. -/
  request : Request
  deriving DecidableEq, Repr

/-- The requests that wait for a reply. -/
structure Outstanding where
  /-- Those whose reply has not ended, first come first. -/
  queue : List Ticket := []
  /-- A streaming request whose reply has begun and brought no body yet. -/
  carried : Option Ticket := none
  deriving DecidableEq, Repr

namespace Outstanding

/-- A request joins the queue. -/
def submit (o : Outstanding) (t : Ticket) : Outstanding :=
  { o with queue := o.queue ++ [t] }

/-- The request to which the reply in progress belongs. -/
def current? (o : Outstanding) : Option Ticket :=
  o.queue.head?

/-- Takes the first request out of the queue and carries it. -/
def carry? (o : Outstanding) : Option (Ticket × Outstanding) :=
  match o.queue with
  | [] => none
  | t :: rest => some (t, ⟨rest, some t⟩)

/-- The request to which a piece of a stream belongs: the carried one, which is then carried no
longer, and without it the first of the queue. -/
def ascribe (o : Outstanding) : Option Ticket × Outstanding :=
  match o.carried with
  | none => (o.current?, o)
  | some t =>
    let o := { o with carried := none }
    if o.current?.any (·.id == t.id) then (o.current?, o) else (some t, o)

/-- Takes the first request out of the queue because its reply has ended. -/
def complete? (o : Outstanding) : Option (Ticket × Outstanding) :=
  match o.queue with
  | [] => none
  | t :: rest => some (t, { o with queue := rest })

/-- Carries no request any longer. -/
def putDown (o : Outstanding) : Outstanding :=
  { o with carried := none }

/-- Takes all requests out of the queue. -/
def drain (o : Outstanding) : List Ticket × Outstanding :=
  (o.queue, {})

end Outstanding

end ClusterLink
