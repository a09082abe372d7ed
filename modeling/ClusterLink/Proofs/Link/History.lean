import ClusterLink.Link.Move
import ClusterLink.Proofs.Link.Lockstep

/-!
# What happens to a link

An `Event` is one thing that can happen to a link: callers send requests, stop
waiting and use their streams, bytes arrive in pieces of any size, the far end
stops sending or taking, and the parts of the link make their moves. Events come
in any order; a move that cannot be made changes nothing.

A `History` is a link with what it has been through. Requests are numbered in the
order in which they are sent.
-/

namespace ClusterLink

namespace Link

/-- One thing that happens to a link. -/
inductive Event where
  /-- A caller asks for a request to be sent. -/
  | send (request : Request)
  /-- A caller asks for the end of the connection. -/
  | shutdown
  /-- Nobody will ask for anything any more. -/
  | release
  /-- A caller stops waiting. -/
  | abandon (caller : Nat)
  /-- Bytes arrive. -/
  | arrive (data : Bytes)
  /-- Nothing arrives any more. -/
  | endReading
  /-- From now on writing fails. -/
  | refuseWriting
  /-- From now on writing has to wait, or need not. -/
  | stall (stalled : Bool)
  /-- A caller subscribes to a stream. -/
  | subscribe (stream : Stream)
  /-- A caller gives up a subscription. -/
  | unsubscribe (sub : Subscription)
  /-- A caller asks a subscription for the next document. -/
  | next (sub : Subscription)
  /-- A part of the link acts. -/
  | move (m : Move)
  deriving DecidableEq, Repr

/-- The callers behind the commands that have not been taken up, in order. -/
def pending (l : Link) : List Nat :=
  (l.commands ++ l.admissions).filterMap Command.caller?

/-- The request that a move takes up. -/
def taken (l : Link) : Move → List Ticket
  | .take =>
    match l.commands with
    | .send t :: _ => [t]
    | _ => []
  | _ => []

/-- The responses to which a move leads, whether anybody waits for them or not. -/
def made (l : Link) : Move → List Response
  | .read =>
    if l.peer.sent.isEmpty then [] else l.connection.respond (l.peer.sent.take l.readSize)
  | _ => []

/-- The link with another hub. -/
def withHub (l : Link) (hub : Hub) : Link :=
  { l with connection := { l.connection with session := { l.connection.session with hub := hub } } }

/-- A link and what it has been through. -/
structure History where
  /-- The link. -/
  link : Link
  /-- How many requests callers have asked to be sent. -/
  sent : Nat := 0
  /-- The requests that the connection has taken up, in order. -/
  accepted : List Ticket := []
  /-- The responses that the session has come to, in order. -/
  produced : List Response := []
  deriving DecidableEq, Repr

namespace History

/-- The history of a new link. -/
def start (host : String) (settings : Settings) : History where
  link := .start host settings

/-- A part of the link acts, if it can. -/
def move (r : History) (m : Move) : History :=
  match r.link.move? m with
  | none => r
  | some link =>
    { r with
      link := link
      accepted := r.accepted ++ r.link.taken m
      produced := r.produced ++ r.link.made m }

/-- The history after one more event. -/
def act (r : History) : Event → History
  | .send request => { r with link := r.link.send ⟨r.sent, request⟩, sent := r.sent + 1 }
  | .shutdown => { r with link := r.link.shutdown }
  | .release => { r with link := r.link.release }
  | .abandon caller => { r with link := r.link.abandon caller }
  | .arrive data => { r with link := r.link.arrive data }
  | .endReading => { r with link := r.link.endReading }
  | .refuseWriting => { r with link := r.link.refuseWriting }
  | .stall stalled => { r with link := r.link.stall stalled }
  | .subscribe stream =>
    { r with link := r.link.withHub (r.link.connection.session.hub.subscribe stream).2 }
  | .unsubscribe sub =>
    { r with link := r.link.withHub (r.link.connection.session.hub.unsubscribe sub) }
  | .next sub => { r with link := r.link.withHub (r.link.connection.session.hub.next sub).2.2 }
  | .move m => r.move m

/-- The history after some events. -/
def run (r : History) (events : List Event) : History :=
  events.foldl act r

/-- The history when all have been told who are still to be told. -/
def finish (r : History) : History :=
  r.run (List.replicate r.link.untold.length (.move .tell))

end History

end Link

end ClusterLink
