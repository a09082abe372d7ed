import ClusterLink.Connection
import ClusterLink.Link.Writer

/-!
# Links

A `Link` is a connection at work: callers hand in commands, the connection takes
them up and reads what arrives, and the writer sends what the connection has to
say. It is a state only; `Link.Move` says what can happen in it.

## The model

Three queues stand between the parts.

* `commands` holds what callers have handed in. It has room for `capacity`
  commands; callers who find none wait in `admissions` in their order.
* The queue of the writer has the same room. If it is full, the message of the
  command just taken up is `blocked`, and as long as it is, the connection
  takes up nothing and reads nothing.
* `Peer.sent` holds the bytes that have arrived and are not yet read.

A caller who stops waiting is listed in `abandoned`. It gets no answer, but a
request already handed in is sent all the same.

The end of the connection takes several steps, and others may act between them.
First the session is let go, which ends its stream (`close`). Those who wait are
then `untold`, and they are told one after another (`tell`).
-/

namespace ClusterLink

/-- What callers hand in. -/
inductive Command where
  /-- To send a request. -/
  | send (ticket : Ticket)
  /-- To end the connection. -/
  | shutdown
  deriving DecidableEq, Repr

/-- How waiting for a response ends. -/
inductive Outcome where
  /-- With the response. -/
  | response (r : Response)
  /-- Without one, because the connection has ended. -/
  | closed
  deriving DecidableEq, Repr

/-- The far end of a link. -/
structure Peer where
  /-- The bytes that have arrived from it and are not yet read. -/
  sent : Bytes := []
  /-- Whether nothing can be read after these bytes. -/
  ended : Bool := false
  /-- Whether writing to it fails. -/
  refuses : Bool := false
  /-- Whether writing to it has to wait. -/
  stalled : Bool := false
  /-- The bytes that it has taken. -/
  received : Bytes := []
  deriving DecidableEq, Repr

/-- A connection at work. -/
structure Link where
  /-- The connection. -/
  connection : Connection
  /-- Whether the connection goes on. -/
  isOpen : Bool := true
  /-- The greatest number of commands handed in and not taken up. -/
  capacity : Nat
  /-- The greatest number of bytes taken by one read. -/
  readSize : Nat
  /-- A read may take something. -/
  readSize_pos : 0 < readSize
  /-- The commands handed in. -/
  commands : List Command := []
  /-- The commands that wait for room. -/
  admissions : List Command := []
  /-- Whether no more commands can come. -/
  released : Bool := false
  /-- The message that waits for room in the queue of the writer. -/
  blocked : Option Bytes := none
  /-- The writer. -/
  writer : Writer
  /-- The far end. -/
  peer : Peer := {}
  /-- The callers who are still to be told that the connection has ended. -/
  untold : List Nat := []
  /-- The callers who have stopped waiting. -/
  abandoned : List Nat := []
  /-- How the other callers fared, in the order in which it was settled. -/
  answers : List (Nat × Outcome) := []
  deriving DecidableEq, Repr

/-- The caller behind a command. -/
def Command.caller? : Command → Option Nat
  | send ticket => some ticket.id
  | shutdown => none

namespace Link

/-- A new link to a host; each queue has room for at least one, and a read takes at least one
byte. -/
def start (host : String) (settings : Settings) : Link :=
  let capacity := max 1 settings.commandCapacity.toNat
  { connection := .start host settings
    capacity := capacity
    readSize := max 1 settings.readBufferSize.toNat
    readSize_pos := by omega
    writer := { capacity := capacity } }

/-- A caller's waiting ends, if it still waits. -/
def answer (l : Link) (caller : Nat) (outcome : Outcome) : Link :=
  if caller ∈ l.abandoned then l else { l with answers := l.answers ++ [(caller, outcome)] }

/-- The connection ends, and so does its stream. Those who wait are still to be told: first the
callers of the requests taken up, then those of the commands. What the writer already has is still
written. -/
def close (l : Link) : Link :=
  { l with
    connection := l.connection.close
    isOpen := false
    commands := []
    admissions := []
    blocked := none
    untold := l.connection.callers ++ (l.commands ++ l.admissions).filterMap Command.caller? }

/-- The first of those who are still to be told is told that the connection has ended. -/
def tell? (l : Link) : Option Link :=
  match l.untold with
  | [] => none
  | caller :: rest => some ({ l with untold := rest }.answer caller .closed)

/-- Gives a message to the writer. -/
def offer (l : Link) (message : Bytes) : Link :=
  if l.writer.failed then l.close
  else if l.writer.hasRoom then { l with writer := l.writer.put message }
  else { l with blocked := some message }

/-- Takes up a request. -/
def accept (l : Link) (t : Ticket) : Link :=
  let (message, connection) := l.connection.submit t
  { l with connection := connection }.offer message.bytes

/-- Delivers responses. -/
def deliver (l : Link) (deliveries : List Delivery) : Link :=
  deliveries.foldl (fun l d => l.answer d.caller (.response d.response)) l

/-- Takes some bytes that have arrived; a fault ends the connection. -/
def read (l : Link) (data : Bytes) : Link :=
  let (deliveries, fault, connection) := l.connection.receive data
  let l := { l with connection := connection }.deliver deliveries
  if fault.isSome then l.close else l

/-- Hands in a command, or waits for room behind those who already do. -/
def handIn (l : Link) (command : Command) : Link :=
  if l.admissions.isEmpty && l.commands.length < l.capacity then
    { l with commands := l.commands ++ [command] }
  else { l with admissions := l.admissions ++ [command] }

/-- A caller asks for a request to be sent. When the connection has ended it is told so, but not
before those who are still to be told. -/
def send (l : Link) (t : Ticket) : Link :=
  if l.isOpen then l.handIn (.send t)
  else if l.untold.isEmpty then l.answer t.id .closed
  else { l with untold := l.untold ++ [t.id] }

/-- A caller asks for the end of the connection. -/
def shutdown (l : Link) : Link :=
  if l.isOpen then l.handIn .shutdown else l

/-- Nobody will hand in a command any more. -/
def release (l : Link) : Link :=
  { l with released := true }

/-- A caller stops waiting. A command that still waits for room is withdrawn. -/
def abandon (l : Link) (caller : Nat) : Link :=
  { l with
    admissions := l.admissions.filter (·.caller? != some caller)
    abandoned := l.abandoned ++ [caller] }

/-- Bytes arrive. -/
def arrive (l : Link) (data : Bytes) : Link :=
  { l with peer := { l.peer with sent := l.peer.sent ++ data } }

/-- Nothing arrives any more. -/
def endReading (l : Link) : Link :=
  { l with peer := { l.peer with ended := true } }

/-- From now on writing fails. -/
def refuseWriting (l : Link) : Link :=
  { l with peer := { l.peer with refuses := true } }

/-- From now on writing has to wait, or need not. -/
def stall (l : Link) (stalled : Bool) : Link :=
  { l with peer := { l.peer with stalled := stalled } }

end Link

end ClusterLink
