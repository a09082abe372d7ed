import ClusterLink.Reply.Framer
import ClusterLink.Session

/-!
# Connections

A `Connection` joins a session to the bytes that arrive and to the callers that
wait. Responses come in the order of the requests, so the callers form a queue,
and each response goes to the first of them.

## The model

`receive` takes the bytes of one read. They first become frames; if they are
malformed, none of their frames is taken. Then the frames are taken one by one,
and the responses before the first frame out of turn are delivered.
-/

namespace ClusterLink

open Reply (Frame Framer)

/-- The two ends of a session: bytes that arrive and callers that wait. -/
structure Connection where
  /-- The session. -/
  session : Session
  /-- The bytes that are not yet frames. -/
  framer : Framer
  /-- The callers that wait for a response, each by the number of its ticket. -/
  callers : List Nat := []
  deriving DecidableEq, Repr

/-- A response and the caller to whom it goes. -/
structure Delivery where
  /-- The number of the caller's ticket. -/
  caller : Nat
  /-- The response. -/
  response : Response
  deriving DecidableEq, Repr

namespace Connection

/-- A new connection to a host. -/
def start (host : String) (settings : Settings) : Connection where
  session := { host := host, settings := settings }
  framer := { limit := settings.maxHeaderSize.toNat }

/-- A request becomes a message, and its caller waits. -/
def submit (c : Connection) (t : Ticket) : Outgoing × Connection :=
  let (message, session) := c.session.submit t
  (message, { c with session := session, callers := c.callers ++ [t.id] })

/-- Takes one frame; a response goes to the first caller. -/
def take (c : Connection) (frame : Frame) : Except OutOfTurn (Option Delivery) × Connection :=
  let (result, session) := c.session.receive frame
  let c := { c with session := session }
  match result with
  | .error cause => (.error cause, c)
  | .ok none => (.ok none, c)
  | .ok (some response) =>
    match c.callers with
    | [] => (.error .nobodyWaits, c)
    | caller :: rest => (.ok (some ⟨caller, response⟩), { c with callers := rest })

/-- Takes frames until one is out of turn. -/
def takeAll (c : Connection) : List Frame → List Delivery × Option OutOfTurn × Connection
  | [] => ([], none, c)
  | frame :: rest =>
    match c.take frame with
    | (.error cause, c) => ([], some cause, c)
    | (.ok delivery, c) =>
      let (deliveries, fault, c) := c.takeAll rest
      (delivery.toList ++ deliveries, fault, c)

/-- Takes the bytes of one read. -/
def receive (c : Connection) (data : Bytes) : List Delivery × Option Fault × Connection :=
  let (result, framer) := c.framer.push data
  let c := { c with framer := framer }
  match result with
  | .error cause => ([], some (.malformed cause), c)
  | .ok frames =>
    let (deliveries, fault, c) := c.takeAll frames
    (deliveries, fault.map .outOfTurn, c)

/-- Ends the stream in progress and lets go of the callers. -/
def close (c : Connection) : Connection :=
  { c with session := c.session.close, callers := [] }

/-! ### Nobody begins to wait while frames are taken -/

theorem length_callers_take_le (c : Connection) (frame : Frame) :
    (c.take frame).2.callers.length ≤ c.callers.length := by
  unfold take
  generalize c.session.receive frame = received
  obtain ⟨cause | _ | response, session⟩ := received
  · exact Nat.le_refl _
  · exact Nat.le_refl _
  · cases hcallers : c.callers with
    | nil => simp
    | cons caller rest => simp

theorem length_callers_takeAll_le (c : Connection) (frames : List Frame) :
    (c.takeAll frames).2.2.callers.length ≤ c.callers.length := by
  induction frames generalizing c with
  | nil => exact Nat.le_refl _
  | cons frame rest ih =>
    have hframe := c.length_callers_take_le frame
    rw [takeAll]
    generalize c.take frame = taken at hframe
    obtain ⟨cause | delivery, c'⟩ := taken
    · exact hframe
    · exact Nat.le_trans (ih c') hframe

theorem length_callers_receive_le (c : Connection) (data : Bytes) :
    (c.receive data).2.2.callers.length ≤ c.callers.length := by
  unfold receive
  generalize c.framer.push data = pushed
  obtain ⟨cause | frames, framer⟩ := pushed
  · exact Nat.le_refl _
  · exact length_callers_takeAll_le { c with framer := framer } frames

end Connection

end ClusterLink
