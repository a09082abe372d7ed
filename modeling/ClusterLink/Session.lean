import ClusterLink.Document
import ClusterLink.Fault
import ClusterLink.Request.Wire
import ClusterLink.Response
import ClusterLink.Settings

/-!
# Sessions

A `Session` is the client's side of one connection: it turns requests into
messages and the frames that come back into responses.

## The model

* An ordinary reply is gathered and answers the first outstanding request when
  it ends.
* The reply to a streaming request answers it with its head already. A success
  opens a feed, and from then on every complete document of the body is
  published there. The stream ends with its reply.
* The head of another reply may come while a stream is open. The stream stays
  open and keeps receiving the body; the end of the reply then belongs to the
  newer request, and the stream ends with the next streaming head.

`receive` takes one frame. It returns what the frame completes, or why it is
out of turn, and in both cases the session after it: a fault does not undo what
was done before it was seen.
-/

namespace ClusterLink

open Reply (Frame Header)

/-- A streaming reply that has begun. -/
structure OpenStream where
  /-- The feed of its documents; none if the reply was no success. -/
  feed : Option Nat
  /-- The request to which its body belongs. -/
  ticket : Ticket
  /-- Whether the next end of a reply is the end of this one. -/
  ownsReply : Bool
  deriving DecidableEq, Repr

/-- The client's side of one connection. -/
structure Session where
  /-- The host to which the connection leads. -/
  host : String
  /-- The settings. -/
  settings : Settings
  /-- The reply in progress. -/
  assembly : Assembly := .fresh
  /-- The requests that wait for a reply. -/
  outstanding : Outstanding := {}
  /-- The stream in progress. -/
  stream : Option OpenStream := none
  /-- The feeds of all streams so far. -/
  hub : Hub := {}
  deriving DecidableEq, Repr

namespace Session

/-- A request becomes a message and waits for its reply. -/
def submit (s : Session) (t : Ticket) : Outgoing × Session :=
  (t.request.outgoing s.host s.settings.userAgent,
    { s with outstanding := s.outstanding.submit t })

/-- Ends the stream in progress, if there is one. -/
def endStream (s : Session) : Session :=
  { s with
    hub := match s.stream.bind (·.feed) with
      | some feed => s.hub.update feed .complete
      | none => s.hub
    stream := none
    outstanding := s.outstanding.putDown }

/-- Ends the stream in progress and gives up the reply in progress. -/
def close (s : Session) : Session :=
  let s := s.endStream
  { s with assembly := s.assembly.reset }

/-- Opens a feed for a stream; its first subscription is parked there. -/
def openFeed (s : Session) : Nat × Session :=
  let (feed, hub) := s.hub.start (Feed.ofCapacity s.settings.streamCapacity.toNat).park
  (feed, { s with hub := hub })

/-- Answers the first outstanding request, a streaming one, with a status code. -/
def openStream (s : Session) (code : UInt16) : Except OutOfTurn Response × Session :=
  match s.outstanding.carry? with
  | none => (.error .streamUnsolicited, s)
  | some (ticket, outstanding) =>
    let status := Status.ofCode code
    let s := { s with outstanding := outstanding }
    let (feed, s) :=
      if status.isSuccess then
        let (feed, s) := s.openFeed
        (some feed, s)
      else (none, s)
    (.ok (.bucketStreaming ⟨feed⟩ s.host status ticket),
      { s with stream := some ⟨feed, ticket, true⟩ })

/-- A stream gives the end of the reply to a newer one, or ends if it has no feed. -/
def yieldReply (s : Session) : Session :=
  match s.stream with
  | none => s
  | some stream =>
    if stream.feed.isSome then { s with stream := some { stream with ownsReply := false } }
    else s.endStream

/-- A reply begins. -/
def start (s : Session) (h : Header) : Except OutOfTurn (Option Response) × Session :=
  match s.outstanding.current? with
  | none => (.error (.unsolicited h.code h.reason), s)
  | some ticket =>
    let s := { s with assembly := .start h }
    if ticket.request.kind.isStreaming then
      let s := if s.stream.isSome then s.endStream else s
      let (response, s) := s.openStream h.code
      (response.map some, s)
    else (.ok none, s.yieldReply)

/-- Gives the body gathered so far to the stream in progress, which publishes every document that
is complete. -/
def passOn (s : Session) : Session :=
  match s.stream with
  | none => s
  | some stream =>
    let (ticket, outstanding) :=
      if s.outstanding.carried.isSome then s.outstanding.ascribe else (none, s.outstanding)
    let s := { s with
      outstanding := outstanding
      stream := some { stream with ticket := ticket.getD stream.ticket } }
    match stream.feed with
    | none => s
    | some feed =>
      let (documents, rest) := Document.split s.assembly.body
      { s with
        assembly := s.assembly.withBody rest
        hub := s.hub.update feed (documents.foldl Feed.publish) }

/-- A piece of a body comes. -/
def gather (s : Session) (bytes : Bytes) : Except OutOfTurn Unit × Session :=
  match s.assembly.gather? bytes with
  | none => (.error .strayContent, s)
  | some assembly =>
    let s := { s with assembly := assembly }.passOn
    let length := s.assembly.body.length
    let limit := s.settings.maxBodySize.toNat
    (if limit < length then .error (.longBody length limit) else .ok (), s)

/-- A reply ends. -/
def finish (s : Session) : Except OutOfTurn (Option Response) × Session :=
  if s.stream.any (·.ownsReply) then (.ok none, s.close)
  else
    match s.assembly.finish? with
    | none => (.error .strayEnd, s)
    | some (reply, assembly) =>
      let s := { s with assembly := assembly }
      match s.outstanding.complete? with
      | none => (.error .endUnsolicited, s)
      | some (ticket, outstanding) =>
        let s := { s with outstanding := outstanding }
        match Response.ofReply? ticket reply with
        | some response => (.ok (some response), s)
        | none => (.error (.streamless ticket.request.path), s)

/-- Takes one frame. -/
def receive (s : Session) : Frame → Except OutOfTurn (Option Response) × Session
  | .header h => s.start h
  | .content bytes =>
    let (done, s) := s.gather bytes
    (done.map fun _ => none, s)
  | .last [] => s.finish
  | .last (b :: bytes) =>
    match s.gather (b :: bytes) with
    | (.ok _, s) => s.finish
    | (.error cause, s) => (.error cause, s)

/-- Forgets the requests that wait for a reply. -/
def drain (s : Session) : List Ticket × Session :=
  let (tickets, outstanding) := s.outstanding.drain
  (tickets, { s with outstanding := outstanding })

/-- Whether a stream is open that publishes documents. -/
def isStreaming (s : Session) : Bool :=
  (s.stream.bind (·.feed)).isSome

/-- The request to which the stream in progress belongs. -/
def streamTicket? (s : Session) : Option Ticket :=
  s.stream.map (·.ticket)

end Session

end ClusterLink
