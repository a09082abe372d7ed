import ClusterLink.Connection
import ClusterLink.Proofs.Session.Attribution
import ClusterLink.Proofs.Session.Streams

/-!
# Callers and requests in step

The callers of a connection and the requests of its session stand in two queues.
A connection is `Matched` when they are the same queue and the session keeps its
invariants. Every frame keeps that: the session answers its first request if and
only if the first caller gets a response, so a response never comes without a
caller, wherever a fault stops a read (`Matched.takeAll`).
-/

namespace ClusterLink

open Reply (Frame)

/-- The responses to some frames, up to the first fault. -/
def Session.respond : Session → List Frame → List Response
  | _, [] => []
  | s, frame :: rest =>
    match s.receive frame with
    | (.error _, _) => []
    | (.ok response, s) => response.toList ++ s.respond rest

/-- A response has the form in which a request is answered. -/
def Ticket.Expects (t : Ticket) (response : Response) : Prop :=
  response.kind = t.request.kind

namespace Connection

/-- The responses to the bytes of one read, whether anybody waits for them or not. -/
def respond (c : Connection) (data : Bytes) : List Response :=
  match (c.framer.push data).1 with
  | .error _ => []
  | .ok frames => c.session.respond frames

/-- The callers who wait are those of the requests that wait. -/
structure Matched (c : Connection) : Prop where
  /-- Each caller stands where its request does. -/
  callers_eq : c.callers = c.session.queue.map (·.id)
  /-- The reply in progress belongs to the first request. -/
  attributed : ∃ heard, c.session.Attributed heard
  /-- No feed is active but that of the stream in progress. -/
  oneFeed : c.session.OneFeed

/-- What a frame does to a connection. -/
inductive Takes (c : Connection) (frame : Frame) : Prop where
  /-- There is no response yet. -/
  | silent {c' : Connection} : c.session.receive frame = (.ok none, c'.session) →
      c.take frame = (.ok none, c') → c'.session.queue = c.session.queue → c'.Matched →
      Takes c frame
  /-- The frame is out of turn, but nobody is out of step. -/
  | fault {cause : OutOfTurn} {c' : Connection} :
      c.session.receive frame = (.error cause, c'.session) → c.take frame = (.error cause, c') →
      cause ≠ .nobodyWaits → c'.session.queue = c.session.queue → c'.Matched → Takes c frame
  /-- The first caller gets the response to its request. -/
  | answer {t : Ticket} {response : Response} {c' : Connection} :
      c.session.receive frame = (.ok (some response), c'.session) →
      c.take frame = (.ok (some ⟨t.id, response⟩), c') →
      c.session.queue = t :: c'.session.queue → t.Expects response → c'.Matched →
      Takes c frame

variable {c : Connection}

theorem Matched.start (host : String) (settings : Settings) :
    (Connection.start host settings).Matched where
  callers_eq := rfl
  attributed := ⟨none, .of_not (.inl rfl)⟩
  oneFeed := .new host settings

theorem Matched.submit (h : c.Matched) (t : Ticket) : (c.submit t).2.Matched := by
  obtain ⟨hcallers, ⟨heard, hattributed⟩, hfeed⟩ := h
  refine ⟨?_, ⟨heard, hattributed.submit t⟩, hfeed⟩
  show c.callers ++ [t.id] = (c.session.queue ++ [t]).map (·.id)
  rw [hcallers, List.map_append, List.map_singleton]

/-- Only the queue of the session has to be the same. -/
theorem Matched.of_session {s : Session} (h : c.Matched) (hqueue : s.queue = c.session.queue)
    (hattributed : ∃ heard, s.Attributed heard) (hfeed : s.OneFeed) :
    Matched { c with session := s } := by
  refine ⟨?_, hattributed, hfeed⟩
  rw [hqueue]
  exact h.callers_eq

/-- Frames are taken by the session alone. -/
@[simp] theorem framer_take (c : Connection) (frame : Frame) :
    (c.take frame).2.framer = c.framer := by
  unfold take
  generalize c.session.receive frame = received
  obtain ⟨cause | _ | response, session⟩ := received
  · rfl
  · rfl
  · rcases hcallers : c.callers with _ | ⟨caller, rest⟩
    · rfl
    · rfl

theorem framer_takeAll (c : Connection) (frames : List Frame) :
    (c.takeAll frames).2.2.framer = c.framer := by
  induction frames generalizing c with
  | nil => rfl
  | cons frame rest ih =>
    have hframer := c.framer_take frame
    rcases htake : c.take frame with ⟨cause | delivery, c'⟩
    · rw [htake] at hframer
      simp only [takeAll, htake]
      exact hframer
    · rw [htake] at hframer
      simp only [takeAll, htake]
      exact (ih c').trans hframer

/-- A frame without a fault leads to the others. -/
theorem takeAll_cons_of_ok {c' : Connection} {frame : Frame} {delivery : Option Delivery}
    (h : c.take frame = (.ok delivery, c')) (rest : List Frame) :
    (c.takeAll (frame :: rest)).2 = (c'.takeAll rest).2 := by
  simp only [takeAll, h]

/-- A frame keeps the queues in step. -/
theorem Matched.take (h : c.Matched) (frame : Frame) : c.Takes frame := by
  obtain ⟨heard, hattributed⟩ := h.attributed
  obtain ⟨htakes, hnext⟩ := Session.receive_spec hattributed frame
  have hfeed' := h.oneFeed.receive frame
  generalize hreceive : c.session.receive frame = received at htakes hnext hfeed'
  cases htakes with
  | @silent s' hqueue =>
    have htake : c.take frame = (.ok none, { c with session := s' }) := by
      simp only [Connection.take, hreceive]
    exact .silent hreceive htake hqueue (h.of_session hqueue ⟨_, hnext⟩ hfeed')
  | @fault cause s' hcause hqueue =>
    have htake : c.take frame = (.error cause, { c with session := s' }) := by
      simp only [Connection.take, hreceive]
    refine .fault hreceive htake ?_ hqueue (h.of_session hqueue ⟨_, hnext⟩ hfeed')
    rintro rfl
    cases hcause
  | @answer t rest response s' hcons hqueue hanswers =>
    have hcallers := h.callers_eq
    rw [hcons, List.map_cons] at hcallers
    have htake : c.take frame = (.ok (some ⟨t.id, response⟩),
        { c with session := s', callers := rest.map (·.id) }) := by
      simp only [Connection.take, hreceive, hcallers]
    have hmatched : Matched { c with session := s', callers := rest.map (·.id) } := by
      refine ⟨?_, ⟨_, hnext⟩, hfeed'⟩
      rw [hqueue]
    refine .answer hreceive htake ?_ hanswers.kind_eq hmatched
    rw [hcons, ← hqueue]

/-- Some frames answer the requests that have waited longest, in order and with the responses of the
session, and keep the queues in step. -/
theorem Matched.takeAll (h : c.Matched) (frames : List Frame) :
    ∃ done, c.session.queue = done ++ (c.takeAll frames).2.2.session.queue ∧
      (c.takeAll frames).1 = (done.zip (c.session.respond frames)).map (fun p => ⟨p.1.id, p.2⟩) ∧
      List.Forall₂ Ticket.Expects done (c.session.respond frames) ∧
      (c.takeAll frames).2.1 ≠ some .nobodyWaits ∧ (c.takeAll frames).2.2.Matched := by
  induction frames generalizing c with
  | nil => exact ⟨[], rfl, rfl, .nil, by simp [Connection.takeAll], h⟩
  | cons frame rest ih =>
    cases h.take frame with
    | @silent c' hreceive htake hqueue hmatched =>
      obtain ⟨done, hdone, hdeliveries, hkinds, hfault, hend⟩ := ih hmatched
      refine ⟨done, ?_, ?_, ?_, ?_, ?_⟩
      all_goals simp only [Connection.takeAll, htake, Session.respond, hreceive]
      · rw [← hqueue]
        exact hdone
      · exact hdeliveries
      · exact hkinds
      · exact hfault
      · exact hend
    | @fault cause c' hreceive htake hcause hqueue hmatched =>
      refine ⟨[], ?_, ?_, ?_, ?_, ?_⟩
      all_goals simp only [Connection.takeAll, htake, Session.respond, hreceive]
      · exact hqueue.symm
      · rfl
      · exact .nil
      · simpa using hcause
      · exact hmatched
    | @answer t response c' hreceive htake hcons hkind hmatched =>
      obtain ⟨done, hdone, hdeliveries, hkinds, hfault, hend⟩ := ih hmatched
      refine ⟨t :: done, ?_, ?_, ?_, ?_, ?_⟩
      all_goals simp only [Connection.takeAll, htake, Session.respond, hreceive]
      · rw [hcons, List.cons_append, ← hdone]
      · rw [hdeliveries]
        rfl
      · exact .cons hkind hkinds
      · exact hfault
      · exact hend

/-- Bytes that become no frames change nothing but the framer. -/
theorem Matched.of_framer (h : c.Matched) (framer : Reply.Framer) :
    Matched { c with framer := framer } :=
  ⟨h.callers_eq, h.attributed, h.oneFeed⟩

/-- No read brings a response without a caller. -/
theorem Matched.receive_ne (h : c.Matched) (data : Bytes) :
    (c.receive data).2.1 ≠ some (.outOfTurn .nobodyWaits) := by
  unfold Connection.receive
  generalize c.framer.push data = pushed
  obtain ⟨cause | frames, framer⟩ := pushed
  · simp
  · obtain ⟨_, _, _, _, hfault, _⟩ := (h.of_framer framer).takeAll frames
    simp only [ne_eq, Option.map_eq_some_iff, Fault.outOfTurn.injEq, exists_eq_right]
    exact hfault

end Connection

end ClusterLink
