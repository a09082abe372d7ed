import ClusterLink.Proofs.Link.Lockstep
import ClusterLink.Proofs.Reply.Steps
import ClusterLink.Proofs.Session.Publishing

/-!
# Frames in turn at a connection

A session answers any frames, also those that make no sense: a piece of a body in front
of every head, an end that ends nothing, the head of a reply in the middle of another.
At a connection its frames come from a framer, and a framer hands them on in turn.
Here it is shown that nothing else reaches the session then, whatever the bytes and
wherever requests come between them: it finds fault only with a reply that no request
waits for and with a body that is too long, and every stream ends with its own reply
(`run_inTurn`).

## The argument

The invariant joins the two machines (`InStep`): where the framer stands between two
replies, the session has no stream open, and where the framer stands within a reply,
the session is gathering one, which is that of the stream if there is one. A frame in
turn takes a session from one of these to the other (`Abreast.receive`), and a read
hands it such frames one after another (`Abreast.takeAll`).
-/

namespace ClusterLink

open Reply (Frame Framer Header InTurn)

/-- A fault that says that nobody has asked for a reply, or that its body is too long. -/
def OutOfTurn.IsOfReply (cause : OutOfTurn) : Prop :=
  (∃ code reason, cause = .unsolicited code reason) ∨ ∃ length limit, cause = .longBody length limit

namespace Session

/-- A session keeps step with the frames it gets: between two replies no stream is open, and within
a reply one is gathered, that of the stream if there is one. -/
def Abreast (s : Session) : Bool → Prop
  | false => s.stream = none
  | true => s.assembly.isOpen = true ∧ ∀ stream ∈ s.stream, stream.ownsReply = true

/-- What a frame finds when it is taken, and what it does to the stream in progress. -/
structure TakesInTurn (s : Session) (frame : Frame) : Prop where
  /-- No stream is open where a reply begins. -/
  stream_of_header : frame.isHeader = true → s.stream = none
  /-- A stream owns the reply in progress. -/
  owns : ∀ stream ∈ s.stream, stream.ownsReply = true
  /-- A piece of the body leaves the stream open, with the same feed. -/
  feed_of_content : ∀ bytes, frame = .content bytes →
    (s.receive frame).2.stream.map (·.feed) = s.stream.map (·.feed)
  /-- The end of the reply ends the stream. -/
  close_of_last : frame.isLast = true → s.stream.isSome = true →
    s.receive frame = (.ok none, s.close)
  /-- Nothing is wrong but that nobody has asked for the reply, or that its body is too long. -/
  fault : ∀ cause, (s.receive frame).1 = .error cause →
    (∃ h, frame = .header h ∧ s.queue = [] ∧ cause = .unsolicited h.code h.reason) ∨
      ∃ bytes length limit, frame = .content bytes ∧ cause = .longBody length limit

variable {s : Session} {begun next : Bool} {heard : Option Header}

theorem TakesInTurn.isOfReply {frame : Frame} {cause : OutOfTurn} (h : s.TakesInTurn frame)
    (hcause : (s.receive frame).1 = .error cause) : cause.IsOfReply := by
  rcases h.fault cause hcause with ⟨head, -, -, rfl⟩ | ⟨-, length, limit, -, rfl⟩
  · exact .inl ⟨head.code, head.reason, rfl⟩
  · exact .inr ⟨length, limit, rfl⟩

/-- Every stream owns the reply in progress, wherever the session stands. -/
theorem Abreast.owns (h : s.Abreast begun) : ∀ stream ∈ s.stream, stream.ownsReply = true := by
  cases begun with
  | false =>
    intro stream hstream
    rw [show s.stream = none from h] at hstream
    cases hstream
  | true => exact h.2

/-- A request changes neither the stream nor the reply in progress. -/
theorem Abreast.submit (h : s.Abreast begun) (t : Ticket) : (s.submit t).2.Abreast begun := by
  cases begun with
  | false => exact h
  | true => exact h

/-- The frame is taken in turn, and the session keeps step: with what comes next if there is no
fault, and with what came before if there is one. -/
def KeepsStep (s : Session) (frame : Frame) (begun next : Bool) : Prop :=
  s.TakesInTurn frame ∧
    ((∃ response, (s.receive frame).1 = .ok response) ∧ (s.receive frame).2.Abreast next ∨
      (∃ cause, (s.receive frame).1 = .error cause) ∧ (s.receive frame).2.Abreast begun)

/-- A reply begins where no stream is open. -/
theorem Abreast.start (h : s.Abreast false) (head : Header) :
    s.KeepsStep (.header head) false true := by
  have hnone : s.stream = none := h
  have htakes (hfault : ∀ cause, (s.start head).1 = .error cause →
      s.queue = [] ∧ cause = .unsolicited head.code head.reason) :
      s.TakesInTurn (.header head) := by
    refine ⟨fun _ => hnone, h.owns, ?_, ?_, ?_⟩
    · rintro bytes ⟨⟩
    · rintro ⟨⟩
    · intro cause hcause
      obtain ⟨hqueue, hcause⟩ := hfault cause hcause
      exact .inl ⟨head, rfl, hqueue, hcause⟩
  cases hqueue : s.queue with
  | nil =>
    have hstart := start_of_queue_eq_nil hqueue head
    refine ⟨htakes ?_, .inr ⟨⟨_, congrArg Prod.fst hstart⟩, ?_⟩⟩
    · intro cause hcause
      rw [hstart] at hcause
      cases hcause
      exact ⟨hqueue, rfl⟩
    · show (s.start head).2.Abreast false
      rw [hstart]
      exact h
  | cons t rest =>
    by_cases hkind : t.request.kind.isStreaming = true
    · have hway : s.makeWay head = { s with assembly := .start head } := by
        rw [makeWay, hnone]
        rfl
      obtain ⟨response, s', hopen, -, howns, -⟩ := openStream_spec head
        ((s.queue_makeWay head).trans hqueue) (Request.Kind.eq_bucketStreaming hkind)
      have hstart := start_of_streaming hqueue hkind head
      rw [hopen] at hstart
      refine ⟨htakes ?_, .inl ⟨⟨_, congrArg Prod.fst hstart⟩, ?_⟩⟩
      · intro cause hcause
        rw [hstart] at hcause
        cases hcause
      · show (s.start head).2.Abreast true
        rw [hstart]
        constructor
        · have hassembly := assembly_openStream (s.makeWay head) head.code
          rw [hopen, hway] at hassembly
          exact congrArg Assembly.isOpen hassembly
        · intro stream hstream
          rw [streamOwns, Option.mem_def.1 hstream] at howns
          exact howns
    · have hstart := start_of_ordinary hqueue (Bool.eq_false_iff.2 hkind) head
      have hyield : ({ s with assembly := .start head } : Session).yieldReply =
          { s with assembly := .start head } := by
        simp only [yieldReply, hnone]
      rw [hyield] at hstart
      refine ⟨htakes ?_, .inl ⟨⟨_, congrArg Prod.fst hstart⟩, ?_⟩⟩
      · intro cause hcause
        rw [hstart] at hcause
        cases hcause
      · show (s.start head).2.Abreast true
        rw [hstart]
        exact ⟨rfl, h.owns⟩

/-- What is passed on leaves the stream open, with the same feed and the same owner of the reply. -/
theorem stream_passOn (s : Session) : s.passOn.stream.map (fun o => (o.feed, o.ownsReply)) =
    s.stream.map (fun o => (o.feed, o.ownsReply)) := by
  obtain h | ⟨stream, ticket, outstanding, assembly, hub, hstream, -, -, h⟩ := s.passOn_cases
  · rw [h]
  · rw [h, hstream]
    rfl

/-- A reply goes on. -/
theorem Abreast.gather (h : s.Abreast true) (bytes : Bytes) :
    s.KeepsStep (.content bytes) true true := by
  obtain ⟨hopen, howns⟩ := h
  obtain ⟨assembly, hgather⟩ :=
    Option.isSome_iff_exists.1 ((s.assembly.isSome_gather? bytes).trans hopen)
  have hstream := stream_passOn { s with assembly := assembly }
  have hnext : (s.gather bytes).2 = ({ s with assembly := assembly } : Session).passOn := by
    simp only [Session.gather, hgather]
  have hkept : (s.gather bytes).2.Abreast true := by
    rw [hnext]
    constructor
    · rw [Assembly.isOpen, header?_passOn]
      exact (congrArg Option.isSome (Assembly.header?_of_gather? hgather)).trans hopen
    · intro stream hmem
      rw [Option.mem_def.1 hmem] at hstream
      obtain ⟨old, hold, heq⟩ := Option.map_eq_some_iff.1 hstream.symm
      exact (congrArg Prod.snd heq).symm.trans (howns old hold)
  have hfault : ∀ cause, (s.gather bytes).1 = .error cause →
      ∃ length limit, cause = .longBody length limit := by
    intro cause hcause
    simp only [Session.gather, hgather] at hcause
    split at hcause
    · cases hcause
      exact ⟨_, _, rfl⟩
    · cases hcause
  constructor
  · refine ⟨?_, howns, ?_, ?_, ?_⟩
    · rintro ⟨⟩
    · rintro bytes' ⟨⟩
      show (s.gather bytes).2.stream.map (·.feed) = _
      rw [hnext]
      simpa [Option.map_map, Function.comp_def] using congrArg (Option.map Prod.fst) hstream
    · rintro ⟨⟩
    · intro cause hcause
      refine .inr ⟨bytes, ?_⟩
      cases hresult : (s.gather bytes).1 with
      | ok done => simp [receive, hresult, Except.map] at hcause
      | error other =>
        obtain ⟨length, limit, rfl⟩ := hfault other hresult
        simp only [receive, hresult, Except.map, Except.error.injEq] at hcause
        exact ⟨length, limit, rfl, hcause.symm⟩
  · cases hresult : (s.gather bytes).1 with
    | ok done => exact .inl ⟨⟨none, by simp only [receive, hresult, Except.map]⟩, hkept⟩
    | error cause => exact .inr ⟨⟨cause, by simp only [receive, hresult, Except.map]⟩, hkept⟩

/-- A reply ends, and its stream with it. -/
theorem Abreast.finish (h : s.Abreast true) (hs : s.Attributed heard) :
    s.KeepsStep (.last []) true false := by
  obtain ⟨hopen, howns⟩ := h
  have htakes {response : Option Response} (hresult : s.finish.1 = .ok response)
      (hclose : s.stream.isSome = true → s.finish = (.ok none, s.close)) :
      s.TakesInTurn (.last []) := by
    refine ⟨?_, howns, ?_, ?_, ?_⟩
    · rintro ⟨⟩
    · rintro bytes ⟨⟩
    · exact fun _ => hclose
    · intro cause hcause
      rw [show (s.receive (.last [])).1 = .ok response from hresult] at hcause
      cases hcause
  rcases hstream : s.stream with _ | stream
  · have hnot : s.streamOwns = false := by rw [streamOwns, hstream]; rfl
    obtain ⟨header, hheader⟩ := Option.isSome_iff_exists.1 hopen
    obtain ⟨-, t, rest, hqueue, hkind⟩ := hs header hheader hnot
    obtain ⟨reply, hdone⟩ : ∃ reply, s.assembly.finish? = some (reply, .idle) := by
      cases hassembly : s.assembly with
      | gathering header body => exact ⟨_, rfl⟩
      | fresh =>
        rw [hassembly] at hopen
        cases hopen
      | idle =>
        rw [hassembly] at hopen
        cases hopen
    obtain ⟨response, hresponse⟩ := Response.isSome_ofReply? hkind reply
    have hfinish := finish_of_not_owns hnot
    simp only [hdone, hqueue, hresponse] at hfinish
    refine ⟨htakes (congrArg Prod.fst hfinish) ?_, .inl ⟨⟨_, congrArg Prod.fst hfinish⟩, ?_⟩⟩
    · rw [hstream]
      rintro ⟨⟩
    · show s.finish.2.stream = none
      rw [hfinish]
      exact hstream
  · have hfinish : s.finish = (.ok none, s.close) := by
      refine finish_of_owns ?_
      rw [streamOwns, hstream]
      exact howns stream hstream
    refine ⟨htakes (congrArg Prod.fst hfinish) fun _ => hfinish,
      .inl ⟨⟨_, congrArg Prod.fst hfinish⟩, ?_⟩⟩
    show s.finish.2.stream = none
    rw [hfinish]
    rfl

/-- A frame in turn keeps a session in step. -/
theorem Abreast.receive (h : s.Abreast begun) (hs : s.Attributed heard) {frame : Frame}
    (hturns : frame.Turns begun next) : s.KeepsStep frame begun next := by
  cases hturns with
  | header => exact h.start _
  | content => exact h.gather _
  | last => exact h.finish hs

end Session

/-! ## One read -/

/-- Frames in front of frames in turn are in turn. -/
theorem Reply.InTurn.of_front {begun done : Bool} {frames more : List Frame}
    (h : InTurn begun more done) (hfront : frames <+: more) : ∃ next, InTurn begun frames next := by
  induction h generalizing frames with
  | nil =>
    obtain rfl := List.prefix_nil.1 hfront
    exact ⟨_, .nil⟩
  | @cons begun next done frame rest hturns hrest ih =>
    rcases frames with _ | ⟨first, others⟩
    · exact ⟨_, .nil⟩
    · obtain ⟨rfl, hothers⟩ := List.cons_prefix_cons.1 hfront
      obtain ⟨reached, hreached⟩ := ih hothers
      exact ⟨reached, .cons hturns hreached⟩

/-- Frames in turn may follow each other. -/
theorem Reply.InTurn.append {begun next done : Bool} {frames more : List Frame}
    (h : InTurn begun frames next) (hmore : InTurn next more done) :
    InTurn begun (frames ++ more) done := by
  induction h with
  | nil => exact hmore
  | cons hturns _ ih => exact .cons hturns (ih hmore)

namespace Connection

/-- The frames that are taken up to the first fault, each with the session that takes it. -/
def path (c : Connection) : List Frame → List (Session × Frame)
  | [] => []
  | frame :: rest =>
    (c.session, frame) :: match c.take frame with
      | (.error _, _) => []
      | (.ok _, c) => c.path rest

/-- What some frames do to a connection. -/
structure TakesAll (c : Connection) (frames : List Frame) (begun done : Bool) : Prop where
  /-- Every frame is taken in turn. -/
  path_inTurn : ∀ p ∈ c.path frames, p.1.TakesInTurn p.2
  /-- The frames that are taken are the first ones. -/
  path_front : (c.path frames).map Prod.snd <+: frames
  /-- All are taken unless there is a fault, and the session has then kept step with them. -/
  path_eq : (c.takeAll frames).2.1 = none → (c.path frames).map Prod.snd = frames ∧
    (c.takeAll frames).2.2.session.Abreast done
  /-- A fault is about the reply. -/
  fault : ∀ cause, (c.takeAll frames).2.1 = some cause → cause.IsOfReply
  /-- Every stream owns its reply. -/
  owns : ∀ stream ∈ (c.takeAll frames).2.2.session.stream, stream.ownsReply = true
  /-- The queues stay in step. -/
  matched : (c.takeAll frames).2.2.Matched

variable {c : Connection} {begun done : Bool} {frames : List Frame}

/-- Frames in turn keep a session in step, up to the first fault. -/
theorem Matched.takesAll (h : c.Matched) (hs : c.session.Abreast begun)
    (hframes : InTurn begun frames done) : c.TakesAll frames begun done := by
  induction hframes generalizing c with
  | nil =>
    refine ⟨?_, List.prefix_rfl, fun _ => ⟨rfl, hs⟩, ?_, hs.owns, h⟩
    · rintro p ⟨⟩
    · rintro cause ⟨⟩
  | @cons begun next done frame rest hturns _ ih =>
    obtain ⟨heard, hattributed⟩ := h.attributed
    obtain ⟨hinTurn, hkept⟩ := hs.receive hattributed hturns
    -- a frame that the session takes without fault, whether it is answered or not
    have hok {delivery : Option Delivery} {c' : Connection} {response : Option Response}
        (hreceive : c.session.receive frame = (.ok response, c'.session))
        (htake : c.take frame = (.ok delivery, c')) (hmatched : c'.Matched) :
        c.TakesAll (frame :: rest) begun done := by
      have hs' : c'.session.Abreast next := by
        rw [hreceive] at hkept
        rcases hkept with ⟨-, hs'⟩ | ⟨⟨cause, hcause⟩, -⟩
        · exact hs'
        · cases hcause
      have hpath : c.path (frame :: rest) = (c.session, frame) :: c'.path rest := by
        simp only [path, htake]
      have hall := takeAll_cons_of_ok htake rest
      obtain ⟨hpaths, hfront, heq, hfault, howns, hend⟩ := ih hmatched hs'
      refine ⟨?_, ?_, ?_, ?_, ?_, ?_⟩
      all_goals simp only [hpath, hall]
      · exact List.forall_mem_cons.2 ⟨hinTurn, hpaths⟩
      · exact List.cons_prefix_cons.2 ⟨rfl, hfront⟩
      · intro hnone
        obtain ⟨hfirst, hlast⟩ := heq hnone
        exact ⟨congrArg (frame :: ·) hfirst, hlast⟩
      · exact hfault
      · exact howns
      · exact hend
    cases h.take frame with
    | silent hreceive htake _ hmatched => exact hok hreceive htake hmatched
    | answer hreceive htake _ _ hmatched => exact hok hreceive htake hmatched
    | @fault cause c' hreceive htake _ _ hmatched =>
      have hs' : c'.session.Abreast begun := by
        rw [hreceive] at hkept
        rcases hkept with ⟨⟨response, hresponse⟩, -⟩ | ⟨-, hs'⟩
        · cases hresponse
        · exact hs'
      have hpath : c.path (frame :: rest) = [(c.session, frame)] := by
        simp only [path, htake]
      have hall : (c.takeAll (frame :: rest)).2 = (some cause, c') := by
        simp only [Connection.takeAll, htake]
      refine ⟨?_, ?_, ?_, ?_, ?_, ?_⟩
      all_goals simp only [hpath, hall]
      · exact List.forall_mem_singleton.2 hinTurn
      · exact List.cons_prefix_cons.2 ⟨rfl, List.nil_prefix⟩
      · rintro ⟨⟩
      · rintro other ⟨⟩
        exact hinTurn.isOfReply (congrArg Prod.fst hreceive)
      · exact hs'.owns
      · exact hmatched

/-! ## All events -/

/-- One thing that happens to a connection. -/
inductive Event where
  /-- A request is submitted. -/
  | submit (t : Ticket)
  /-- Some bytes are read. -/
  | receive (data : Bytes)
  deriving DecidableEq, Repr

/-- A connection and what it has been through. A fault ends it. -/
structure History where
  /-- The connection. -/
  connection : Connection
  /-- The frames taken, each with the session that took it. -/
  taken : List (Session × Frame) := []
  /-- The fault that has ended it. -/
  fault : Option Fault := none
  deriving DecidableEq, Repr

namespace History

/-- The history of a new connection. -/
def start (host : String) (settings : Settings) : History where
  connection := .start host settings

/-- The frames that a read hands to the session. -/
def hands (c : Connection) (data : Bytes) : List (Session × Frame) :=
  match c.framer.push data with
  | (.error _, _) => []
  | (.ok frames, framer) => ({ c with framer := framer } : Connection).path frames

/-- The history after one more event; nothing happens behind a fault. -/
def act (r : History) (event : Event) : History :=
  if r.fault.isSome then r
  else match event with
    | .submit t => { r with connection := (r.connection.submit t).2 }
    | .receive data =>
      { connection := (r.connection.receive data).2.2
        taken := r.taken ++ hands r.connection data
        fault := (r.connection.receive data).2.1 }

/-- The history after some events. -/
def run (r : History) (events : List Event) : History :=
  events.foldl act r

/-- The session has kept step with the framer. -/
structure InStep (r : History) : Prop where
  /-- Every frame was taken in turn. -/
  taken : ∀ p ∈ r.taken, p.1.TakesInTurn p.2
  /-- The frames were in turn. -/
  inTurn : ∃ next, InTurn false (r.taken.map Prod.snd) next
  /-- Without a fault the session stands where the framer does. -/
  ready : r.fault = none → r.connection.Matched ∧
    r.connection.session.Abreast r.connection.framer.phase.isBegun ∧
    InTurn false (r.taken.map Prod.snd) r.connection.framer.phase.isBegun
  /-- A fault is about the reply, or about the bytes. -/
  fault : ∀ cause, r.fault = some (.outOfTurn cause) → cause.IsOfReply
  /-- Every stream owns its reply. -/
  owns : ∀ stream ∈ r.connection.session.stream, stream.ownsReply = true

variable {r : History}

theorem InStep.start (host : String) (settings : Settings) :
    (History.start host settings).InStep where
  taken := by rintro p ⟨⟩
  inTurn := ⟨false, .nil⟩
  ready := fun _ => ⟨.start host settings, rfl, .nil⟩
  fault := by rintro cause ⟨⟩
  owns := by rintro stream ⟨⟩

/-- A read keeps the session in step with the framer, up to a fault. -/
theorem InStep.receive (h : r.InStep) (hnone : r.fault = none) (data : Bytes) :
    InStep { connection := (r.connection.receive data).2.2
             taken := r.taken ++ hands r.connection data
             fault := (r.connection.receive data).2.1 } := by
  obtain ⟨hmatched, hs, hframes⟩ := h.ready hnone
  rcases hpush : r.connection.framer.push data with ⟨cause | frames, framer⟩
  · have hreceive : r.connection.receive data =
        ([], some (.malformed cause), { r.connection with framer := framer }) := by
      simp only [Connection.receive, hpush]
    have hhands : hands r.connection data = [] := by simp only [hands, hpush]
    rw [hreceive, hhands, List.append_nil]
    refine ⟨h.taken, h.inTurn, ?_, ?_, h.owns⟩
    · rintro ⟨⟩
    · rintro other ⟨⟩
  · obtain ⟨c, hc⟩ : ∃ c : Connection, c = { r.connection with framer := framer } := ⟨_, rfl⟩
    have hreceive : r.connection.receive data =
        ((c.takeAll frames).1, (c.takeAll frames).2.1.map .outOfTurn, (c.takeAll frames).2.2) := by
      simp only [Connection.receive, hpush, hc]
    have hhands : hands r.connection data = c.path frames := by simp only [hands, hpush, hc]
    have hturns : InTurn r.connection.framer.phase.isBegun frames framer.phase.isBegun := by
      rw [Framer.push_eq_drain] at hpush
      have hdrained := Framer.inTurn_of_drain hpush
      exact hdrained
    have hall : c.TakesAll frames r.connection.framer.phase.isBegun framer.phase.isBegun := by
      subst hc
      exact (hmatched.of_framer framer).takesAll hs hturns
    rw [hreceive, hhands]
    refine ⟨?_, ?_, ?_, ?_, hall.owns⟩
    · exact List.forall_mem_append.2 ⟨h.taken, hall.path_inTurn⟩
    · obtain ⟨next, hnext⟩ := hturns.of_front hall.path_front
      rw [List.map_append]
      exact ⟨next, hframes.append hnext⟩
    · intro hfault
      have hframer : (c.takeAll frames).2.2.framer = framer := by
        rw [framer_takeAll, hc]
      obtain ⟨hpath, hlast⟩ := hall.path_eq (Option.map_eq_none_iff.1 hfault)
      rw [List.map_append, hpath, hframer]
      exact ⟨hall.matched, hlast, hframes.append hturns⟩
    · intro cause hcause
      obtain ⟨cause', hcause', heq⟩ := Option.map_eq_some_iff.1 hcause
      cases heq
      exact hall.fault _ hcause'

theorem InStep.act (h : r.InStep) (event : Event) : (r.act event).InStep := by
  rcases hfault : r.fault with _ | fault
  · have hlive : ¬ r.fault.isSome = true := by simp [hfault]
    cases event with
    | submit t =>
      rw [History.act, if_neg hlive]
      refine ⟨h.taken, h.inTurn, ?_, h.fault, h.owns⟩
      intro hnone
      obtain ⟨hmatched, hs, hframes⟩ := h.ready hnone
      exact ⟨hmatched.submit t, hs.submit t, hframes⟩
    | receive data =>
      rw [History.act, if_neg hlive]
      exact h.receive hfault data
  · have hover : r.act event = r := if_pos (by simp [hfault])
    rw [hover]
    exact h

theorem InStep.run (h : r.InStep) (events : List Event) : (r.run events).InStep := by
  induction events generalizing r with
  | nil => exact h
  | cons event events ih => exact ih (h.act event)

/-- Whatever bytes come, however they are cut into reads, and wherever requests come between them:
a session takes the frames in turn, heads only where no stream is open, each stream owns the reply
that it began with and ends with it, and the only faults besides malformed bytes are a reply that no
request waits for and a body that is too long. -/
theorem run_inTurn (host : String) (settings : Settings) (events : List Event) :
    (∀ p ∈ ((start host settings).run events).taken, p.1.TakesInTurn p.2) ∧
    (∃ next, InTurn false (((start host settings).run events).taken.map Prod.snd) next) ∧
    (∀ cause, ((start host settings).run events).fault = some (.outOfTurn cause) →
      (∃ code reason, cause = .unsolicited code reason) ∨
        ∃ length limit, cause = .longBody length limit) ∧
    ∀ stream ∈ ((start host settings).run events).connection.session.stream,
      stream.ownsReply = true := by
  have h := (InStep.start host settings).run events
  exact ⟨h.taken, h.inTurn, h.fault, h.owns⟩

end History

end Connection

end ClusterLink
