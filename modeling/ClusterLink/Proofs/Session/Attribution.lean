import ClusterLink.Proofs.Session.History
import Mathlib.Data.List.Forall2

/-!
# Which request a response answers

A session takes a request out of its queue at two places, when a stream begins
and when an ordinary reply ends, and the end of a stream takes out none. Here it
is shown that no order of events brings requests and responses out of step: the
responses answer the requests submitted first, in order, and the others stand in
the queue (`run_attributed`).

## The argument

The invariant is `Attributed`: a reply in progress that no stream owns is the
reply to the first request in the queue, which is an ordinary one, and its head
is the one that came last. Every frame keeps it, in turn or not, and of a session
that has it a frame either leaves the queue alone or answers its first request
(`Takes`).
-/

namespace ClusterLink

open Reply (Frame Header)

namespace Response

/-- The request that a response carries. -/
def ticket? : Response → Option Ticket
  | designDocuments _ _ t => some t
  | bucketStreaming _ _ _ t => some t
  | _ => none

/-- A response answers a request, given the head that came last. -/
structure Answers (t : Ticket) (given : Response × Option Header) : Prop where
  /-- It has the form of the request. -/
  kind_eq : given.1.kind = t.request.kind
  /-- It carries the request or none. -/
  ticket_eq : ∀ t' ∈ given.1.ticket?, t' = t
  /-- It has the outcome that the head reports. -/
  status_eq : ∃ h, given.2 = some h ∧ given.1.status = Status.ofCode h.code

/-- A complete reply answers the request for which it is read. -/
theorem answers_of_ofReply? {t : Ticket} {reply : Reply} {response : Response}
    (h : ofReply? t reply = some response) : Answers t (response, some reply.header) := by
  refine ⟨kind_of_ofReply? h, ?_, reply.header, rfl, ?_⟩
  all_goals
    unfold ofReply? at h
    split at h
    all_goals cases h
  all_goals simp [ticket?, status]

/-- Every ordinary request is answered by a complete reply. -/
theorem isSome_ofReply? {t : Ticket} (h : t.request.kind.isStreaming = false) (reply : Reply) :
    ∃ response, ofReply? t reply = some response := by
  unfold ofReply?
  split
  · exact ⟨_, rfl⟩
  · exact ⟨_, rfl⟩
  · exact ⟨_, rfl⟩
  · rename_i hkind
    rw [hkind] at h
    cases h

end Response

/-- Whether a fault means that requests, replies and callers are out of step. -/
def OutOfTurn.isMismatch : OutOfTurn → Bool
  | streamUnsolicited => true
  | endUnsolicited => true
  | streamless _ => true
  | nobodyWaits => true
  | _ => false

/-- Only one kind of request is answered by a stream. -/
theorem Request.Kind.eq_bucketStreaming {kind : Kind} (h : kind.isStreaming = true) :
    kind = .bucketStreaming := by
  cases kind with
  | bucketStreaming => rfl
  | _ => cases h

namespace Outstanding

@[simp] theorem queue_ascribe (o : Outstanding) : o.ascribe.2.queue = o.queue := by
  unfold ascribe
  split
  · rfl
  · dsimp only
    split <;> rfl

end Outstanding

namespace Assembly

@[simp] theorem header?_withBody (a : Assembly) (bytes : Bytes) :
    (a.withBody bytes).header? = a.header? := by
  cases a <;> rfl

theorem header?_of_gather? {a a' : Assembly} {bytes : Bytes} (h : a.gather? bytes = some a') :
    a'.header? = a.header? := by
  cases a with
  | gathering header body =>
    cases h
    rfl
  | fresh => cases h
  | idle => cases h

@[simp] theorem header?_reset (a : Assembly) : a.reset.header? = none := by
  cases a <;> rfl

/-- A reply that ends was in progress under its head. -/
theorem header?_of_finish? {a a' : Assembly} {reply : Reply} (h : a.finish? = some (reply, a')) :
    a.header? = some reply.header ∧ a'.header? = none := by
  cases a with
  | gathering header body =>
    cases h
    exact ⟨rfl, rfl⟩
  | fresh => cases h
  | idle => cases h

end Assembly

namespace Session

/-- The requests that wait for a reply. -/
abbrev queue (s : Session) : List Ticket :=
  s.outstanding.queue

/-- Whether the next end of a reply is the end of the stream in progress. -/
def streamOwns (s : Session) : Bool :=
  s.stream.any (·.ownsReply)

/-! ### What each part leaves alone -/

@[simp] theorem queue_yieldReply (s : Session) : s.yieldReply.queue = s.queue := by
  unfold yieldReply
  split
  · rfl
  · split <;> rfl

@[simp] theorem assembly_yieldReply (s : Session) : s.yieldReply.assembly = s.assembly := by
  unfold yieldReply
  split
  · rfl
  · split <;> rfl

/-- What is passed on leaves the queue, the head of the reply in progress and its owner alone. -/
theorem passOn_cases (s : Session) : s.passOn = s ∨
    ∃ stream ticket outstanding assembly hub, s.stream = some stream ∧
      outstanding.queue = s.queue ∧ assembly.header? = s.assembly.header? ∧
      s.passOn = { s with
        outstanding := outstanding
        assembly := assembly
        stream := some { stream with ticket := ticket }
        hub := hub } := by
  unfold passOn
  split
  · exact .inl rfl
  · rename_i stream hstream
    right
    have hqueue : (if s.outstanding.carried.isSome then s.outstanding.ascribe
        else (none, s.outstanding)).2.queue = s.queue := by
      split
      · exact Outstanding.queue_ascribe _
      · rfl
    generalize (if s.outstanding.carried.isSome then s.outstanding.ascribe
      else (none, s.outstanding)) = ascribed at hqueue
    obtain ⟨ticket, outstanding⟩ := ascribed
    cases hfeed : stream.feed with
    | none =>
      exact ⟨stream, ticket.getD stream.ticket, outstanding, s.assembly, s.hub, hstream, hqueue,
        rfl, by rw [hfeed]⟩
    | some feed =>
      exact ⟨stream, ticket.getD stream.ticket, outstanding, _, _, hstream, hqueue,
        Assembly.header?_withBody _ _, by rw [hfeed]⟩

@[simp] theorem queue_passOn (s : Session) : s.passOn.queue = s.queue := by
  obtain h | ⟨_, _, _, _, _, -, hqueue, -, h⟩ := s.passOn_cases
  · rw [h]
  · rw [h]
    exact hqueue

@[simp] theorem header?_passOn (s : Session) :
    s.passOn.assembly.header? = s.assembly.header? := by
  obtain h | ⟨_, _, _, _, _, -, -, hheader, h⟩ := s.passOn_cases
  · rw [h]
  · rw [h]
    exact hheader

@[simp] theorem streamOwns_passOn (s : Session) : s.passOn.streamOwns = s.streamOwns := by
  obtain h | ⟨_, _, _, _, _, hstream, -, -, h⟩ := s.passOn_cases
  · rw [h]
  · rw [h, streamOwns, streamOwns, hstream]
    rfl

/-! ### What a head and an end lead to -/

/-- The session in which a stream is about to begin: an older one ends first. -/
def makeWay (s : Session) (h : Header) : Session :=
  if s.stream.isSome then { s with assembly := .start h }.endStream
  else { s with assembly := .start h }

section

variable {s : Session} {t : Ticket} {rest : List Ticket}

@[simp] theorem queue_makeWay (s : Session) (h : Header) : (s.makeWay h).queue = s.queue := by
  unfold makeWay
  split <;> rfl

theorem start_of_queue_eq_nil (hqueue : s.queue = []) (h : Header) :
    s.start h = (.error (.unsolicited h.code h.reason), s) := by
  simp only [start, Outstanding.current?, hqueue, List.head?_nil]

theorem start_of_ordinary (hqueue : s.queue = t :: rest)
    (hkind : t.request.kind.isStreaming = false) (h : Header) :
    s.start h = (.ok none, { s with assembly := .start h }.yieldReply) := by
  simp only [start, Outstanding.current?, hqueue, List.head?_cons, hkind, Bool.false_eq_true,
    if_false]

theorem start_of_streaming (hqueue : s.queue = t :: rest)
    (hkind : t.request.kind.isStreaming = true) (h : Header) :
    s.start h = (((s.makeWay h).openStream h.code).1.map some,
      ((s.makeWay h).openStream h.code).2) := by
  simp only [start, Outstanding.current?, hqueue, List.head?_cons, hkind, if_true]
  rfl

theorem finish_of_owns (howns : s.streamOwns = true) : s.finish = (.ok none, s.close) :=
  if_pos howns

/-- An end that no stream owns ends the reply in progress, if there is one. -/
theorem finish_of_not_owns (howns : s.streamOwns = false) :
    s.finish = match s.assembly.finish? with
      | none => (.error .strayEnd, s)
      | some (reply, assembly) =>
        match s.queue with
        | [] => (.error .endUnsolicited, { s with assembly := assembly })
        | t :: rest =>
          (match Response.ofReply? t reply with
            | some response => .ok (some response)
            | none => .error (.streamless t.request.path),
          { s with
            assembly := assembly
            outstanding := { s.outstanding with queue := rest } }) := by
  have hnot : ¬ s.stream.any (·.ownsReply) = true := by
    rw [← streamOwns, howns]
    exact Bool.false_ne_true
  rw [finish, if_neg hnot]
  cases s.assembly.finish? with
  | none => rfl
  | some done =>
    obtain ⟨reply, assembly⟩ := done
    cases hqueue : s.queue with
    | nil => simp only [Outstanding.complete?, hqueue]
    | cons t rest =>
      simp only [Outstanding.complete?, hqueue]
      cases Response.ofReply? t reply <;> rfl

end

/-! ### One frame -/

/-- A reply in progress that no stream owns is the reply to the first request in the queue, an
ordinary one, and its head came last. -/
def Attributed (s : Session) (heard : Option Header) : Prop :=
  ∀ h, s.assembly.header? = some h → s.streamOwns = false →
    heard = some h ∧ ∃ t rest, s.queue = t :: rest ∧ t.request.kind.isStreaming = false

/-- What a frame leads to: the queue stays as it is, or its first request is answered. -/
inductive Takes (s : Session) (heard : Option Header) :
    Except OutOfTurn (Option Response) × Session → Prop where
  /-- There is no response yet. -/
  | silent {s' : Session} : s'.queue = s.queue → Takes s heard (.ok none, s')
  /-- The frame is out of turn, but nothing is out of step. -/
  | fault {cause : OutOfTurn} {s' : Session} : cause.isMismatch = false → s'.queue = s.queue →
      Takes s heard (.error cause, s')
  /-- The first request is answered and leaves the queue. -/
  | answer {t : Ticket} {rest : List Ticket} {response : Response} {s' : Session} :
      s.queue = t :: rest → s'.queue = rest → Response.Answers t (response, heard) →
      Takes s heard (.ok (some response), s')

variable {s : Session} {heard : Option Header}

/-- Nothing is to be attributed while no reply is in progress, or a stream owns it. -/
theorem Attributed.of_not (h : s.assembly.header? = none ∨ s.streamOwns = true) :
    Attributed s heard := by
  intro header hheader howns
  rcases h with h | h
  · rw [h] at hheader
    cases hheader
  · rw [h] at howns
    cases howns

/-- More requests may come behind the first. -/
theorem Attributed.submit (h : Attributed s heard) (t : Ticket) :
    Attributed (s.submit t).2 heard := by
  intro header hheader howns
  obtain ⟨hheard, first, rest, hqueue, hkind⟩ := h header hheader howns
  refine ⟨hheard, first, rest ++ [t], ?_, hkind⟩
  show s.queue ++ [t] = _
  rw [hqueue, List.cons_append]

theorem Attributed.close : Attributed s.close heard :=
  .of_not (.inl (Assembly.header?_reset _))

/-- A stream begins: its request is answered at once. -/
theorem openStream_spec {t : Ticket} {rest : List Ticket} (h : Header)
    (hqueue : s.queue = t :: rest) (hkind : t.request.kind = .bucketStreaming) :
    ∃ response s', s.openStream h.code = (.ok response, s') ∧ s'.queue = rest ∧
      s'.streamOwns = true ∧ Response.Answers t (response, some h) := by
  have hcarry : s.outstanding.carry? = some (t, ⟨rest, some t⟩) := by
    simp only [Outstanding.carry?, hqueue]
  simp only [openStream, hcarry]
  refine ⟨_, _, rfl, ?_, rfl, ?_, ?_, h, rfl, rfl⟩
  · split <;> rfl
  · exact hkind.symm
  · simp [Response.ticket?]

/-- A reply begins. It is attributed to the first request, which is answered now if the reply is a
stream. -/
theorem start_spec (hs : Attributed s heard) (h : Header) :
    Takes s (some h) (s.start h) ∧ Attributed (s.start h).2 (some h) := by
  cases hqueue : s.queue with
  | nil =>
    rw [start_of_queue_eq_nil hqueue]
    refine ⟨.fault rfl rfl, ?_⟩
    intro header hheader howns
    obtain ⟨-, t, rest, hcons, -⟩ := hs header hheader howns
    rw [hqueue] at hcons
    cases hcons
  | cons t rest =>
    cases hkind : t.request.kind.isStreaming with
    | false =>
      rw [start_of_ordinary hqueue hkind]
      refine ⟨.silent (queue_yieldReply _), ?_⟩
      intro header hheader _
      rw [assembly_yieldReply] at hheader
      cases hheader
      exact ⟨rfl, t, rest, (queue_yieldReply _).trans hqueue, hkind⟩
    | true =>
      obtain ⟨response, s', hopen, hrest, howns, hanswers⟩ :=
        openStream_spec h ((s.queue_makeWay h).trans hqueue) (Request.Kind.eq_bucketStreaming hkind)
      rw [start_of_streaming hqueue hkind, hopen]
      exact ⟨.answer hqueue hrest hanswers, .of_not (.inr howns)⟩

/-- A piece of a body answers nothing. -/
theorem gather_spec (hs : Attributed s heard) (bytes : Bytes) :
    (s.gather bytes).2.queue = s.queue ∧ Attributed (s.gather bytes).2 heard ∧
      ∀ cause, (s.gather bytes).1 = .error cause → cause.isMismatch = false := by
  cases hgather : s.assembly.gather? bytes with
  | none =>
    simp only [gather, hgather]
    refine ⟨trivial, hs, ?_⟩
    rintro cause ⟨⟩
    rfl
  | some assembly =>
    simp only [gather, hgather]
    refine ⟨queue_passOn _, ?_, ?_⟩
    · intro header hheader howns
      rw [header?_passOn] at hheader
      rw [streamOwns_passOn] at howns
      rw [queue_passOn]
      exact hs header ((Assembly.header?_of_gather? hgather).symm.trans hheader) howns
    · intro cause hcause
      split at hcause
      · cases hcause
        rfl
      · cases hcause

/-- A reply ends. If it is no stream, the first request is answered. -/
theorem finish_spec (hs : Attributed s heard) :
    Takes s heard s.finish ∧ Attributed s.finish.2 heard := by
  cases howns : s.streamOwns with
  | true =>
    rw [finish_of_owns howns]
    exact ⟨.silent rfl, .close⟩
  | false =>
    rw [finish_of_not_owns howns]
    cases hdone : s.assembly.finish? with
    | none => exact ⟨.fault rfl rfl, hs⟩
    | some done =>
      obtain ⟨reply, assembly⟩ := done
      obtain ⟨hheader, hnone⟩ := Assembly.header?_of_finish? hdone
      obtain ⟨rfl, t, rest, hqueue, hkind⟩ := hs reply.header hheader howns
      obtain ⟨response, hresponse⟩ := Response.isSome_ofReply? hkind reply
      simp only [hqueue, hresponse]
      exact ⟨.answer hqueue rfl (Response.answers_of_ofReply? hresponse), .of_not (.inl hnone)⟩

/-- Only the queue counts. -/
theorem Takes.of_queue_eq {s₁ : Session} {result : Except OutOfTurn (Option Response) × Session}
    (hqueue : s₁.queue = s.queue) (h : Takes s₁ heard result) : Takes s heard result := by
  cases h with
  | silent hs' => exact .silent (hs'.trans hqueue)
  | fault hcause hs' => exact .fault hcause (hs'.trans hqueue)
  | answer hcons hs' hanswers => exact .answer (hqueue.symm.trans hcons) hs' hanswers

/-- A frame answers the first request or none, and keeps the invariant. -/
theorem receive_spec (hs : Attributed s heard) (frame : Frame) :
    Takes s (frame.heard heard) (s.receive frame) ∧
      Attributed (s.receive frame).2 (frame.heard heard) := by
  cases frame with
  | header h => exact start_spec hs h
  | content bytes =>
    obtain ⟨hqueue, hgathered, hcause⟩ := gather_spec hs bytes
    refine ⟨?_, hgathered⟩
    show Takes s heard ((s.gather bytes).1.map fun _ => none, (s.gather bytes).2)
    cases hresult : (s.gather bytes).1 with
    | ok _ => exact .silent hqueue
    | error cause => exact .fault (hcause cause hresult) hqueue
  | last bytes =>
    cases bytes with
    | nil => exact finish_spec hs
    | cons b bytes =>
      obtain ⟨hqueue, hgathered, hcause⟩ := gather_spec hs (b :: bytes)
      show Takes s heard (s.receive (.last (b :: bytes))) ∧
        Attributed (s.receive (.last (b :: bytes))).2 heard
      rw [receive]
      generalize s.gather (b :: bytes) = gathered at hqueue hgathered hcause
      obtain ⟨_ | _, s'⟩ := gathered
      · exact ⟨.fault (hcause _ rfl) hqueue, hgathered⟩
      · obtain ⟨htakes, hfinished⟩ := finish_spec hgathered
        exact ⟨htakes.of_queue_eq hqueue, hfinished⟩

/-! ### All events -/

namespace History

/-- The requests answered so far and those in the queue are those submitted, and the reply in
progress is attributed. -/
structure InStep (r : History) : Prop where
  /-- The responses answer the requests submitted first, and the others wait. -/
  answered : ∃ answered, r.submitted = answered ++ r.session.queue ∧
    List.Forall₂ Response.Answers answered r.responses
  /-- The reply in progress belongs to the first request that waits. -/
  attributed : r.session.Attributed r.heard
  /-- Nothing has been out of step. -/
  faults : ∀ cause ∈ r.faults, cause.isMismatch = false

variable {r : History}

theorem InStep.start (host : String) (settings : Settings) :
    (History.start host settings).InStep where
  answered := ⟨[], rfl, .nil⟩
  attributed := .of_not (.inl rfl)
  faults := by simp [History.start]

theorem InStep.submit (h : r.InStep) (t : Ticket) : (r.act (.submit t)).InStep := by
  obtain ⟨⟨answered, hsubmitted, hanswers⟩, hattributed, hfaults⟩ := h
  refine ⟨⟨answered, ?_, hanswers⟩, hattributed.submit t, hfaults⟩
  show r.submitted ++ [t] = answered ++ (r.session.queue ++ [t])
  rw [hsubmitted, List.append_assoc]

theorem InStep.receive (h : r.InStep) (frame : Frame) : (r.act (.receive frame)).InStep := by
  obtain ⟨⟨answered, hsubmitted, hanswers⟩, hattributed, hfaults⟩ := h
  obtain ⟨htakes, hnext⟩ := receive_spec hattributed frame
  show (r.note frame (r.session.receive frame)).InStep
  generalize r.session.receive frame = received at htakes hnext
  cases htakes with
  | silent hqueue =>
    refine ⟨⟨answered, ?_, hanswers⟩, hnext, hfaults⟩
    exact hsubmitted.trans (congrArg (answered ++ ·) hqueue.symm)
  | @fault cause s' hcause hqueue =>
    refine ⟨⟨answered, ?_, hanswers⟩, hnext, ?_⟩
    · exact hsubmitted.trans (congrArg (answered ++ ·) hqueue.symm)
    · intro other hother
      rcases List.mem_append.1 hother with hother | hother
      · exact hfaults other hother
      · rwa [List.mem_singleton.1 hother]
  | @answer t rest response s' hcons hqueue hresponse =>
    refine ⟨⟨answered ++ [t], ?_, ?_⟩, hnext, hfaults⟩
    · show r.submitted = answered ++ [t] ++ s'.queue
      rw [hsubmitted, hcons, hqueue, List.append_assoc, List.singleton_append]
    · exact List.rel_append hanswers (.cons hresponse .nil)

/-- Every event but draining keeps requests and responses in step. -/
theorem InStep.act (h : r.InStep) {event : Event} (hdrain : event ≠ .drain) :
    (r.act event).InStep := by
  cases event with
  | submit t => exact h.submit t
  | receive frame => exact h.receive frame
  | close => exact ⟨h.answered, .close, h.faults⟩
  | drain => exact absurd rfl hdrain
  | subscribe stream => exact ⟨h.answered, h.attributed, h.faults⟩
  | unsubscribe sub => exact ⟨h.answered, h.attributed, h.faults⟩
  | next sub => exact ⟨h.answered, h.attributed, h.faults⟩

theorem InStep.run (h : r.InStep) {events : List Event} (hdrain : .drain ∉ events) :
    (r.run events).InStep := by
  induction events generalizing r with
  | nil => exact h
  | cons event events ih =>
    rw [List.mem_cons, not_or] at hdrain
    exact ih (h.act (Ne.symm hdrain.1)) hdrain.2

/-- Whatever happens to a new session, if only it is not drained: the responses answer the requests
submitted first, in order, each with the outcome of the head that came last, and the others stand
in the queue. So no stream begins without a request, no reply ends without one, and no streaming
request is answered by the end of its reply. -/
theorem run_attributed (host : String) (settings : Settings) (events : List Event)
    (hdrain : .drain ∉ events) :
    (∃ answered, ((start host settings).run events).submitted =
        answered ++ ((start host settings).run events).session.outstanding.queue ∧
      List.Forall₂ Response.Answers answered ((start host settings).run events).responses) ∧
    .streamUnsolicited ∉ ((start host settings).run events).faults ∧
    .endUnsolicited ∉ ((start host settings).run events).faults ∧
    ∀ path, .streamless path ∉ ((start host settings).run events).faults := by
  have h := (InStep.start host settings).run hdrain
  refine ⟨h.answered, ?_, ?_, ?_⟩
  · intro hmem
    cases h.faults _ hmem
  · intro hmem
    cases h.faults _ hmem
  · intro path hmem
    cases h.faults _ hmem

/-- A frame out of turn comes first; then the end of a flush answers it, and a head alone answers
the stream that was submitted twice. -/
theorem run_attributed_twice :
    let flush : Ticket := ⟨0, .forBucket .flush "b" "secret"⟩
    let stream : Ticket := ⟨1, .forBucket .bucketStreaming "b" "secret"⟩
    let created : Header := ⟨201, "Created", []⟩
    let missing : Header := ⟨404, "Not Found", []⟩
    let events : List Event := [.submit flush, .submit stream, .submit stream, .receive (.last []),
      .receive (.header created), .receive (.last []), .receive (.header missing)]
    .drain ∉ events ∧ ((start "h" {}).run events).faults = [.strayEnd] ∧
      ∃ answered, [flush, stream, stream] = answered ++ [stream] ∧
        List.Forall₂ Response.Answers answered
          [(.flush false "Created" .success, some created),
            (.bucketStreaming .inactive "h" .notFound stream, some missing)] := by
  intro flush stream created missing events
  have hdrain : .drain ∉ events := by decide
  exact ⟨hdrain, rfl, (run_attributed "h" {} events hdrain).1⟩

end History

end Session

end ClusterLink
