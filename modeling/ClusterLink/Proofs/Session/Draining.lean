import ClusterLink.Proofs.Session.Attribution

/-!
# Replies that are in progress when the queue is drained

Draining a session forgets the requests that wait but not the reply in progress,
which still takes the first request out of the queue when it ends. Here it is
shown for every history which request each response answers (`run_answers`): the
one that was first in the queue when the head of its reply came, unless the queue
has been drained in between, and then one that was submitted afterwards.

## The argument

Requests are numbered in the order of their submission. The queue is always the
end of the list of all requests submitted, so its first request has the number
`front`. A `Ledger` notes where the reply in progress began, and for each response
what had been noted and the number of the request that it answers. A reply in
progress that no stream owns either began at the first request in the queue, or
began at one that has been drained since (`Ledger.Inv`).
-/

namespace ClusterLink

open Reply (Frame Header)

namespace Response

/-- A response has the form of a request, and carries that request or none. -/
structure Fits (t : Ticket) (response : Response) : Prop where
  /-- It has the form of the request. -/
  kind_eq : response.kind = t.request.kind
  /-- It carries the request or none. -/
  ticket_eq : ∀ t' ∈ response.ticket?, t' = t

theorem Answers.fits {t : Ticket} {given : Response × Option Header} (h : Answers t given) :
    Fits t given.1 :=
  ⟨h.kind_eq, h.ticket_eq⟩

end Response

namespace Session

/-- A reply is in progress that no stream owns. -/
def InReply (s : Session) : Prop :=
  s.assembly.header?.isSome = true ∧ s.streamOwns = false

/-- The response that a frame leads to. -/
def response? : Except OutOfTurn (Option Response) → Option Response
  | .ok response => response
  | .error _ => none

/-- A piece of a body leads to no response. -/
theorem response?_content (s : Session) (bytes : Bytes) :
    response? (s.receive (.content bytes)).1 = none := by
  show response? ((s.gather bytes).1.map fun _ => none) = none
  cases (s.gather bytes).1 <;> rfl

/-! ### What a frame can do -/

/-- What a frame leads to, in a session that may have been drained. -/
inductive Turn (s : Session) (frame : Frame) :
    Except OutOfTurn (Option Response) × Session → Prop where
  /-- An ordinary reply begins. -/
  | head {s' : Session} : frame.isHeader = true → s.queue ≠ [] → s'.queue = s.queue →
      Turn s frame (.ok none, s')
  /-- A stream begins, and its request is answered. -/
  | stream {t : Ticket} {rest : List Ticket} {response : Response} {s' : Session} :
      frame.isHeader = true → s.queue = t :: rest → s'.queue = rest → ¬ s'.InReply →
      response.Fits t → Turn s frame (.ok (some response), s')
  /-- No reply begins and no request leaves the queue. -/
  | quiet {result : Except OutOfTurn (Option Response)} {s' : Session} :
      (frame.isHeader && result.isOk) = false → response? result = none → s'.queue = s.queue →
      (s'.InReply → s.InReply) → Turn s frame (result, s')
  /-- A reply ends, and the first request leaves the queue, answered or not. -/
  | ends {t : Ticket} {rest : List Ticket} {result : Except OutOfTurn (Option Response)}
      {s' : Session} : frame.isHeader = false → s.InReply → s.queue = t :: rest →
      s'.queue = rest → ¬ s'.InReply → (∀ response ∈ response? result, response.Fits t) →
      Turn s frame (result, s')

variable {s : Session} {frame : Frame}

/-- A header begins a reply if a request waits for one. -/
theorem turn_start (s : Session) (h : Header) : Turn s (.header h) (s.start h) := by
  cases hqueue : s.queue with
  | nil =>
    rw [start_of_queue_eq_nil hqueue]
    exact .quiet rfl rfl rfl id
  | cons t rest =>
    cases hkind : t.request.kind.isStreaming with
    | false =>
      rw [start_of_ordinary hqueue hkind]
      exact .head rfl (by rw [hqueue]; exact List.cons_ne_nil _ _) (queue_yieldReply _)
    | true =>
      obtain ⟨response, s', hopen, hrest, howns, hanswers⟩ :=
        openStream_spec h ((s.queue_makeWay h).trans hqueue) (Request.Kind.eq_bucketStreaming hkind)
      rw [start_of_streaming hqueue hkind, hopen]
      refine .stream rfl hqueue hrest (fun hreply => ?_) hanswers.fits
      rw [hreply.2] at howns
      cases howns

/-- A piece of a body changes nothing about the queue or about whose reply is in progress. -/
theorem gather_leaves (s : Session) (bytes : Bytes) :
    (s.gather bytes).2.queue = s.queue ∧ ((s.gather bytes).2.InReply ↔ s.InReply) := by
  unfold gather
  split
  · exact ⟨rfl, Iff.rfl⟩
  · rename_i assembly hassembly
    refine ⟨queue_passOn _, ?_⟩
    rw [InReply, header?_passOn, streamOwns_passOn, InReply,
      ← Assembly.header?_of_gather? hassembly]
    rfl

/-- The end of a reply takes the first request out of the queue unless a stream owns it. -/
theorem turn_finish (s : Session) (hframe : frame.isHeader = false) : Turn s frame s.finish := by
  cases howns : s.streamOwns with
  | true =>
    rw [finish_of_owns howns]
    refine .quiet (by rw [hframe]; rfl) rfl rfl fun hreply => ?_
    rw [InReply, close, Assembly.header?_reset] at hreply
    cases hreply.1
  | false =>
    rw [finish_of_not_owns howns]
    cases hdone : s.assembly.finish? with
    | none => exact .quiet (by rw [hframe]; rfl) rfl rfl id
    | some done =>
      obtain ⟨reply, assembly⟩ := done
      obtain ⟨hheader, hnone⟩ := Assembly.header?_of_finish? hdone
      have hreply : s.InReply := ⟨by rw [hheader]; rfl, howns⟩
      have hover {outstanding : Outstanding} :
          ¬ InReply { s with assembly := assembly, outstanding := outstanding } := by
        rintro ⟨hopen, -⟩
        simp only [hnone] at hopen
        cases hopen
      cases hqueue : s.queue with
      | nil => exact .quiet (by rw [hframe]; rfl) rfl rfl fun h => absurd h hover
      | cons t rest =>
        refine .ends hframe hreply hqueue rfl hover ?_
        intro response hresponse
        cases hof : Response.ofReply? t reply with
        | none =>
          rw [hof] at hresponse
          cases hresponse
        | some answer =>
          rw [hof] at hresponse
          cases hresponse
          exact (Response.answers_of_ofReply? hof).fits

/-- Only the queue and whose reply is in progress count. -/
theorem Turn.of_same {s₁ : Session} {result : Except OutOfTurn (Option Response) × Session}
    (hqueue : s₁.queue = s.queue) (hreply : s₁.InReply ↔ s.InReply) (h : Turn s₁ frame result) :
    Turn s frame result := by
  cases h with
  | head hheader hne hs' => exact .head hheader (hqueue ▸ hne) (hs'.trans hqueue)
  | stream hheader hcons hs' hnot hfits => exact .stream hheader (hqueue ▸ hcons) hs' hnot hfits
  | quiet hbegins hnone hs' hkeep =>
    exact .quiet hbegins hnone (hs'.trans hqueue) fun h => hreply.1 (hkeep h)
  | ends hheader hin hcons hs' hnot hfits =>
    exact .ends hheader (hreply.1 hin) (hqueue ▸ hcons) hs' hnot hfits

theorem turn_receive (s : Session) (frame : Frame) : Turn s frame (s.receive frame) := by
  cases frame with
  | header h => exact turn_start s h
  | content bytes =>
    obtain ⟨hqueue, hreply⟩ := gather_leaves s bytes
    show Turn s (.content bytes) ((s.gather bytes).1.map fun _ => none, (s.gather bytes).2)
    refine .quiet rfl ?_ hqueue hreply.1
    cases (s.gather bytes).1 <;> rfl
  | last bytes =>
    cases bytes with
    | nil => exact turn_finish s rfl
    | cons b bytes =>
      obtain ⟨hqueue, hreply⟩ := gather_leaves s (b :: bytes)
      rw [receive]
      generalize s.gather (b :: bytes) = gathered at hqueue hreply
      obtain ⟨_ | _, s'⟩ := gathered
      · exact .quiet rfl rfl hqueue hreply.1
      · exact (turn_finish s' rfl).of_same hqueue hreply

/-! ### All events -/

namespace History

/-- The number of the first request in the queue, in the order of submission; the number of the next
request if the queue is empty. -/
def front (r : History) : Nat :=
  r.submitted.length - r.session.queue.length

theorem responses_note (r : History) (frame : Frame)
    (result : Except OutOfTurn (Option Response) × Session) :
    (r.note frame result).responses.map (·.1) =
      r.responses.map (·.1) ++ (response? result.1).toList := by
  obtain ⟨_ | _ | _, _⟩ := result <;> simp [note, response?]

/-- The first request in the queue has its number. -/
theorem getElem?_front {r : History} {t : Ticket} {rest : List Ticket}
    (hwaiting : r.session.queue <:+ r.submitted) (hqueue : r.session.queue = t :: rest) :
    r.submitted[r.front]? = some t := by
  obtain ⟨gone, hgone⟩ := hwaiting
  have hfront : r.front = gone.length := by
    rw [front, ← hgone, List.length_append, Nat.add_sub_cancel]
  rw [hfront, ← hgone, List.getElem?_append_right (Nat.le_refl _), Nat.sub_self, hqueue]
  rfl

end History

/-- Where a reply began. -/
structure Origin where
  /-- The number of the request that was first in the queue when the head came. -/
  first : Nat
  /-- How many requests had been submitted when the queue was drained last since then. -/
  drained : Option Nat := none
  deriving DecidableEq, Repr

/-- A response, and what it answers. -/
structure Answer where
  /-- Where its reply began. -/
  origin : Origin
  /-- The number of the request that it answers. -/
  answered : Nat
  /-- The response. -/
  response : Response
  deriving DecidableEq, Repr

/-- A history in which it is noted what each response answers. -/
structure Ledger where
  /-- The history. -/
  history : History
  /-- Where the reply that began last began. -/
  origin : Origin := { first := 0 }
  /-- The responses in order. -/
  answers : List Answer := []
  deriving DecidableEq, Repr

namespace Ledger

/-- The ledger of a new session. -/
def start (host : String) (settings : Settings) : Ledger where
  history := .start host settings

/-- A frame comes, and what it leads to is noted. A head in turn begins a reply, and a response
takes the first request out of the queue. -/
def note (l : Ledger) (frame : Frame) (result : Except OutOfTurn (Option Response) × Session) :
    Ledger :=
  let origin := if frame.isHeader && result.1.isOk then { first := l.history.front } else l.origin
  { history := l.history.note frame result
    origin := origin
    answers := l.answers ++ ((response? result.1).map fun response =>
      { origin := origin, answered := l.history.front, response := response }).toList }

/-- The ledger after one more event. -/
def act (l : Ledger) : Event → Ledger
  | .receive frame => l.note frame (l.history.session.receive frame)
  | .drain =>
    { l with
      history := l.history.act .drain
      origin := { l.origin with drained := some l.history.submitted.length } }
  | event => { l with history := l.history.act event }

/-- The ledger after some events. -/
def run (l : Ledger) (events : List Event) : Ledger :=
  events.foldl act l

theorem history_act (l : Ledger) (event : Event) : (l.act event).history = l.history.act event := by
  cases event <;> rfl

/-- The ledger only notes what happens. -/
theorem history_run (l : Ledger) (events : List Event) :
    (l.run events).history = l.history.run events := by
  induction events generalizing l with
  | nil => rfl
  | cons event events ih =>
    show ((l.act event).run events).history = (l.history.act event).run events
    rw [ih, history_act]

/-- What is noted of a response is right: it answers the request at which its reply began, or one
submitted after the queue was drained. -/
structure Right (submitted : List Ticket) (a : Answer) : Prop where
  /-- The response fits the request that it answers. -/
  fits : ∃ t, submitted[a.answered]? = some t ∧ a.response.Fits t
  /-- Without a drain the request is the one at which the reply began. -/
  first_eq : a.origin.drained = none → a.answered = a.origin.first
  /-- After a drain it is one that was submitted later. -/
  later : ∀ n ∈ a.origin.drained, a.origin.first < n ∧ n ≤ a.answered

/-- The reply in progress began at the first request in the queue, or before it was drained. -/
structure Begun (r : History) (origin : Origin) : Prop where
  /-- Without a drain the request is still the first. -/
  first_eq : origin.drained = none → origin.first = r.front ∧ r.session.queue ≠ []
  /-- After a drain all that wait have been submitted later. -/
  later : ∀ n ∈ origin.drained, origin.first < n ∧ n ≤ r.front

/-- What is noted of the responses and of the reply in progress is right. -/
structure Inv (l : Ledger) : Prop where
  /-- The requests submitted last wait. -/
  waiting : l.history.session.queue <:+ l.history.submitted
  /-- A reply in progress that no stream owns began where it is noted. -/
  begun : l.history.session.InReply → Begun l.history l.origin
  /-- What each response answers is noted. -/
  right : ∀ a ∈ l.answers, Right l.history.submitted a
  /-- No response is passed over. -/
  responses_eq : l.answers.map (·.response) = l.history.responses.map (·.1)

variable {l : Ledger}

theorem Right.submit {submitted : List Ticket} {a : Answer} (h : Right submitted a) (t : Ticket) :
    Right (submitted ++ [t]) a := by
  obtain ⟨t', ht', hfits⟩ := h.fits
  refine ⟨⟨t', ?_, hfits⟩, h.first_eq, h.later⟩
  rw [List.getElem?_append_left (List.getElem?_eq_some_iff.1 ht').1]
  exact ht'

theorem Inv.start (host : String) (settings : Settings) : (Ledger.start host settings).Inv where
  waiting := List.suffix_rfl
  begun h := by cases h.1
  right := by simp [Ledger.start]
  responses_eq := rfl

theorem Inv.submit (h : l.Inv) (t : Ticket) : (l.act (.submit t)).Inv where
  waiting := by
    obtain ⟨gone, hgone⟩ := h.waiting
    refine ⟨gone, ?_⟩
    show gone ++ (l.history.session.queue ++ [t]) = l.history.submitted ++ [t]
    rw [← List.append_assoc, hgone]
  begun hreply := by
    have hfront : (l.history.act (.submit t)).front = l.history.front := by
      show (l.history.submitted ++ [t]).length - (l.history.session.queue ++ [t]).length = _
      rw [List.length_append, List.length_append, Nat.add_sub_add_right]
      rfl
    obtain ⟨hfirst, hlater⟩ := h.begun hreply
    refine ⟨fun hnone => ?_, fun n hn => ?_⟩
    · exact ⟨(hfirst hnone).1.trans hfront.symm, List.append_ne_nil_of_right_ne_nil _ (by simp)⟩
    · exact ⟨(hlater n hn).1, Nat.le_trans (hlater n hn).2 (Nat.le_of_eq hfront.symm)⟩
  right a ha := (h.right a ha).submit t
  responses_eq := h.responses_eq

theorem Inv.drain (h : l.Inv) : (l.act .drain).Inv where
  waiting := List.nil_suffix
  begun hreply := by
    refine ⟨nofun, fun n hn => ?_⟩
    cases hn
    refine ⟨?_, Nat.le_refl _⟩
    show l.origin.first < l.history.submitted.length
    have hle : l.history.front ≤ l.history.submitted.length := Nat.sub_le _ _
    cases hdrained : l.origin.drained with
    | none =>
      obtain ⟨hfirst, hne⟩ := (h.begun hreply).first_eq hdrained
      have hpos := List.length_pos_iff.2 hne
      have hlen := h.waiting.length_le
      rw [hfirst, History.front]
      omega
    | some n =>
      obtain ⟨hlt, hle'⟩ := (h.begun hreply).later n hdrained
      omega
  right := h.right
  responses_eq := h.responses_eq

/-- Nothing that is noted depends on more than the queue and whose reply is in progress. -/
theorem Begun.of_queue_eq {r r' : History} {origin : Origin}
    (hsubmitted : r'.submitted = r.submitted) (hqueue : r'.session.queue = r.session.queue)
    (h : Begun r origin) : Begun r' origin := by
  have hfront : r'.front = r.front := by
    rw [History.front, History.front, hsubmitted, hqueue]
  refine ⟨fun hnone => ?_, fun n hn => ?_⟩
  · rw [hfront, hqueue]
    exact h.first_eq hnone
  · rw [hfront]
    exact h.later n hn

/-- What is to be shown of a frame: that it only takes requests out of the queue in front, and that
what is noted of the reply in progress and of a response is right. -/
theorem Inv.of_note (h : l.Inv) {frame : Frame}
    {result : Except OutOfTurn (Option Response) × Session}
    (hqueue : result.2.queue <:+ l.history.session.queue)
    (hbegun : result.2.InReply → Begun (l.history.note frame result) (l.note frame result).origin)
    (hright : ∀ response ∈ response? result.1, Right l.history.submitted
      ⟨(l.note frame result).origin, l.history.front, response⟩) : (l.note frame result).Inv where
  waiting := by
    show (l.history.note frame result).session.queue <:+ (l.history.note frame result).submitted
    rw [History.session_note, History.submitted_note]
    exact hqueue.trans h.waiting
  begun hreply := by
    refine hbegun ?_
    rwa [← History.session_note l.history frame result]
  right a ha := by
    show Right (l.history.note frame result).submitted a
    rw [History.submitted_note]
    rcases List.mem_append.1 ha with ha | ha
    · exact h.right a ha
    · obtain ⟨response, hresponse, rfl⟩ := Option.map_eq_some_iff.1 (Option.mem_toList.1 ha)
      exact hright response hresponse
  responses_eq := by
    show (l.note frame result).answers.map (·.response) =
      (l.history.note frame result).responses.map (·.1)
    rw [History.responses_note, ← h.responses_eq, Ledger.note, List.map_append]
    cases response? result.1 <;> rfl

/-- What a frame leads to is noted rightly. -/
theorem Inv.note (h : l.Inv) {frame : Frame} {result : Except OutOfTurn (Option Response) × Session}
    (hturn : Turn l.history.session frame result) : (l.note frame result).Inv := by
  have hsubmitted : (l.history.note frame result).submitted = l.history.submitted :=
    History.submitted_note _ _ _
  have hsession : (l.history.note frame result).session = result.2 := History.session_note _ _ _
  cases hturn with
  | @head s' hheader hne hqueue =>
    have horigin : (l.note frame (.ok none, s')).origin = { first := l.history.front } :=
      if_pos (by rw [hheader]; rfl)
    refine h.of_note (hqueue ▸ List.suffix_rfl) (fun _ => ?_) nofun
    rw [horigin]
    exact .of_queue_eq hsubmitted (hsession ▸ hqueue) ⟨fun _ => ⟨rfl, hne⟩, nofun⟩
  | @stream t rest response s' hheader hcons hqueue hnot hfits =>
    have horigin : (l.note frame (.ok (some response), s')).origin = { first := l.history.front } :=
      if_pos (by rw [hheader]; rfl)
    refine h.of_note ?_ (fun hreply => absurd hreply hnot) fun response hresponse => ?_
    · show s'.queue <:+ _
      rw [hqueue, hcons]
      exact List.suffix_cons t rest
    · cases hresponse
      rw [horigin]
      exact ⟨⟨t, History.getElem?_front h.waiting hcons, hfits⟩, fun _ => rfl, nofun⟩
  | @quiet result s' hbegins hnone hqueue hkeep =>
    have horigin : (l.note frame (result, s')).origin = l.origin :=
      if_neg (by rw [hbegins]; exact Bool.false_ne_true)
    refine h.of_note (hqueue ▸ List.suffix_rfl) (fun hreply => ?_) fun response hresponse => ?_
    · rw [horigin]
      exact (h.begun (hkeep hreply)).of_queue_eq hsubmitted (hsession ▸ hqueue)
    · rw [hnone] at hresponse
      cases hresponse
  | @ends t rest result s' hheader hreply hcons hqueue hnot hfits =>
    have horigin : (l.note frame (result, s')).origin = l.origin :=
      if_neg (by rw [hheader]; exact Bool.false_ne_true)
    refine h.of_note ?_ (fun hreply' => absurd hreply' hnot) fun response hresponse => ?_
    · show s'.queue <:+ _
      rw [hqueue, hcons]
      exact List.suffix_cons t rest
    · rw [horigin]
      obtain ⟨hfirst, hlater⟩ := h.begun hreply
      exact ⟨⟨t, History.getElem?_front h.waiting hcons, hfits response hresponse⟩,
        fun hnone => (hfirst hnone).1.symm, hlater⟩

/-- What callers do with their streams is not noted. -/
theorem Inv.of_hub (h : l.Inv) (hub : Hub) :
    Inv { l with history := { l.history with session := { l.history.session with hub := hub } } } :=
  ⟨h.waiting, fun hreply => .of_queue_eq (r := l.history) rfl rfl (h.begun hreply), h.right,
    h.responses_eq⟩

/-- Every event keeps what is noted right. -/
theorem Inv.act (h : l.Inv) (event : Event) : (l.act event).Inv := by
  cases event with
  | submit t => exact h.submit t
  | receive frame => exact h.note (turn_receive _ frame)
  | close =>
    refine ⟨h.waiting, fun hreply => ?_, h.right, h.responses_eq⟩
    cases (Assembly.header?_reset _ ▸ hreply.1 : (none : Option Header).isSome = true)
  | drain => exact h.drain
  | subscribe stream => exact h.of_hub _
  | unsubscribe sub => exact h.of_hub _
  | next sub => exact h.of_hub _

theorem Inv.run (h : l.Inv) (events : List Event) : (l.run events).Inv := by
  induction events generalizing l with
  | nil => exact h
  | cons event events ih => exact ih (h.act event)

/-- **Which request a response answers**, whatever happens to a new session. Every response is
noted. It fits the request that it answers, and that is the one which was first in the queue when
the head of its reply came if and only if the queue has not been drained since; after a drain it is
a request that was submitted later. -/
theorem run_answers (host : String) (settings : Settings) (events : List Event) :
    ((start host settings).run events).answers.map (·.response) =
        ((History.start host settings).run events).responses.map (·.1) ∧
      ∀ a ∈ ((start host settings).run events).answers,
        (∃ t, ((History.start host settings).run events).submitted[a.answered]? = some t ∧
          a.response.Fits t) ∧
        (a.answered = a.origin.first ↔ a.origin.drained = none) ∧
        ∀ n ∈ a.origin.drained, a.origin.first < n ∧ n ≤ a.answered := by
  obtain ⟨-, -, hright, hresponses⟩ := (Inv.start host settings).run events
  have hhistory : ((start host settings).run events).history =
      (History.start host settings).run events := history_run _ _
  rw [hhistory] at hright hresponses
  refine ⟨hresponses, fun a ha => ?_⟩
  obtain ⟨hfits, hfirst, hlater⟩ := hright a ha
  refine ⟨hfits, ⟨fun heq => ?_, hfirst⟩, hlater⟩
  cases hdrained : a.origin.drained with
  | none => rfl
  | some n =>
    obtain ⟨hlt, hle⟩ := hlater n hdrained
    omega

/-- The head of a reply comes, the queue is drained, another request is submitted, and the end of
the reply answers that one. -/
theorem run_answers_later :
    let a : Ticket := ⟨0, .forBucket .bucketConfig "a" "secret"⟩
    let b : Ticket := ⟨1, .forBucket .bucketConfig "b" "secret"⟩
    ((start "h" {}).run [.submit a, .receive (.header ⟨200, "OK", []⟩), .drain, .submit b,
        .receive (.last [])]).answers =
      [{ origin := { first := 0, drained := some 1 }
         answered := 1
         response := .bucketConfig "OK" .success }] :=
  rfl

end Ledger

end Session

end ClusterLink
