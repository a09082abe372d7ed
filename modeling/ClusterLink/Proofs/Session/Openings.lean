import ClusterLink.Proofs.Session.Carrying
import ClusterLink.Proofs.Session.Documents

/-!
# To which request a stream belongs

From the head of a streaming reply until the stream ends, the stream in progress belongs to
the request that was first in the queue when that head came, and every document of the body
goes to the stream that its caller was given, and to no other. Requests may be submitted
meanwhile, the same one again too, the queue may be drained, and frames may come in any order
(`run_ascribed`).

## The argument

A `Register` notes from outside which streaming reply is in progress: it begins when a head is
answered with a stream, and it ends with the end that belongs to it, with the head of another
reply if there is nothing to publish to, or when the session is closed (`concludes`). No other
event changes the stream in progress (`opened_act`). In particular a piece of the body is
ascribed to the request to which the stream belongs already.
-/

namespace ClusterLink

open Reply (Frame Header)

namespace Session

/-- A streaming reply that has begun, as it is seen from outside. -/
structure Opening where
  /-- The request that was first in the queue when the head came. -/
  ticket : Ticket
  /-- The stream that its caller was given. -/
  stream : Stream
  deriving DecidableEq, Repr

/-- The streaming reply to which a session ascribes the body. -/
def opened (s : Session) : Option Opening :=
  s.stream.map fun stream => ⟨stream.ticket, ⟨stream.feed⟩⟩

/-- The streaming reply that begins with an event: a head is answered with a stream. -/
def opening? (s : Session) : Event → Option Opening
  | .receive (.header head) =>
    match s.outstanding.current?, (s.receive (.header head)).1 with
    | some t, .ok (some (.bucketStreaming stream _ _ _)) => some ⟨t, stream⟩
    | _, _ => none
  | _ => none

/-- Whether the streaming reply in progress ends with an event and no other begins. -/
def concludes (s : Session) : Event → Bool
  | .receive (.header _) => s.outstanding.current?.isSome && !s.isStreaming
  | .receive (.last bytes) => s.streamOwns && (s.receive (.last bytes)).1.isOk
  | .close => true
  | _ => false

/-- The streaming reply that is in progress after one more event. -/
def Opening.after (before : Option Opening) (s : Session) (event : Event) : Option Opening :=
  (s.opening? event).or (if s.concludes event then none else before)

/-- Every feed is given the documents that have its number, and no others; it may have ended. -/
def Gives (s : Session) (log : List (Nat × String)) (s' : Session) : Prop :=
  ∀ i f, s.hub.feeds[i]? = some f → ∃ isActive,
    s'.hub.feeds[i]? = some { Feed.publishAll (documentsOf i log) f with active := isActive }

variable {tickets : List Ticket} {s s' s'' : Session}

/-! ### The stream in progress -/

theorem opened_of_stream (h : s'.stream = s.stream) : s'.opened = s.opened := by
  rw [opened, opened, h]

/-- An end that belongs to another reply leaves the stream in progress alone. -/
theorem stream_finish (howns : s.streamOwns = false) : s.finish.2.stream = s.stream := by
  rw [finish_of_not_owns howns]
  split
  · rfl
  · split <;> rfl

/-- The head of an ordinary reply ends a stream only if that has no feed. -/
theorem opened_yieldReply (s : Session) :
    s.yieldReply.opened = if s.isStreaming then s.opened else none := by
  rcases hstream : s.stream with _ | ⟨_ | feed, ticket, owns⟩
  · simp only [yieldReply, opened, isStreaming, hstream, Option.map_none, ite_self]
  · simp only [yieldReply, isStreaming, hstream, Option.isSome_none, Bool.false_eq_true, if_false,
      Option.bind_some]
    rfl
  · simp only [yieldReply, opened, isStreaming, hstream, Option.isSome_some, if_true,
      Option.bind_some, Option.map_some]

/-- A head that is answered with a stream opens that, and no other head opens one. -/
theorem opened_start (s : Session) (head : Header) :
    (s.start head).2.opened = Opening.after s.opened s (.receive (.header head)) := by
  have hanswer : (s.receive (.header head)).1 = (s.start head).1 := rfl
  cases hqueue : s.queue with
  | nil =>
    have hcurrent : s.outstanding.current? = none := by
      rw [Outstanding.current?, ← queue, hqueue]
      rfl
    rw [start_of_queue_eq_nil hqueue]
    simp only [Opening.after, opening?, concludes, hcurrent, Option.isSome_none, Bool.false_and,
      Bool.false_eq_true, if_false, Option.none_or]
  | cons t rest =>
    have hcurrent : s.outstanding.current? = some t := by
      rw [Outstanding.current?, ← queue, hqueue]
      rfl
    cases hkind : t.request.kind.isStreaming with
    | false =>
      rw [start_of_ordinary hqueue hkind] at hanswer ⊢
      refine (opened_yieldReply _).trans ?_
      simp only [Opening.after, opening?, concludes, hcurrent, hanswer, Option.isSome_some,
        Bool.true_and, Option.none_or]
      show (if s.isStreaming then s.opened else none) = _
      cases s.isStreaming <;> rfl
    | true =>
      rw [start_of_streaming hqueue hkind] at hanswer ⊢
      obtain ⟨-, hopen⟩ | hopen := openStream_cases ((s.queue_makeWay head).trans hqueue) head.code
      all_goals
        rw [hopen] at hanswer ⊢
        simp only [Opening.after, opening?, hcurrent, hanswer, Except.map, Option.some_or]
        rfl

/-- The last frame of a reply ends the stream in progress if it belongs to it and is not refused. -/
theorem HoldsOnly.opened_last (h : s.HoldsOnly tickets) (hnumbered : Ticket.Numbered tickets)
    (bytes : Bytes) :
    (s.receive (.last bytes)).2.opened = Opening.after s.opened s (.receive (.last bytes)) := by
  have hend (s' : Session) (howns : s'.streamOwns = s.streamOwns) (hstream : s'.stream = s.stream) :
      s'.finish.2.opened =
        if s.streamOwns && s'.finish.1.isOk then none else s.opened := by
    cases hs : s.streamOwns with
    | true =>
      rw [finish_of_owns (howns.trans hs)]
      rfl
    | false =>
      rw [opened_of_stream (stream_finish (howns.trans hs)), opened_of_stream hstream]
      rfl
  show _ = if s.streamOwns && (s.receive (.last bytes)).1.isOk then none else s.opened
  cases bytes with
  | nil => exact hend s rfl rfl
  | cons b bytes =>
    have hstream := h.stream_gather hnumbered (b :: bytes)
    obtain ⟨cause, -, hreceive⟩ | ⟨-, hreceive⟩ := s.receive_last_cases b bytes
    · rw [hreceive, opened_of_stream hstream, if_neg]
      exact fun hends => Bool.false_ne_true (Bool.and_eq_true_iff.1 hends).2
    · rw [hreceive]
      exact hend _ (streamOwns_gather s _) hstream

/-- No event changes to which request a stream in progress belongs, and it ends only with an event
that concludes it. -/
theorem HoldsOnly.opened_act {r : History} (h : r.session.HoldsOnly tickets)
    (hnumbered : Ticket.Numbered tickets) (event : Event) :
    (r.act event).session.opened = Opening.after r.session.opened r.session event := by
  cases event with
  | receive frame =>
    show (r.note frame _).session.opened = _
    rw [History.session_note]
    cases frame with
    | header head => exact opened_start _ head
    | content bytes => exact opened_of_stream (h.stream_gather hnumbered bytes)
    | last bytes => exact h.opened_last hnumbered bytes
  | _ => rfl

/-! ### The documents -/

theorem Gives.of_hub_eq (h : s'.hub = s.hub) : s.Gives [] s' := by
  intro i f hf
  exact ⟨f.active, by rw [h]; exact hf⟩

theorem Gives.trans {log : List (Nat × String)} (h : s.Gives log s') (h' : s'.Gives [] s'') :
    s.Gives log s'' := by
  intro i f hf
  obtain ⟨isActive, hf'⟩ := h i f hf
  obtain ⟨isActive', hf''⟩ := h' i _ hf'
  exact ⟨isActive', hf''⟩

theorem gives_endStream (s : Session) : s.Gives [] s.endStream := by
  cases hfeed : s.stream.bind (·.feed) with
  | none =>
    refine .of_hub_eq ?_
    rw [endStream, hfeed]
  | some i =>
    have hhub : s.endStream.hub = s.hub.update i .complete := by
      rw [endStream, hfeed]
    intro j f hf
    rw [hhub]
    by_cases hij : i = j
    · subst hij
      exact ⟨false, Hub.getElem?_update_self hf _⟩
    · exact ⟨f.active, (Hub.getElem?_update_of_ne hij _).trans hf⟩

/-- A head gives nothing to the feeds that are there already. -/
theorem gives_start (s : Session) (head : Header) : s.Gives [] (s.start head).2 := by
  cases hqueue : s.queue with
  | nil =>
    rw [start_of_queue_eq_nil hqueue]
    exact .of_hub_eq rfl
  | cons t rest =>
    have hbegun : s.Gives [] { s with assembly := .start head } := .of_hub_eq rfl
    cases hkind : t.request.kind.isStreaming with
    | false =>
      rw [start_of_ordinary hqueue hkind]
      refine hbegun.trans ?_
      unfold yieldReply
      split
      · exact .of_hub_eq rfl
      · split
        · exact .of_hub_eq rfl
        · exact gives_endStream _
    | true =>
      rw [start_of_streaming hqueue hkind]
      have hway : s.Gives [] (s.makeWay head) := by
        unfold makeWay
        split
        · exact hbegun.trans (gives_endStream _)
        · exact hbegun
      refine hway.trans ?_
      obtain ⟨-, hopen⟩ | hopen := openStream_cases ((s.queue_makeWay head).trans hqueue) head.code
      · rw [hopen]
        intro i f hf
        have hlt : i < (s.makeWay head).hub.feeds.length := (List.getElem?_eq_some_iff.1 hf).1
        exact ⟨f.active, (List.getElem?_append_left hlt).trans hf⟩
      · rw [hopen]
        exact .of_hub_eq rfl

/-- A piece of a body gives what it completes to the feed of the stream in progress. -/
theorem gives_gather (s : Session) (bytes : Bytes) :
    s.Gives (s.published bytes) (s.gather bytes).2 := by
  cases hopen : s.assembly.isOpen with
  | false =>
    rw [gather_of_not_isOpen hopen, published_of_not_isOpen hopen]
    exact .of_hub_eq rfl
  | true =>
    obtain ⟨head, body, hassembly⟩ := Assembly.exists_of_isOpen hopen
    have hhub := (gather_of_gathering hassembly bytes).2.2
    cases hfeed : s.stream.bind (·.feed) with
    | none =>
      rw [published_of_no_feed hfeed]
      refine .of_hub_eq ?_
      rw [hhub, publish, hfeed]
    | some i =>
      rw [published_of_feed hassembly hfeed]
      intro j f hf
      rw [hhub, publish, hfeed, documentsOf_map]
      by_cases hij : i = j
      · subst hij
        rw [if_pos rfl]
        exact ⟨_, Hub.getElem?_update_self hf _⟩
      · rw [if_neg hij]
        exact ⟨f.active, (Hub.getElem?_update_of_ne hij _).trans hf⟩

theorem gives_finish (s : Session) : s.Gives [] s.finish.2 := by
  cases howns : s.streamOwns with
  | true =>
    rw [finish_of_owns howns]
    exact gives_endStream s
  | false =>
    rw [finish_of_not_owns howns]
    refine .of_hub_eq ?_
    split
    · rfl
    · split <;> rfl

/-- A frame gives each feed just the documents that it publishes there. -/
theorem gives_receive (s : Session) (frame : Frame) :
    s.Gives (s.publishes frame) (s.receive frame).2 := by
  cases frame with
  | header head => exact gives_start s head
  | content bytes => exact gives_gather s bytes
  | last bytes =>
    cases bytes with
    | nil => exact gives_finish s
    | cons b bytes =>
      have hgathered := gives_gather s (b :: bytes)
      obtain ⟨cause, -, hreceive⟩ | ⟨-, hreceive⟩ := s.receive_last_cases b bytes
      · rw [hreceive]
        exact hgathered
      · rw [hreceive]
        exact hgathered.trans (gives_finish _)

/-- Documents are published to the stream in progress only. -/
theorem feed_of_mem_publishes {frame : Frame} {p : Nat × String} (hp : p ∈ s.publishes frame) :
    s.opened.bind (·.stream.feed) = some p.1 := by
  have hpublished {bytes : Bytes} (hp : p ∈ s.published bytes) :
      s.opened.bind (·.stream.feed) = some p.1 := by
    unfold published at hp
    split at hp
    · rename_i i hfeed
      split at hp
      · obtain ⟨document, -, rfl⟩ := List.mem_map.1 hp
        rw [opened, Option.bind_map]
        exact hfeed
      · cases hp
    · cases hp
  rcases frame with _ | _ | _ | _
  · cases hp
  · exact hpublished hp
  · cases hp
  · exact hpublished hp

/-- A piece of the body is split behind what is left, and its documents are published. -/
theorem publishes_of_content? {frame : Frame} {bytes : Bytes} {i : Nat} (hsettled : s.Settled)
    (hfeed : s.opened.bind (·.stream.feed) = some i) (hopen : s.assembly.isOpen = true)
    (hbytes : frame.content? = some bytes) :
    s.publishes frame = (Document.split (s.assembly.body ++ bytes)).1.map (i, ·) := by
  rw [opened, Option.bind_map] at hfeed
  have hpublished : s.published bytes =
      (Document.split (s.assembly.body ++ bytes)).1.map (i, ·) := by
    obtain ⟨head, body, hassembly⟩ := Assembly.exists_of_isOpen hopen
    rw [published_of_feed hassembly hfeed, hassembly]
    rfl
  cases frame with
  | header head => cases hbytes
  | content piece =>
    cases hbytes
    exact hpublished
  | last piece =>
    cases hbytes
    cases bytes with
    | cons b bytes => exact hpublished
    | nil =>
      -- what is left has no complete document
      have hleft : Text.cut? Document.mark s.assembly.body = none :=
        hsettled (congrArg Option.isSome hfeed)
      rw [List.append_nil, Document.split_of_cut?_eq_none hleft]
      rfl

/-! ### All histories -/

/-- The stream in progress is the one that is noted. -/
structure Ascribed (s : Session) (opening : Option Opening) : Prop where
  /-- It belongs to the request noted; none is in progress if none is noted. -/
  ticket_eq : s.streamTicket? = opening.map (·.ticket)
  /-- No other request is carried. -/
  carried : ∀ t, s.outstanding.carried = some t → opening.map (·.ticket) = some t
  /-- The documents that a piece of the body completes are published to the stream noted. -/
  publishes_eq : ∀ (frame : Frame) (bytes : Bytes) (i : Nat),
    opening.bind (·.stream.feed) = some i → s.assembly.isOpen = true →
      frame.content? = some bytes →
        s.publishes frame = (Document.split (s.assembly.body ++ bytes)).1.map (i, ·)
  /-- No document is published to another. -/
  feed_eq : ∀ (frame : Frame), ∀ p ∈ s.publishes frame, opening.bind (·.stream.feed) = some p.1
  /-- Each feed is given what is published to it, and nothing else. -/
  gives : ∀ frame : Frame, s.Gives (s.publishes frame) (s.receive frame).2

/-- A history in which it is noted which streaming reply is in progress. -/
structure Register where
  /-- The history. -/
  history : History
  /-- The streaming reply in progress. -/
  opening : Option Opening := none
  deriving DecidableEq, Repr

namespace Register

/-- The register of a new session. -/
def start (host : String) (settings : Settings) : Register where
  history := .start host settings

/-- The register after one more event. -/
def act (w : Register) (event : Event) : Register where
  history := w.history.act event
  opening := Opening.after w.opening w.history.session event

/-- The register after some events. -/
def run (w : Register) (events : List Event) : Register :=
  events.foldl act w

/-- The register only notes what happens. -/
theorem history_run (w : Register) (events : List Event) :
    (w.run events).history = w.history.run events := by
  induction events generalizing w with
  | nil => rfl
  | cons event events ih => exact ih (w.act event)

/-- What is noted is the stream in progress. -/
theorem opening_run {w : Register} (h : w.history.session.HoldsOnly w.history.submitted)
    (hopening : w.opening = w.history.session.opened) {events : List Event}
    (hnumbered : Ticket.Numbered (w.run events).history.submitted) :
    (w.run events).opening = (w.run events).history.session.opened := by
  induction events generalizing w with
  | nil => exact hopening
  | cons event events ih =>
    have hsubmitted : w.history.submitted ⊆ (w.run (event :: events)).history.submitted := by
      rw [history_run]
      exact w.history.submitted_subset_run _
    have hnext := h.opened_act (hnumbered.of_subset hsubmitted) event
    refine ih (w := w.act event) (History.holdsOnly_act h event) ?_ hnumbered
    show Opening.after w.opening w.history.session event = _
    rw [hopening, ← hnext]
    rfl

/-- **To which request a stream belongs**, whatever happens to a new session, if numbers tell its
requests apart. From the head of a streaming reply until that concludes, the stream in progress
belongs to the request that was first in the queue when the head came, and before and after there is
none. A request is carried only while it is that of the stream in progress. Every document that a
frame completes goes to the stream that was given out with that head, and no feed gets another. -/
theorem run_ascribed (host : String) (settings : Settings) (events : List Event) :
    let w := (start host settings).run events
    Ticket.Numbered w.history.submitted → w.history.session.Ascribed w.opening := by
  intro w hnumbered
  have hhistory : w.history = (History.start host settings).run events := history_run _ _
  have hopening : w.opening = w.history.session.opened :=
    opening_run (w := start host settings) (.new host settings) rfl hnumbered
  have hholds := History.holdsOnly_run (r := .start host settings) (.new host settings) events
  obtain ⟨-, hsettled⟩ := History.session_run (.start host settings) events
    ⟨.new host settings, .of_not_isStreaming rfl⟩
  rw [← hhistory] at hholds hsettled
  rw [hopening]
  generalize w.history.session = s at hholds hsettled
  have hticket : s.streamTicket? = s.opened.map (·.ticket) := by
    rw [streamTicket?, opened, Option.map_map]
    rfl
  exact {
    ticket_eq := hticket
    carried := fun t ht => hticket.symm.trans (hholds.carried t ht)
    publishes_eq := fun frame bytes i => publishes_of_content? hsettled
    feed_eq := fun frame p => feed_of_mem_publishes
    gives := gives_receive s }

/-- The request of a stream is submitted once more, a document comes in two pieces, and between them
the queue is drained. -/
theorem run_ascribed_resubmitted :
    let t : Ticket := ⟨0, .bucketStreaming, "/s", "b", ""⟩
    let w := (start "h" { maxBodySize := 4 }).run (History.carryingEvents ++
      [.submit t, .receive (.content [97]), .submit ⟨1, .bucketConfig, "/c", "b", ""⟩, .drain])
    w.opening = some ⟨t, ⟨some 0⟩⟩ ∧
      w.history.submitted = [t, t, ⟨1, .bucketConfig, "/c", "b", ""⟩] ∧
      w.history.session.streamTicket? = some t ∧
      w.history.session.publishes (.content [98, 10, 10, 10, 10]) = [(0, "ab")] := by
  intro t w
  have hopening : w.opening = some ⟨t, ⟨some 0⟩⟩ := by
    decide +kernel
  have hsubmitted : w.history.submitted = [t, t, ⟨1, .bucketConfig, "/c", "b", ""⟩] := by
    decide +kernel
  have hassembly : w.history.session.assembly = .gathering ⟨200, "OK", []⟩ [97] := by
    decide +kernel
  have hnumbered : Ticket.Numbered w.history.submitted := by
    rw [hsubmitted]
    decide
  have hascribed := run_ascribed "h" { maxBodySize := 4 } _ hnumbered
  have hdocuments : Document.split (w.history.session.assembly.body ++ [98, 10, 10, 10, 10]) =
      (["ab"], []) := by
    rw [hassembly]
    decide +kernel
  change w.history.session.Ascribed w.opening at hascribed
  rw [hopening] at hascribed
  have hpublishes := hascribed.publishes_eq (.content [98, 10, 10, 10, 10]) _ 0 rfl
    (by rw [hassembly]; rfl) rfl
  rw [hdocuments] at hpublishes
  exact ⟨hopening, hsubmitted, hascribed.ticket_eq, hpublishes⟩

end Register

end Session

end ClusterLink
