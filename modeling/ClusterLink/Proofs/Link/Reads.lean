import ClusterLink.Proofs.Link.Hearing
import ClusterLink.Proofs.Link.History
import ClusterLink.Proofs.Link.Moves

/-!
# What a link reads

Of all that happens to a link only a read makes frames of bytes. `History.reads` lists
the bytes of the reads that some events make. What else happens leaves the framer alone,
and the session too but for the requests that are taken up, the streams that callers use
and the end of the connection (`Unread`). So a connection that has read nothing is as
good as new (`Blank.run`), and one that has ended reads nothing any more
(`run_of_ended`).
-/

namespace ClusterLink

open Reply (Frame Framer)

namespace Link

variable {l : Link} {event : Event} {data : Bytes}

/-- The bytes that an event reads, if it reads any. -/
def readBy (l : Link) : Event → List Bytes
  | .move .read =>
    if l.isFree && !l.peer.sent.isEmpty then [l.peer.sent.take l.readSize] else []
  | _ => []

/-- An event reads nothing, or the connection reads of what has arrived as much as it takes. -/
theorem readBy_cases (l : Link) (event : Event) :
    l.readBy event = [] ∨ event = .move .read ∧ l.isFree = true ∧ l.peer.sent ≠ [] ∧
      l.readBy event = [l.peer.sent.take l.readSize] := by
  cases event with
  | move m =>
    cases m with
    | read =>
      by_cases h : (l.isFree && !l.peer.sent.isEmpty) = true
      · have hparts := h
        rw [Bool.and_eq_true] at hparts
        exact .inr ⟨rfl, hparts.1, by simpa using hparts.2, if_pos h⟩
      · exact .inl (if_neg h)
    | _ => exact .inl rfl
  | _ => exact .inl rfl

/-- Answering a caller leaves the connection alone. -/
theorem answer_keeps (l : Link) (caller : Nat) (outcome : Outcome) :
    (l.answer caller outcome).connection = l.connection ∧
      (l.answer caller outcome).isOpen = l.isOpen := by
  unfold answer
  split
  · exact ⟨rfl, rfl⟩
  · exact ⟨rfl, rfl⟩

/-- Delivering responses leaves the connection alone. -/
theorem deliver_keeps (l : Link) (deliveries : List Delivery) :
    (l.deliver deliveries).connection = l.connection ∧
      (l.deliver deliveries).isOpen = l.isOpen := by
  unfold deliver
  induction deliveries generalizing l with
  | nil => exact ⟨rfl, rfl⟩
  | cons d rest ih =>
    obtain ⟨hconnection, hopen⟩ := ih (l.answer d.caller (.response d.response))
    have hanswer := l.answer_keeps d.caller (.response d.response)
    exact ⟨hconnection.trans hanswer.1, hopen.trans hanswer.2⟩

/-- A read that is malformed brings nothing and ends the connection. -/
theorem read_of_error {cause : Malformed} {framer : Framer}
    (hpush : l.connection.framer.push data = (.error cause, framer)) :
    (l.read data).isOpen = false ∧ l.connection.respond data = [] := by
  refine ⟨?_, by simp only [Connection.respond, hpush]⟩
  simp only [read, Connection.receive, hpush]
  rfl

/-- The frames of a read are taken one after another. -/
theorem read_of_ok {frames : List Frame} {framer : Framer}
    (hpush : l.connection.framer.push data = (.ok frames, framer)) :
    l.connection.respond data = l.connection.session.respond frames ∧
      ((({ l.connection with framer := framer } : Connection).takeAll frames).2.1 = none →
        (l.read data).connection =
          (({ l.connection with framer := framer } : Connection).takeAll frames).2.2 ∧
        (l.read data).isOpen = l.isOpen) := by
  refine ⟨by simp only [Connection.respond, hpush], fun hfault => ?_⟩
  simp only [read, Connection.receive, hpush, hfault, Option.map_none, Option.isSome_none,
    Bool.false_eq_true, if_false]
  exact deliver_keeps _ _

/-! ### What becomes of the connection when nothing is read -/

/-- What becomes of a connection when nothing is read and it goes on. -/
inductive Untouched (c : Connection) : Connection → Prop where
  /-- It stays as it is. -/
  | same : Untouched c c
  /-- A request is taken up. -/
  | submit (t : Ticket) : Untouched c (c.submit t).2
  /-- Callers use their streams. -/
  | withHub (hub : Hub) : Untouched c { c with session := { c.session with hub := hub } }

theorem Untouched.framer_eq {c c' : Connection} (h : Untouched c c') : c'.framer = c.framer := by
  cases h with
  | same => rfl
  | submit t => rfl
  | withHub hub => rfl

/-- What becomes of a connection, open or not, and of its link when nothing is read. -/
inductive Unread (wasOpen : Bool) (c : Connection) (l : Link) : Prop where
  /-- The connection goes on, if it has not ended. -/
  | goesOn : l.isOpen = wasOpen → Untouched c l.connection → Unread wasOpen c l
  /-- The connection ends. -/
  | ends {c' : Connection} : l.isOpen = false → Untouched c c' → l.connection = c'.close →
      Unread wasOpen c l

theorem Unread.close (l : Link) : Unread l.isOpen l.connection l.close :=
  .ends rfl .same rfl

theorem Unread.offer (l : Link) (message : Bytes) :
    Unread l.isOpen l.connection (l.offer message) := by
  unfold Link.offer
  split
  · exact .close l
  · split
    · exact .goesOn rfl .same
    · exact .goesOn rfl .same

theorem Unread.accept (l : Link) (t : Ticket) : Unread l.isOpen l.connection (l.accept t) := by
  unfold Link.accept Link.offer
  dsimp only
  split
  · exact .ends rfl (.submit t) rfl
  · split
    · exact .goesOn rfl (.submit t)
    · exact .goesOn rfl (.submit t)

theorem Unread.answer (l : Link) (caller : Nat) (outcome : Outcome) :
    Unread l.isOpen l.connection (l.answer caller outcome) := by
  obtain ⟨hconnection, hopen⟩ := l.answer_keeps caller outcome
  refine .goesOn hopen ?_
  rw [hconnection]
  exact .same

theorem Unread.handIn (l : Link) (command : Command) :
    Unread l.isOpen l.connection (l.handIn command) := by
  unfold Link.handIn
  split
  · exact .goesOn rfl .same
  · exact .goesOn rfl .same

namespace History

variable {r : History}

/-- The reads that some events make, each with its bytes. -/
def reads : History → List Event → List Bytes
  | _, [] => []
  | r, event :: events => r.link.readBy event ++ (r.act event).reads events

/-- A read takes in what has arrived. -/
theorem act_read (hfree : r.link.isFree = true) (hsent : r.link.peer.sent ≠ [])
    (hdata : r.link.peer.sent.take r.link.readSize = data) :
    r.act (.move .read) = { r with
      link := { r.link with
        peer := { r.link.peer with sent := r.link.peer.sent.drop r.link.readSize } }.read data
      produced := r.produced ++ r.link.connection.respond data } := by
  have hmove := move?_eq_some_iff.2 (Makes.read hfree hsent)
  have hmade : r.link.made .read = r.link.connection.respond data := by
    rw [← hdata]
    exact if_neg (by simpa using hsent)
  simp only [act, move, hmove, hmade, taken, List.append_nil, hdata]

/-- A read that is malformed. -/
theorem act_read_of_error {cause : Malformed} {framer : Framer} (hfree : r.link.isFree = true)
    (hsent : r.link.peer.sent ≠ []) (hdata : r.link.peer.sent.take r.link.readSize = data)
    (hpush : r.link.connection.framer.push data = (.error cause, framer)) :
    (r.act (.move .read)).produced = r.produced ∧
      (r.act (.move .read)).link.isOpen = false := by
  rw [act_read hfree hsent hdata]
  obtain ⟨hopen, hresponses⟩ := read_of_error (l := { r.link with
    peer := { r.link.peer with sent := r.link.peer.sent.drop r.link.readSize } }) hpush
  refine ⟨?_, hopen⟩
  show r.produced ++ r.link.connection.respond data = r.produced
  rw [show r.link.connection.respond data = [] from hresponses, List.append_nil]

/-- A read that brings frames. -/
theorem act_read_of_ok {frames : List Frame} {framer : Framer} (hfree : r.link.isFree = true)
    (hsent : r.link.peer.sent ≠ []) (hdata : r.link.peer.sent.take r.link.readSize = data)
    (hpush : r.link.connection.framer.push data = (.ok frames, framer)) :
    (r.act (.move .read)).produced = r.produced ++ r.link.connection.session.respond frames ∧
      ((({ r.link.connection with framer := framer } : Connection).takeAll frames).2.1 = none →
        (r.act (.move .read)).link.connection =
          (({ r.link.connection with framer := framer } : Connection).takeAll frames).2.2 ∧
        (r.act (.move .read)).link.isOpen = r.link.isOpen) := by
  rw [act_read hfree hsent hdata]
  obtain ⟨hresponses, hread⟩ := read_of_ok (l := { r.link with
    peer := { r.link.peer with sent := r.link.peer.sent.drop r.link.readSize } }) hpush
  exact ⟨congrArg _ hresponses, hread⟩

/-- An event that reads nothing produces nothing and leaves the framer alone. -/
theorem unread_act (hread : r.link.readBy event = []) :
    (r.act event).produced = r.produced ∧
      Unread r.link.isOpen r.link.connection (r.act event).link := by
  cases event with
  | send request =>
    refine ⟨rfl, ?_⟩
    show Unread _ _ (r.link.send _)
    unfold Link.send
    split
    · exact .handIn r.link _
    · split
      · exact .answer r.link _ _
      · exact .goesOn rfl .same
  | shutdown =>
    refine ⟨rfl, ?_⟩
    show Unread _ _ r.link.shutdown
    unfold Link.shutdown
    split
    · exact .handIn r.link _
    · exact .goesOn rfl .same
  | release => exact ⟨rfl, .goesOn rfl .same⟩
  | abandon caller => exact ⟨rfl, .goesOn rfl .same⟩
  | arrive data => exact ⟨rfl, .goesOn rfl .same⟩
  | endReading => exact ⟨rfl, .goesOn rfl .same⟩
  | refuseWriting => exact ⟨rfl, .goesOn rfl .same⟩
  | stall stalled => exact ⟨rfl, .goesOn rfl .same⟩
  | subscribe stream => exact ⟨rfl, .goesOn rfl (.withHub _)⟩
  | unsubscribe sub => exact ⟨rfl, .goesOn rfl (.withHub _)⟩
  | next sub => exact ⟨rfl, .goesOn rfl (.withHub _)⟩
  | move m =>
    show (r.move m).produced = r.produced ∧ Unread _ _ (r.move m).link
    cases hmove : r.link.move? m with
    | none =>
      have hstill : r.move m = r := by simp only [History.move, hmove]
      rw [hstill]
      exact ⟨rfl, .goesOn rfl .same⟩
    | some link =>
      have hnext : r.move m = { r with
          link := link
          accepted := r.accepted ++ r.link.taken m
          produced := r.produced ++ r.link.made m } := by
        simp only [History.move, hmove]
      rw [hnext]
      cases makes_of_move? hmove with
      | unblock => exact ⟨List.append_nil _, .offer { r.link with blocked := none } _⟩
      | @accept t rest _ _ =>
        exact ⟨List.append_nil _, .accept { r.link with commands := rest } t⟩
      | shutdown => exact ⟨List.append_nil _, .close r.link⟩
      | released => exact ⟨List.append_nil _, .close r.link⟩
      | read hfree hsent =>
        rw [readBy, if_pos (by simp [hfree, hsent])] at hread
        cases hread
      | ended _ hsent _ =>
        refine ⟨?_, .close r.link⟩
        rw [made, if_pos (by rw [hsent]; rfl), List.append_nil]
      | notice => exact ⟨List.append_nil _, .close r.link⟩
      | begin => exact ⟨List.append_nil _, .goesOn rfl .same⟩
      | fail => exact ⟨List.append_nil _, .goesOn rfl .same⟩
      | write => exact ⟨List.append_nil _, .goesOn rfl .same⟩
      | letIn => exact ⟨List.append_nil _, .goesOn rfl .same⟩
      | @tell caller rest _ =>
        exact ⟨List.append_nil _, .answer { r.link with untold := rest } caller .closed⟩

/-! ### What is never undone -/

/-- When the connection has ended nothing is read, and nothing more is produced. -/
theorem act_of_ended (h : r.link.isOpen = false) (event : Event) :
    r.link.readBy event = [] ∧ (r.act event).link.isOpen = false ∧
      (r.act event).produced = r.produced := by
  have hread : r.link.readBy event = [] := by
    rcases r.link.readBy_cases event with hread | ⟨-, hfree, -⟩
    · exact hread
    · rw [isFree, h] at hfree
      cases hfree
  obtain ⟨hproduced, hunread⟩ := unread_act hread
  refine ⟨hread, ?_, hproduced⟩
  cases hunread with
  | goesOn hopen _ => exact hopen.trans h
  | ends hopen _ _ => exact hopen

theorem run_of_ended (h : r.link.isOpen = false) (events : List Event) :
    r.reads events = [] ∧ (r.run events).link.isOpen = false ∧
      (r.run events).produced = r.produced := by
  induction events generalizing r with
  | nil => exact ⟨rfl, h, rfl⟩
  | cons event events ih =>
    obtain ⟨hread, hopen, hproduced⟩ := act_of_ended h event
    obtain ⟨hreads, hopen', hproduced'⟩ := ih hopen
    refine ⟨?_, hopen', hproduced'.trans hproduced⟩
    rw [reads, hread, hreads]
    rfl

/-- Requests that have been taken up and responses that have been produced stay so. -/
theorem grows_act (r : History) (event : Event) :
    r.accepted <+: (r.act event).accepted ∧ r.produced <+: (r.act event).produced := by
  cases event with
  | move m =>
    show r.accepted <+: (r.move m).accepted ∧ r.produced <+: (r.move m).produced
    unfold History.move
    split
    · exact ⟨List.prefix_rfl, List.prefix_rfl⟩
    · exact ⟨List.prefix_append _ _, List.prefix_append _ _⟩
  | _ => exact ⟨List.prefix_rfl, List.prefix_rfl⟩

theorem grows_run (r : History) (events : List Event) :
    r.accepted <+: (r.run events).accepted ∧ r.produced <+: (r.run events).produced := by
  induction events generalizing r with
  | nil => exact ⟨List.prefix_rfl, List.prefix_rfl⟩
  | cons event events ih =>
    obtain ⟨haccepted, hproduced⟩ := r.grows_act event
    obtain ⟨haccepted', hproduced'⟩ := ih (r.act event)
    exact ⟨haccepted.trans haccepted', hproduced.trans hproduced'⟩

/-! ### Before the first read -/

/-- A connection that has read nothing. -/
structure Blank (settings : Settings) (c : Connection) : Prop where
  /-- The framer is new. -/
  framer_eq : c.framer = { limit := settings.maxHeaderSize.toNat }
  /-- No stream is open. -/
  stream_eq : c.session.stream = none
  /-- The settings are what they were. -/
  settings_eq : c.session.settings = settings

variable {settings : Settings}

theorem Blank.of_unread {wasOpen : Bool} {c : Connection} {l : Link} (h : Blank settings c)
    (hunread : Unread wasOpen c l) : Blank settings l.connection := by
  have huntouched {c' : Connection} (hc : Untouched c c') : Blank settings c' := by
    cases hc with
    | same => exact h
    | submit t => exact ⟨h.framer_eq, h.stream_eq, h.settings_eq⟩
    | withHub hub => exact ⟨h.framer_eq, h.stream_eq, h.settings_eq⟩
  cases hunread with
  | goesOn _ hc => exact huntouched hc
  | ends _ hc hclose =>
    obtain ⟨hframer, -, hsettings⟩ := huntouched hc
    rw [hclose]
    exact ⟨hframer, rfl, hsettings⟩

/-- Nothing has been produced before the first read. -/
theorem Blank.run {events : List Event} (h : Blank settings r.link.connection)
    (hreads : r.reads events = []) :
    Blank settings (r.run events).link.connection ∧ (r.run events).produced = r.produced := by
  induction events generalizing r with
  | nil => exact ⟨h, rfl⟩
  | cons event events ih =>
    obtain ⟨hread, hreads⟩ := List.append_eq_nil_iff.1 hreads
    obtain ⟨hproduced, hunread⟩ := unread_act hread
    obtain ⟨hblank, hproduced'⟩ := ih (h.of_unread hunread) hreads
    exact ⟨hblank, hproduced'.trans hproduced⟩

end History

end Link

end ClusterLink
