import ClusterLink.Proofs.Link.Hearing
import ClusterLink.Proofs.Link.History
import ClusterLink.Proofs.Link.Moves
import Mathlib.Data.List.Nodup

/-!
# How callers fare

Every request that a caller sends is answered once, by the response to it or by
the news that the connection has ended, and never by anything else. Responses go
to the requests taken up first; when the connection ends, all others are told so,
one after another, and before the first of them is told no stream is active any more
(`run_accounted`).

## The argument

Callers who have stopped waiting get no answer, and their commands may be
withdrawn. So the invariants compare lists up to such callers (`LeavesOut`). While
the connection goes on (`AtWork`), all requests sent are those taken up, followed by
those in the queues of commands, and the answers are the responses to the first of
those taken up; the others stand in the session's queue. When it ends, its stream
has ended and nobody has been told (`AtWork.close`). From then on whoever is left over
has been told or is still to be told, and nothing changes but the line between the two
(`Ended`).
-/

namespace ClusterLink

namespace Link

namespace History

/-! ### The invariants -/

/-- While the connection goes on. -/
structure AtWork (r : History) : Prop where
  /-- The connection goes on. -/
  isOpen : r.link.isOpen = true
  /-- There is nothing to tell. -/
  untold : r.link.untold = []
  /-- Callers and requests are in step. -/
  matched : r.link.connection.Matched
  /-- The requests sent are those taken up and those that still stand in the queues. -/
  callers : LeavesOut id r.link.abandoned (List.range r.sent)
    (r.accepted.map (·.id) ++ r.link.pending)
  /-- The requests taken up first have got their responses, the others wait in the session. -/
  answers : ∃ done, r.accepted = done ++ r.link.connection.session.queue ∧
    List.Forall₂ Ticket.Expects done r.produced ∧
    LeavesOut (·.1) r.link.abandoned (responsesTo done r.produced) r.link.answers

/-- How the requests stand when the connection has ended: those in `done` have got their responses,
and the callers of those in `rest` and the callers in `late`, whose requests were not taken up, have
been told, as far as they are in `told`. -/
structure Settles (r : History) (done rest : List Ticket) (late told : List Nat) : Prop where
  /-- The requests taken up first have got the responses. -/
  accepted_eq : r.accepted = done ++ rest
  /-- The responses have the form in which the requests are answered. -/
  kinds : List.Forall₂ Ticket.Expects done r.produced
  /-- All requests sent have been taken up, or their callers are late. -/
  callers : LeavesOut id r.link.abandoned (List.range r.sent) (r.accepted.map (·.id) ++ late)
  /-- Whoever has no response has been told, or is still to be told. -/
  told_eq : rest.map (·.id) ++ late = told ++ r.link.untold
  /-- Nobody hears anything else. -/
  answers : LeavesOut (·.1) r.link.abandoned (responsesTo done r.produced ++ closedTo told)
    r.link.answers

/-- When the connection has ended and the callers in `told` have been told. -/
structure Ended (r : History) (told : List Nat) : Prop where
  /-- The connection has ended. -/
  isOpen : r.link.isOpen = false
  /-- No stream is open. -/
  stream : r.link.connection.session.stream = none
  /-- No feed is active but that of the stream in progress. -/
  oneFeed : r.link.connection.session.OneFeed
  /-- Every request has been answered or is to be. -/
  settles : ∃ done rest late, r.Settles done rest late told

/-- What holds before anybody is told that the connection has ended. -/
def Silent (r : History) : Prop :=
  r.AtWork ∨ r.Ended []

/-- What holds of every history. -/
def Orderly (r : History) : Prop :=
  r.AtWork ∨ ∃ told, r.Ended told

variable {r : History} {told : List Nat}

theorem AtWork.start (host : String) (settings : Settings) :
    (History.start host settings).AtWork where
  isOpen := rfl
  untold := rfl
  matched := .start host settings
  callers := .refl []
  answers := ⟨[], rfl, .nil, .refl []⟩

/-! ### Parts of moves -/

/-- When the connection ends, its stream ends and nobody has been told yet. -/
theorem AtWork.close (h : r.AtWork) : Ended { r with link := r.link.close } [] := by
  obtain ⟨-, -, hmatched, hcallers, done, haccepted, hkinds, hanswers⟩ := h
  refine ⟨rfl, rfl, hmatched.oneFeed.close, done, _, r.link.pending, haccepted, hkinds, hcallers,
    ?_, ?_⟩
  · rw [← hmatched.callers_eq]
    rfl
  · show LeavesOut _ _ (_ ++ closedTo []) _
    rw [closedTo, List.map_nil, List.append_nil]
    exact hanswers

/-- A message is given to the writer. -/
theorem AtWork.offer (h : r.AtWork) (message : Bytes) :
    Silent { r with link := r.link.offer message } := by
  unfold Link.offer
  split
  · exact .inr h.close
  · split
    · exact .inl ⟨h.isOpen, h.untold, h.matched, h.callers, h.answers⟩
    · exact .inl ⟨h.isOpen, h.untold, h.matched, h.callers, h.answers⟩

/-- A request is taken up: it leaves the commands and joins the queue of the session. -/
theorem AtWork.accept (h : r.AtWork) {t : Ticket} {rest : List Command}
    (hcommands : r.link.commands = .send t :: rest) :
    Silent { r with
      link := { r.link with commands := rest }.accept t
      accepted := r.accepted ++ [t] } := by
  obtain ⟨hopen, huntold, hmatched, hcallers, done, haccepted, hkinds, hanswers⟩ := h
  have hwork : AtWork { r with
      link := { r.link with commands := rest, connection := (r.link.connection.submit t).2 }
      accepted := r.accepted ++ [t] } := by
    refine ⟨hopen, huntold, hmatched.submit t, ?_, done, ?_, hkinds, hanswers⟩
    · have hpending : r.link.pending = t.id :: (rest ++ r.link.admissions).filterMap
          Command.caller? := by
        rw [pending, hcommands]
        rfl
      rw [hpending] at hcallers
      simpa [pending] using hcallers
    · show r.accepted ++ [t] = done ++ (r.link.connection.session.queue ++ [t])
      rw [haccepted, List.append_assoc]
  exact hwork.offer _

/-- The responses to some frames reach the callers who have waited longest. -/
theorem AtWork.deliver (h : r.AtWork) {connection : Connection} (frames : List Reply.Frame)
    (hmatched : connection.Matched)
    (hqueue : connection.session = r.link.connection.session) :
    AtWork { r with
      link := { r.link with connection := (connection.takeAll frames).2.2 }.deliver
        (connection.takeAll frames).1
      produced := r.produced ++ connection.session.respond frames } := by
  obtain ⟨hopen, huntold, -, hcallers, done, haccepted, hkinds, hanswers⟩ := h
  obtain ⟨more, hmore, hdeliveries, hkinds', -, hmatched'⟩ := hmatched.takeAll frames
  rw [hdeliveries, deliver_eq]
  refine ⟨hopen, huntold, hmatched', hcallers, done ++ more, ?_, List.rel_append hkinds hkinds', ?_⟩
  · rw [hqueue] at hmore
    rw [List.append_assoc, ← hmore]
    exact haccepted
  · show LeavesOut _ _ (responsesTo (done ++ more) (r.produced ++ _)) _
    rw [responsesTo_append hkinds.length_eq]
    exact hanswers.append (.filter _)

/-- A read delivers responses, and ends the connection if there is a fault. -/
theorem AtWork.read (h : r.AtWork) (data : Bytes) :
    Silent { r with
      link := r.link.read data
      produced := r.produced ++ r.link.connection.respond data } := by
  unfold Link.read Connection.receive Connection.respond
  generalize r.link.connection.framer.push data = pushed
  obtain ⟨cause | frames, framer⟩ := pushed
  · have hwork : AtWork { r with
        link := { r.link with connection := { r.link.connection with framer := framer } } } :=
      ⟨h.isOpen, h.untold, h.matched.of_framer framer, h.callers, h.answers⟩
    simp only [List.append_nil]
    exact .inr hwork.close
  · have hwork := h.deliver frames (h.matched.of_framer framer) rfl
    dsimp only
    split
    · exact .inr hwork.close
    · exact .inl hwork

/-! ### Moves and other events -/

/-- A move that takes up no request and reads nothing changes only the link. -/
theorem move_eq {m : Move} {link : Link} (hmove : r.link.move? m = some link)
    (htaken : r.link.taken m = []) (hmade : r.link.made m = []) :
    r.move m = { r with link := link } := by
  simp only [move, hmove, htaken, hmade, List.append_nil]

/-- The invariant does not speak of the writer, the far end and the message that waits. -/
theorem AtWork.of_outside (h : r.AtWork) (writer : Writer) (peer : Peer) (blocked : Option Bytes)
    (released : Bool) :
    AtWork { r with link := { r.link with
      writer := writer, peer := peer, blocked := blocked, released := released } } :=
  ⟨h.isOpen, h.untold, h.matched, h.callers, h.answers⟩

/-- Nor does it when the connection has ended, and not of the queues and what waits there. -/
theorem Ended.of_outside (h : r.Ended told) (writer : Writer) (peer : Peer) (released : Bool)
    (commands admissions : List Command) :
    Ended { r with link := { r.link with
      writer := writer, peer := peer, released := released, commands := commands
      admissions := admissions } } told := by
  obtain ⟨hopen, hstream, hfeed, done, rest, late, hsettles⟩ := h
  exact ⟨hopen, hstream, hfeed, done, rest, late, hsettles.accepted_eq, hsettles.kinds,
    hsettles.callers, hsettles.told_eq, hsettles.answers⟩

theorem AtWork.move (h : r.AtWork) (m : Move) : (r.move m).Silent := by
  cases hmove : r.link.move? m with
  | none =>
    have hstill : r.move m = r := by simp only [History.move, hmove]
    rw [hstill]
    exact .inl h
  | some link =>
    cases makes_of_move? hmove with
    | unblock =>
      rw [move_eq hmove rfl rfl]
      exact (h.of_outside r.link.writer r.link.peer none r.link.released).offer _
    | @accept t rest _ hcommands =>
      have htaken : r.link.taken .take = [t] := by simp only [taken, hcommands]
      have hnext : r.move .take = { r with
          link := { r.link with commands := rest }.accept t
          accepted := r.accepted ++ [t] } := by
        simp only [History.move, hmove, htaken, made, List.append_nil]
      rw [hnext]
      exact h.accept hcommands
    | shutdown _ hcommands =>
      rw [move_eq hmove (by simp only [taken, hcommands]) rfl]
      exact .inr h.close
    | released _ hcommands _ _ =>
      rw [move_eq hmove (by simp only [taken, hcommands]) rfl]
      exact .inr h.close
    | read _ hsent =>
      have hmade : r.link.made .read =
          r.link.connection.respond (r.link.peer.sent.take r.link.readSize) :=
        if_neg (by simpa using hsent)
      have hpeer := h.of_outside r.link.writer
        { r.link.peer with sent := r.link.peer.sent.drop r.link.readSize } r.link.blocked
        r.link.released
      simp only [History.move, hmove, hmade, taken, List.append_nil]
      exact hpeer.read _
    | ended _ hsent _ =>
      rw [move_eq hmove rfl (if_pos (by rw [hsent]; rfl))]
      exact .inr h.close
    | notice =>
      rw [move_eq hmove rfl rfl]
      exact .inr h.close
    | begin =>
      rw [move_eq hmove rfl rfl]
      exact .inl (h.of_outside _ r.link.peer r.link.blocked r.link.released)
    | fail =>
      rw [move_eq hmove rfl rfl]
      exact .inl (h.of_outside _ r.link.peer r.link.blocked r.link.released)
    | write =>
      rw [move_eq hmove rfl rfl]
      exact .inl (h.of_outside _ _ r.link.blocked r.link.released)
    | @letIn command rest hadmissions _ =>
      rw [move_eq hmove rfl rfl]
      refine .inl ⟨h.isOpen, h.untold, h.matched, ?_, h.answers⟩
      -- the command keeps its place in the order
      have hpending : r.link.pending =
          ((r.link.commands ++ [command]) ++ rest).filterMap Command.caller? := by
        rw [pending, hadmissions, List.append_assoc, List.singleton_append]
      have hcallers := h.callers
      rw [hpending] at hcallers
      exact hcallers
    | tell huntold =>
      rw [h.untold] at huntold
      cases huntold

/-- The first of those who are still to be told is told. -/
theorem Settles.tell {done rest : List Ticket} {late untold : List Nat} {caller : Nat}
    (h : r.Settles done rest late told) (huntold : r.link.untold = caller :: untold) :
    Settles { r with link := { r.link with untold := untold }.answer caller .closed }
      done rest late (told ++ [caller]) := by
  rw [answer_closed_eq]
  refine ⟨h.accepted_eq, h.kinds, h.callers, ?_, ?_⟩
  · show _ = told ++ [caller] ++ untold
    rw [h.told_eq, huntold, List.append_assoc, List.singleton_append]
  · show LeavesOut _ _ (_ ++ closedTo (told ++ [caller])) _
    rw [closedTo_append, ← List.append_assoc]
    exact h.answers.append (.filter _)

/-- Once the connection has ended, only the writer and the queues still move, and callers are
told. -/
theorem Ended.move (h : r.Ended told) (m : Move) : ∃ told, (r.move m).Ended told := by
  cases hmove : r.link.move? m with
  | none =>
    have hstill : r.move m = r := by simp only [History.move, hmove]
    rw [hstill]
    exact ⟨told, h⟩
  | some link =>
    have hfree : ¬ r.link.isFree = true := by simp [isFree, h.isOpen]
    cases makes_of_move? hmove with
    | unblock _ hopen => exact absurd hopen (by simp [h.isOpen])
    | accept hf => exact absurd hf hfree
    | shutdown hf => exact absurd hf hfree
    | released hf => exact absurd hf hfree
    | read hf => exact absurd hf hfree
    | ended hf => exact absurd hf hfree
    | notice hf => exact absurd hf hfree
    | begin =>
      rw [move_eq hmove rfl rfl]
      exact ⟨_, h.of_outside _ r.link.peer r.link.released r.link.commands r.link.admissions⟩
    | fail =>
      rw [move_eq hmove rfl rfl]
      exact ⟨_, h.of_outside _ r.link.peer r.link.released r.link.commands r.link.admissions⟩
    | write =>
      rw [move_eq hmove rfl rfl]
      exact ⟨_, h.of_outside _ _ r.link.released r.link.commands r.link.admissions⟩
    | letIn =>
      rw [move_eq hmove rfl rfl]
      exact ⟨_, h.of_outside r.link.writer r.link.peer r.link.released _ _⟩
    | @tell caller untold huntold =>
      rw [move_eq hmove rfl rfl]
      obtain ⟨hopen, hstream, hfeed, done, rest, late, hsettles⟩ := h
      have htold := hsettles.tell huntold
      rw [answer_closed_eq] at htold ⊢
      exact ⟨_, hopen, hstream, hfeed, done, rest, late, htold⟩

/-- A command handed in comes last. -/
theorem handIn_eq (l : Link) (command : Command) :
    ∃ commands admissions, (commands ++ admissions).filterMap Command.caller? =
        l.pending ++ command.caller?.toList ∧
      l.handIn command = { l with commands := commands, admissions := admissions } := by
  have hlast (commands : List Command) : (commands ++ [command]).filterMap Command.caller? =
      commands.filterMap Command.caller? ++ command.caller?.toList := by
    rw [List.filterMap_append]
    cases hcaller : command.caller? <;> simp [hcaller]
  unfold handIn
  split
  · rename_i hroom
    simp only [Bool.and_eq_true, List.isEmpty_iff] at hroom
    refine ⟨_, l.admissions, ?_, rfl⟩
    rw [pending, hroom.1, List.append_nil, List.append_nil, hlast]
  · refine ⟨l.commands, _, ?_, rfl⟩
    rw [pending, ← List.append_assoc, hlast]

theorem AtWork.send (h : r.AtWork) (request : Request) :
    AtWork { r with link := r.link.send ⟨r.sent, request⟩, sent := r.sent + 1 } := by
  obtain ⟨commands, admissions, hpending, hhandIn⟩ := handIn_eq r.link (.send ⟨r.sent, request⟩)
  have hsend : r.link.send ⟨r.sent, request⟩ =
      { r.link with commands := commands, admissions := admissions } := by
    rw [Link.send, if_pos h.isOpen, hhandIn]
  rw [hsend]
  refine ⟨h.isOpen, h.untold, h.matched, ?_, h.answers⟩
  show LeavesOut id r.link.abandoned (List.range (r.sent + 1))
    (r.accepted.map (·.id) ++ (commands ++ admissions).filterMap Command.caller?)
  rw [hpending, List.range_succ, ← List.append_assoc]
  exact h.callers.append (.refl _)

theorem AtWork.shutdown (h : r.AtWork) : AtWork { r with link := r.link.shutdown } := by
  obtain ⟨commands, admissions, hpending, hhandIn⟩ := handIn_eq r.link .shutdown
  have hshutdown : r.link.shutdown =
      { r.link with commands := commands, admissions := admissions } := by
    rw [Link.shutdown, if_pos h.isOpen, hhandIn]
  rw [hshutdown]
  refine ⟨h.isOpen, h.untold, h.matched, ?_, h.answers⟩
  show LeavesOut id r.link.abandoned (List.range r.sent)
    (r.accepted.map (·.id) ++ (commands ++ admissions).filterMap Command.caller?)
  rw [hpending]
  simpa [Command.caller?] using h.callers

/-- Withdrawing what a caller still wants to hand in concerns nobody else. -/
theorem pending_abandon (l : Link) (caller : Nat) :
    LeavesOut id [caller] l.pending (l.abandon caller).pending := by
  have hwithdrawn (commands : List Command) :
      (commands.filter (·.caller? != some caller)).filterMap Command.caller? =
        (commands.filterMap Command.caller?).filter (id · ∉ [caller]) := by
    induction commands with
    | nil => rfl
    | cons command commands ih =>
      cases command with
      | shutdown =>
        rw [List.filter_cons_of_pos (by rfl), List.filterMap_cons_none rfl, ih,
          List.filterMap_cons_none rfl]
      | send t =>
        by_cases ht : t.id = caller
        · simpa [Command.caller?, ht] using ih
        · simpa [Command.caller?, ht] using ih
  have hpending : (l.abandon caller).pending = l.commands.filterMap Command.caller? ++
      (l.admissions.filterMap Command.caller?).filter (id · ∉ [caller]) := by
    rw [← hwithdrawn, ← List.filterMap_append]
    rfl
  rw [hpending, pending, List.filterMap_append]
  exact .append (.refl _) (.filter _)

theorem AtWork.abandon (h : r.AtWork) (caller : Nat) :
    AtWork { r with link := r.link.abandon caller } := by
  obtain ⟨hopen, huntold, hmatched, hcallers, done, haccepted, hkinds, hanswers⟩ := h
  have hmore : r.link.abandoned ⊆ r.link.abandoned ++ [caller] := List.subset_append_left _ _
  refine ⟨hopen, huntold, hmatched, ?_, done, haccepted, hkinds, hanswers.mono hmore⟩
  have hleft := (pending_abandon r.link caller).mono (List.subset_append_right r.link.abandoned _)
  exact (hcallers.mono hmore).trans (.append (.refl _) hleft)

theorem Ended.abandon (h : r.Ended told) (caller : Nat) :
    Ended { r with link := r.link.abandon caller } told := by
  obtain ⟨hopen, hstream, hfeed, done, rest, late, hsettles⟩ := h
  have hmore : r.link.abandoned ⊆ r.link.abandoned ++ [caller] := List.subset_append_left _ _
  exact ⟨hopen, hstream, hfeed, done, rest, late, hsettles.accepted_eq, hsettles.kinds,
    hsettles.callers.mono hmore, hsettles.told_eq, hsettles.answers.mono hmore⟩

/-- Whoever comes too late is told at once, unless others are still to be told. -/
theorem Ended.send (h : r.Ended told) (request : Request) :
    ∃ told, Ended { r with link := r.link.send ⟨r.sent, request⟩, sent := r.sent + 1 } told := by
  obtain ⟨hopen, hstream, hfeed, done, rest, late, hsettles⟩ := h
  have hcallers : LeavesOut id r.link.abandoned (List.range (r.sent + 1))
      (r.accepted.map (·.id) ++ (late ++ [r.sent])) := by
    rw [List.range_succ, ← List.append_assoc]
    exact hsettles.callers.append (.refl _)
  have hclosed : ¬ r.link.isOpen = true := by simp [hopen]
  rw [Link.send, if_neg hclosed]
  split
  · rename_i hnobody
    rw [List.isEmpty_iff] at hnobody
    rw [answer_closed_eq]
    refine ⟨told ++ [r.sent], hopen, hstream, hfeed, done, rest, late ++ [r.sent],
      hsettles.accepted_eq, hsettles.kinds, hcallers, ?_, ?_⟩
    · show _ = told ++ [r.sent] ++ r.link.untold
      rw [← List.append_assoc, hsettles.told_eq, hnobody, List.append_nil, List.append_nil]
    · show LeavesOut _ _ (_ ++ closedTo (told ++ [r.sent])) _
      rw [closedTo_append, ← List.append_assoc]
      exact hsettles.answers.append (.filter _)
  · refine ⟨told, hopen, hstream, hfeed, done, rest, late ++ [r.sent],
      hsettles.accepted_eq, hsettles.kinds, hcallers, ?_, hsettles.answers⟩
    show _ = told ++ (r.link.untold ++ [r.sent])
    rw [← List.append_assoc, hsettles.told_eq, List.append_assoc]

/-- What callers do with their streams concerns nothing else. -/
theorem AtWork.withHub (h : r.AtWork) {hub : Hub}
    (hhub : ∀ i, hub.isActive ⟨some i⟩ = r.link.connection.session.hub.isActive ⟨some i⟩) :
    AtWork { r with link := r.link.withHub hub } := by
  have hfeed : Session.OneFeed { r.link.connection.session with hub := hub } :=
    h.matched.oneFeed.of_hub hhub
  have hmatched : (r.link.withHub hub).connection.Matched :=
    h.matched.of_session rfl h.matched.attributed hfeed
  exact ⟨h.isOpen, h.untold, hmatched, h.callers, h.answers⟩

theorem Ended.withHub (h : r.Ended told) {hub : Hub}
    (hhub : ∀ i, hub.isActive ⟨some i⟩ = r.link.connection.session.hub.isActive ⟨some i⟩) :
    Ended { r with link := r.link.withHub hub } told := by
  obtain ⟨hopen, hstream, hfeed, done, rest, late, hsettles⟩ := h
  exact ⟨hopen, hstream, hfeed.of_hub hhub, done, rest, late, hsettles.accepted_eq,
    hsettles.kinds, hsettles.callers, hsettles.told_eq, hsettles.answers⟩

/-- What happens while the connection goes on tells nobody that it has ended. -/
theorem AtWork.act (h : r.AtWork) (event : Event) : (r.act event).Silent := by
  have houtside (peer : Peer) (released : Bool) : Silent { r with link := { r.link with
      peer := peer, released := released } } :=
    .inl (h.of_outside r.link.writer peer r.link.blocked released)
  cases event with
  | send request => exact .inl (h.send request)
  | shutdown => exact .inl h.shutdown
  | abandon caller => exact .inl (h.abandon caller)
  | subscribe stream => exact .inl (h.withHub (Hub.isActive_subscribe _ stream))
  | unsubscribe sub => exact .inl (h.withHub (Hub.isActive_unsubscribe _ sub))
  | next sub => exact .inl (h.withHub (Hub.isActive_next _ sub))
  | move m => exact h.move m
  | release => exact houtside r.link.peer true
  | arrive data => exact houtside { r.link.peer with sent := r.link.peer.sent ++ data } _
  | endReading => exact houtside { r.link.peer with ended := true } _
  | refuseWriting => exact houtside { r.link.peer with refuses := true } _
  | stall stalled => exact houtside { r.link.peer with stalled := stalled } _

/-- What happens when the connection has ended only tells more callers so. -/
theorem Ended.act (h : r.Ended told) (event : Event) : ∃ told, (r.act event).Ended told := by
  have houtside (peer : Peer) (released : Bool) : ∃ told, Ended { r with link := { r.link with
      peer := peer, released := released } } told :=
    ⟨told, h.of_outside r.link.writer peer released r.link.commands r.link.admissions⟩
  cases event with
  | send request => exact h.send request
  | abandon caller => exact ⟨told, h.abandon caller⟩
  | subscribe stream => exact ⟨told, h.withHub (Hub.isActive_subscribe _ stream)⟩
  | unsubscribe sub => exact ⟨told, h.withHub (Hub.isActive_unsubscribe _ sub)⟩
  | next sub => exact ⟨told, h.withHub (Hub.isActive_next _ sub)⟩
  | move m => exact h.move m
  | shutdown =>
    have hstill : r.link.shutdown = r.link := by simp [Link.shutdown, h.isOpen]
    simp only [History.act, hstill]
    exact ⟨told, h⟩
  | release => exact houtside r.link.peer true
  | arrive data => exact houtside { r.link.peer with sent := r.link.peer.sent ++ data } _
  | endReading => exact houtside { r.link.peer with ended := true } _
  | refuseWriting => exact houtside { r.link.peer with refuses := true } _
  | stall stalled => exact houtside { r.link.peer with stalled := stalled } _

theorem Silent.orderly (h : r.Silent) : r.Orderly :=
  h.imp id fun h => ⟨[], h⟩

/-- Nothing that happens to a link breaks the order. -/
theorem Orderly.act (h : r.Orderly) (event : Event) : (r.act event).Orderly := by
  rcases h with h | ⟨told, h⟩
  · exact (h.act event).orderly
  · exact .inr (h.act event)

theorem Orderly.run (h : r.Orderly) (events : List Event) : (r.run events).Orderly := by
  induction events generalizing r with
  | nil => exact h
  | cons event events ih => exact ih (h.act event)

/-! ### Telling everybody -/

theorem finish_of_untold (huntold : r.link.untold = []) : r.finish = r := by
  rw [finish, huntold]
  rfl

/-- When all have been told, nothing else has changed. -/
theorem finish_eq (r : History) : r.finish = { r with link := { r.link with
    untold := []
    answers := r.link.answers ++
      (closedTo r.link.untold).filter (·.1 ∉ r.link.abandoned) } } := by
  unfold finish
  generalize huntold : r.link.untold = untold
  induction untold generalizing r with
  | nil =>
    have hsame : { r.link with untold := [] } = r.link := by rw [← huntold]
    rw [closedTo, List.map_nil, List.filter_nil, List.append_nil]
    show r = { r with link := { r.link with untold := [] } }
    rw [hsame]
  | cons caller untold ih =>
    have htell : r.act (.move .tell) = { r with
        link := { r.link with untold := untold }.answer caller .closed } :=
      move_eq (move?_eq_some_iff.2 (.tell huntold)) rfl rfl
    have hanswers : r.link.answers ++
          (closedTo (caller :: untold)).filter (·.1 ∉ r.link.abandoned) =
        r.link.answers ++ (closedTo [caller]).filter (·.1 ∉ r.link.abandoned) ++
          (closedTo untold).filter (·.1 ∉ r.link.abandoned) := by
      rw [List.append_assoc, ← List.filter_append, ← closedTo_append, List.singleton_append]
    show (r.act (.move .tell)).run (List.replicate untold.length (.move .tell)) = _
    rw [htell, answer_closed_eq, ih _ rfl, hanswers]

theorem Settles.finish {done rest : List Ticket} {late : List Nat}
    (h : r.Settles done rest late told) :
    r.finish.Settles done rest late (told ++ r.link.untold) := by
  rw [finish_eq]
  refine ⟨h.accepted_eq, h.kinds, h.callers, ?_, ?_⟩
  · show _ = told ++ r.link.untold ++ []
    rw [List.append_nil, h.told_eq]
  · rw [closedTo_append, ← List.append_assoc]
    exact h.answers.append (.filter _)

/-! ### How callers fare -/

/-- What a caller has heard for whom there is no response: nothing as long as there may be one, or
as long as the caller is still to be told that there is none. -/
def withoutResponse (r : History) (caller : Nat) : List Outcome :=
  if r.link.isOpen ∨ caller ∈ r.link.untold then [] else [.closed]

/-- There is no response for a caller. -/
structure Refused (r : History) (caller : Nat) : Prop where
  /-- The caller hears nothing before it is told that the connection has ended. -/
  hears : r.link.Hears caller (r.withoutResponse caller)
  /-- When the connection has ended, it is told together with all who are still to be told. -/
  told : r.link.isOpen = false → r.finish.link.Hears caller [.closed]

/-- The callers of answered requests hear the responses. -/
theorem forall₂_hears {done : List Ticket} {news : List (Nat × Outcome)}
    (hkinds : List.Forall₂ Ticket.Expects done r.produced)
    (h : LeavesOut (·.1) r.link.abandoned news r.link.answers) (hnodup : (news.map (·.1)).Nodup)
    (hnews : responsesTo done r.produced ⊆ news) :
    List.Forall₂ (fun t response => t.Expects response ∧ r.link.Hears t.id [.response response])
      done r.produced := by
  rw [List.forall₂_iff_zip] at hkinds ⊢
  refine ⟨hkinds.1, fun {t response} hzip => ⟨hkinds.2 hzip, .of_mem h hnodup (hnews ?_)⟩⟩
  exact List.mem_map.2 ⟨(t, response), hzip, rfl⟩

section

variable {done rest : List Ticket} {late : List Nat}

/-- Nobody is addressed twice. -/
theorem Settles.nodup (h : r.Settles done rest late told) :
    (done.map (·.id) ++ (told ++ r.link.untold)).Nodup := by
  have hnodup := List.nodup_range.sublist h.callers.sublist
  rwa [h.accepted_eq, List.map_append, List.append_assoc, h.told_eq] at hnodup

theorem Settles.keys_eq (h : r.Settles done rest late told) :
    (responsesTo done r.produced ++ closedTo told).map (·.1) = done.map (·.id) ++ told := by
  rw [List.map_append, map_fst_responsesTo h.kinds.length_eq, map_fst_closedTo]

/-- A caller without a response has been told, is still to be told, or has given up. -/
theorem Settles.hears (h : r.Settles done rest late told) (hopen : r.link.isOpen = false)
    {caller : Nat} (hsent : caller < r.sent) (hnot : caller ∉ done.map (·.id)) :
    r.link.Hears caller (r.withoutResponse caller) := by
  have hnodup := h.nodup
  rw [← List.append_assoc] at hnodup
  have hkeys := h.keys_eq
  have hsilent (hnot' : caller ∉ told) : r.link.Hears caller [] := by
    refine .of_not_mem h.answers ?_
    rw [hkeys, List.mem_append, not_or]
    exact ⟨hnot, hnot'⟩
  by_cases huntold : caller ∈ r.link.untold
  · rw [withoutResponse, if_pos (.inr huntold)]
    refine hsilent fun htold => ?_
    exact List.disjoint_of_nodup_append hnodup (List.mem_append_right _ htold) huntold
  · rw [withoutResponse, if_neg (by simp [hopen, huntold])]
    by_cases htold : caller ∈ told
    · refine .of_mem h.answers ?_ (List.mem_append_right _ (List.mem_map_of_mem htold))
      rw [hkeys]
      exact hnodup.of_append_left
    · -- the command has been withdrawn
      have hmem : caller ∉ r.accepted.map (·.id) ++ late := by
        rw [h.accepted_eq, List.map_append, List.append_assoc, h.told_eq]
        simp only [List.mem_append, not_or]
        exact ⟨hnot, htold, huntold⟩
      refine ⟨(hsilent htold).sublist.trans (List.nil_sublist _), fun hwaits => ?_⟩
      exact absurd (h.callers.mem (List.mem_range.2 hsent) hwaits) hmem

theorem Settles.refused (h : r.Settles done rest late told) (hopen : r.link.isOpen = false)
    {caller : Nat} (hsent : caller < r.sent) (hnot : caller ∉ done.map (·.id)) :
    r.Refused caller := by
  refine ⟨h.hears hopen hsent hnot, fun _ => ?_⟩
  have hfinish := h.finish
  rw [finish_eq] at hfinish ⊢
  have hhears := hfinish.hears hopen hsent hnot
  rwa [withoutResponse, if_neg (by simp [hopen])] at hhears

end

/-- Every caller is accounted for. -/
structure Accounted (r : History) : Prop where
  /-- As long as the connection goes on, as many callers wait as requests do, also between the
  frames of a read. -/
  inStep : r.link.isOpen = true → ∀ frames,
    (r.link.connection.takeAll frames).2.2.callers.length =
      (r.link.connection.takeAll frames).2.2.session.outstanding.queue.length
  /-- No read brings a response for which nobody waits. -/
  awaited : r.link.isOpen = true → ∀ data,
    (r.link.connection.receive data).2.1 ≠ some (.outOfTurn .nobodyWaits)
  /-- Requests are taken up in the order in which they are sent, each at most once. -/
  inOrder : (r.accepted.map (·.id)).Sublist (List.range r.sent)
  /-- The requests taken up first have got the responses, in order, each of the form of its request;
  nobody else has got one, and when the connection has ended they are told. -/
  answered : ∃ done rest, r.accepted = done ++ rest ∧
    List.Forall₂ (fun t response => t.Expects response ∧ r.link.Hears t.id [.response response])
      done r.produced ∧
    ∀ t ∈ rest, r.Refused t.id
  /-- Requests that have not been taken up get no response, and when the connection has ended their
  callers are told. -/
  refused : ∀ caller < r.sent, caller ∉ r.accepted.map (·.id) → r.Refused caller
  /-- Nobody is told that the connection has ended before its stream has: if somebody has been told
  so after the next event, no stream is active before that event already. -/
  closing : ∀ event caller, (caller, Outcome.closed) ∈ (r.act event).link.answers →
    ∀ stream, r.link.connection.session.hub.isActive stream = false
  /-- Once the connection has ended, no stream brings anything any more. -/
  streamless : r.link.isOpen = false → r.link.connection.session.stream = none ∧
    ∀ stream, r.link.connection.session.hub.isActive stream = false

theorem closed_not_mem_responsesTo (done : List Ticket) (responses : List Response) (caller : Nat) :
    (caller, Outcome.closed) ∉ responsesTo done responses := by
  intro hmem
  obtain ⟨p, -, hp⟩ := List.mem_map.1 hmem
  cases hp

/-- Nobody has been told yet. -/
theorem Silent.closed_not_mem (h : r.Silent) (caller : Nat) :
    (caller, Outcome.closed) ∉ r.link.answers := by
  intro hmem
  rcases h with h | h
  · obtain ⟨done, -, -, hanswers⟩ := h.answers
    exact closed_not_mem_responsesTo _ _ _ (hanswers.sublist.mem hmem)
  · obtain ⟨done, rest, late, hsettles⟩ := h.settles
    have hall := hsettles.answers.sublist.mem hmem
    rw [closedTo, List.map_nil, List.append_nil] at hall
    exact closed_not_mem_responsesTo _ _ _ hall

theorem AtWork.accounted (h : r.AtWork) : r.Accounted := by
  obtain ⟨done, haccepted, hkinds, hanswers⟩ := h.answers
  have horder := (List.sublist_append_left _ _).trans h.callers.sublist
  have hnodup := List.nodup_range.sublist horder
  have hsplit : r.accepted.map (·.id) =
      done.map (·.id) ++ r.link.connection.session.queue.map (·.id) := by
    rw [haccepted, List.map_append]
  have hkeys := map_fst_responsesTo hkinds.length_eq
  rw [hsplit, List.nodup_append] at hnodup
  obtain ⟨hdone, -, hdisjoint⟩ := hnodup
  have hclosed {p : Prop} (hended : r.link.isOpen = false) : p := by
    rw [h.isOpen] at hended
    cases hended
  have hrefused {caller : Nat} (hnot : caller ∉ done.map (·.id)) : r.Refused caller := by
    refine ⟨?_, hclosed⟩
    rw [withoutResponse, if_pos (.inl h.isOpen)]
    refine .of_not_mem hanswers ?_
    rwa [hkeys]
  refine ⟨?_, fun _ => h.matched.receive_ne, horder, ?_, ?_, ?_, hclosed⟩
  · intro _ frames
    obtain ⟨_, _, _, _, _, hmatched⟩ := h.matched.takeAll frames
    rw [hmatched.callers_eq, List.length_map]
  · refine ⟨done, _, haccepted, ?_, ?_⟩
    · exact forall₂_hears hkinds hanswers (by rwa [hkeys]) (List.Subset.refl _)
    · intro t ht
      exact hrefused fun hmem => hdisjoint _ hmem _ (List.mem_map_of_mem ht) rfl
  · intro caller _ hnot
    rw [hsplit, List.mem_append, not_or] at hnot
    exact hrefused hnot.1
  · intro event caller hmem
    exact absurd hmem ((h.act event).closed_not_mem caller)

theorem Ended.accounted (h : r.Ended told) : r.Accounted := by
  obtain ⟨hopen, hstream, hfeed, done, rest, late, hsettles⟩ := h
  have horder := (List.sublist_append_left _ _).trans hsettles.callers.sublist
  have hnodup := hsettles.nodup
  rw [← hsettles.told_eq] at hnodup
  have hnever {p : Prop} (hstill : r.link.isOpen = true) : p := by
    rw [hopen] at hstill
    cases hstill
  have hstreams := hfeed.isActive_eq_false hstream
  refine ⟨hnever, hnever, horder, ?_, ?_, fun _ _ _ => hstreams, fun _ => ⟨hstream, hstreams⟩⟩
  · refine ⟨done, rest, hsettles.accepted_eq, ?_, ?_⟩
    · refine forall₂_hears hsettles.kinds hsettles.answers ?_ (List.subset_append_left _ _)
      have hkeys := hsettles.nodup
      rw [← List.append_assoc] at hkeys
      rw [hsettles.keys_eq]
      exact hkeys.of_append_left
    · intro t ht
      have hid : t.id ∈ rest.map (·.id) := List.mem_map_of_mem ht
      refine hsettles.refused hopen ?_ fun hmem => ?_
      · refine List.mem_range.1 (horder.mem ?_)
        rw [hsettles.accepted_eq, List.map_append]
        exact List.mem_append_right _ hid
      · exact List.disjoint_of_nodup_append hnodup hmem (List.mem_append_left _ hid)
  · intro caller hsent hnot
    rw [hsettles.accepted_eq, List.map_append, List.mem_append, not_or] at hnot
    exact hsettles.refused hopen hsent hnot.1

/-- Whatever happens to a new link, and in whatever order, every caller is accounted for. -/
theorem run_accounted (host : String) (settings : Settings) (events : List Event) :
    ((start host settings).run events).Accounted :=
  (Orderly.run (.inl (.start host settings)) events).elim (·.accounted) fun ⟨_, h⟩ => h.accounted

/-- A stream is open and another request waits for its reply when nothing more arrives: the stream
ends before the second caller is told that the connection has ended. -/
theorem run_accounted_refused :
    let stream : Request := .forBucket .bucketStreaming "b" "secret"
    let request : Request := .forBucket .flush "b" "secret"
    let before : List Event := [.send stream, .send request, .move .take, .move .take,
      .arrive (Text.Utf8.encode "HTTP/1.1 200 OK\r\nTransfer-Encoding: chunked\r\n\r\n".toList),
      .move .read, .endReading]
    let working := (start "h" {}).run before
    let ended := (start "h" {}).run (before ++ [.move .read])
    let told := (start "h" {}).run (before ++ [.move .read, .move .tell])
    told.Accounted ∧ told.accepted = [⟨0, stream⟩, ⟨1, request⟩] ∧
      working.link.connection.session.hub.isActive ⟨some 0⟩ = true ∧
      ended.link.connection.session.hub.isActive ⟨some 0⟩ = false ∧
      ended.link.outcomes 1 = [] ∧ told.link.outcomes 1 = [.closed] := by
  intro stream request before working ended told
  refine ⟨run_accounted "h" {} _, ?_⟩
  decide +kernel

end History

end Link

end ClusterLink
