import ClusterLink.Proofs.Session.Carrying
import ClusterLink.Proofs.Session.Documents

/-!
# What a fault leaves behind

A frame changes several parts of a session one after another, and it can turn out to be a
fault at several places. Here it is shown for every history without a drain that a frame out
of turn leaves the session just as it was (`run_intact`). Only a piece that makes the body too
long leaves something behind: it is held, and the documents that it completes are published,
but the queue, the head of the reply and the stream in progress are as before.

## The argument

A frame that is a fault has done nothing at all, or it is a piece of a body, alone or with the
end of the reply, that has been gathered and then measured (`Aftermath`). The end of a reply whose
body has been gathered is never a fault, because the reply in progress is attributed to the
first request in the queue (`isOk_finish`).
-/

namespace ClusterLink

open Reply (Frame Header)

/-- Where no reply is in progress, none can end. -/
theorem Assembly.finish?_of_not_isOpen {a : Assembly} (h : a.isOpen = false) :
    a.finish? = none := by
  cases a with
  | fresh => rfl
  | idle => rfl
  | gathering head body => cases h

namespace Session

variable {s : Session} {heard : Option Header}

/-- What a frame that is a fault leaves: the session as it was, or a piece of the body that is too
long. -/
inductive Aftermath (s : Session) (frame : Frame) : OutOfTurn × Session → Prop where
  /-- The frame has done nothing. -/
  | untouched {cause : OutOfTurn} : s.publishes frame = [] → Aftermath s frame (cause, s)
  /-- A piece of the body has been gathered, and is too long. -/
  | gathered {length limit : Nat} (bytes : Bytes) :
      Aftermath s frame (.longBody length limit, (s.gather bytes).2)

/-- A head that is a fault has done nothing. -/
theorem aftermath_start {head : Header} {cause : OutOfTurn}
    (hfault : (s.start head).1 = .error cause) :
    Aftermath s (.header head) (cause, (s.start head).2) := by
  have hsame : (s.start head).2 = s := by
    refine start_of_isOk_eq_false ?_
    rw [hfault]
    rfl
  rw [hsame]
  exact .untouched rfl

/-- A piece of no reply has done nothing; one that is too long has been gathered. -/
theorem aftermath_gather {frame : Frame} {bytes : Bytes} {cause : OutOfTurn}
    (hframe : s.publishes frame = s.published bytes) (hfault : (s.gather bytes).1 = .error cause) :
    Aftermath s frame (cause, (s.gather bytes).2) := by
  cases hopen : s.assembly.isOpen with
  | false =>
    rw [gather_of_not_isOpen hopen]
    exact .untouched (hframe.trans (published_of_not_isOpen hopen bytes))
  | true =>
    obtain ⟨head, body, hassembly⟩ := Assembly.exists_of_isOpen hopen
    rw [(gather_of_gathering hassembly bytes).1] at hfault
    by_cases hlong : s.settings.maxBodySize.toNat < (s.leaves (body ++ bytes)).length
    · rw [verdict_of_lt hlong] at hfault
      cases hfault
      exact .gathered bytes
    · rw [verdict_of_le (Nat.not_lt.1 hlong)] at hfault
      cases hfault

/-- A piece that is taken belongs to a reply in progress. -/
theorem isOpen_of_gather_eq_ok {bytes : Bytes} (h : (s.gather bytes).1 = .ok ()) :
    (s.gather bytes).2.assembly.isOpen = true := by
  cases hopen : s.assembly.isOpen with
  | false =>
    rw [gather_of_not_isOpen hopen] at h
    cases h
  | true =>
    obtain ⟨head, body, hassembly⟩ := Assembly.exists_of_isOpen hopen
    rw [(gather_of_gathering hassembly bytes).2.1]
    rfl

/-- The end of a reply in progress is no fault. -/
theorem isOk_finish (h : s.Attributed heard) (hopen : s.assembly.isOpen = true) :
    s.finish.1.isOk = true := by
  cases howns : s.streamOwns with
  | true =>
    rw [finish_of_owns howns]
    rfl
  | false =>
    obtain ⟨head, body, hassembly⟩ := Assembly.exists_of_isOpen hopen
    obtain ⟨-, t, rest, hqueue, hkind⟩ := h head (by rw [hassembly]; rfl) howns
    obtain ⟨response, hresponse⟩ :=
      Response.isSome_ofReply? hkind ⟨head, Assembly.textOf head body⟩
    simp only [finish_of_not_owns howns, hassembly, Assembly.finish?, hqueue, hresponse]
    rfl

/-- The end of no reply is a fault that has done nothing. -/
theorem aftermath_finish {cause : OutOfTurn} (h : s.Attributed heard)
    (hfault : s.finish.1 = .error cause) : Aftermath s (.last []) (cause, s.finish.2) := by
  cases hopen : s.assembly.isOpen with
  | true =>
    have hok := isOk_finish h hopen
    rw [hfault] at hok
    cases hok
  | false =>
    cases howns : s.streamOwns with
    | true =>
      rw [finish_of_owns howns] at hfault
      cases hfault
    | false =>
      rw [finish_of_not_owns howns, Assembly.finish?_of_not_isOpen hopen]
      exact .untouched rfl

/-- What a frame that is a fault leaves, if the reply in progress is attributed. -/
theorem aftermath_receive {frame : Frame} {cause : OutOfTurn} (h : s.Attributed heard)
    (hfault : (s.receive frame).1 = .error cause) :
    Aftermath s frame (cause, (s.receive frame).2) := by
  cases frame with
  | header head => exact aftermath_start hfault
  | content bytes =>
    refine aftermath_gather rfl ?_
    change (s.gather bytes).1.map (fun _ => none) = .error cause at hfault
    cases hgathered : (s.gather bytes).1 with
    | ok _ =>
      rw [hgathered] at hfault
      cases hfault
    | error other =>
      rw [hgathered] at hfault
      cases hfault
      rfl
  | last bytes =>
    cases bytes with
    | nil => exact aftermath_finish h hfault
    | cons b bytes =>
      obtain ⟨other, hgathered, hreceive⟩ | ⟨hgathered, hreceive⟩ := s.receive_last_cases b bytes
      · rw [hreceive] at hfault ⊢
        cases hfault
        exact aftermath_gather rfl hgathered
      · have hopen := isOpen_of_gather_eq_ok hgathered
        have hok := isOk_finish (gather_spec h (b :: bytes)).2.1 hopen
        rw [hreceive] at hfault
        rw [hfault] at hok
        cases hok

/-! ### All histories -/

/-- What a piece of a body leaves alone, be it too long or not. -/
structure Spared (s s' : Session) : Prop where
  /-- The requests that wait. -/
  queue_eq : s'.outstanding.queue = s.outstanding.queue
  /-- The head of the reply in progress. -/
  header?_eq : s'.assembly.header? = s.assembly.header?
  /-- The stream in progress: its feed, its request, and whether it owns the next end. -/
  stream_eq : s'.stream = s.stream
  /-- Which streams may still bring documents. -/
  isActive_eq : ∀ stream, s'.hub.isActive stream = s.hub.isActive stream

/-- Which streams are active can be told from the stream in progress. -/
theorem OneFeed.isActive_eq {s' : Session} (h : s.OneFeed) (h' : s'.OneFeed)
    (hstream : s'.stream = s.stream) (stream : Stream) :
    s'.hub.isActive stream = s.hub.isActive stream := by
  obtain ⟨_ | i⟩ := stream
  · rfl
  · rw [Bool.eq_iff_iff, h i, h' i, hstream]

theorem HoldsOnly.spared_gather {tickets : List Ticket} (h : s.HoldsOnly tickets)
    (hnumbered : Ticket.Numbered tickets) (hone : s.OneFeed) (bytes : Bytes) :
    Spared s (s.gather bytes).2 := by
  have hstream := h.stream_gather hnumbered bytes
  refine ⟨(gather_leaves s bytes).1, ?_, hstream, hone.isActive_eq (hone.gather bytes) hstream⟩
  cases hopen : s.assembly.isOpen with
  | false => rw [gather_of_not_isOpen hopen]
  | true =>
    obtain ⟨head, body, hassembly⟩ := Assembly.exists_of_isOpen hopen
    rw [(gather_of_gathering hassembly bytes).2.1, hassembly]
    rfl

namespace History

/-- **A fault leaves the session intact**, in every history without a drain, if numbers tell its
requests apart. A frame that is refused, but not because it makes the body too long, changes nothing
at all and publishes nothing. If the body has become too long, the queue, the head of the reply and
the stream in progress are as before, and the stream is active if it was. -/
theorem run_intact (host : String) (settings : Settings) (events : List Event)
    (hdrain : .drain ∉ events) :
    let r := (start host settings).run events
    Ticket.Numbered r.submitted → ∀ (frame : Frame) (cause : OutOfTurn),
      (r.session.receive frame).1 = .error cause →
        ((∀ length limit, cause ≠ .longBody length limit) →
          (r.session.receive frame).2 = r.session ∧ r.session.publishes frame = []) ∧
        ∀ length limit, cause = .longBody length limit →
          Spared r.session (r.session.receive frame).2 := by
  intro r hnumbered frame cause hfault
  have hattributed := ((InStep.start host settings).run hdrain).attributed
  have hnew : (start host settings).session.Settled := .of_not_isStreaming rfl
  obtain ⟨hone, -⟩ := session_run (start host settings) events ⟨.new host settings, hnew⟩
  have hholds := holdsOnly_run (r := start host settings) (.new host settings) events
  have hafter := aftermath_receive hattributed hfault
  generalize (r.session.receive frame).2 = s' at hafter
  cases hafter with
  | untouched hnone =>
    exact ⟨fun _ => ⟨rfl, hnone⟩, fun _ _ _ => ⟨rfl, rfl, rfl, fun _ => rfl⟩⟩
  | @gathered length limit bytes =>
    exact ⟨fun hother => absurd rfl (hother length limit),
      fun _ _ _ => hholds.spared_gather hnumbered hone bytes⟩

/-- A last piece that is too long spares the stream, also if its request has been submitted once
more. After the stream has been closed a piece is out of turn and changes nothing. -/
theorem run_intact_resubmitted :
    let resubmitted := (carrying.submit ⟨0, .bucketStreaming, "/s", "b", ""⟩).2
    (resubmitted.receive (.last [97, 97, 97, 97, 97])).1 = .error (.longBody 5 4) ∧
      Spared resubmitted (resubmitted.receive (.last [97, 97, 97, 97, 97])).2 ∧
      (carrying.close.receive (.last [97])).1 = .error .strayContent ∧
      (carrying.close.receive (.last [97])).2 = carrying.close := by
  intro resubmitted
  have hagain : ((start "h" { maxBodySize := 4 }).run
      (carryingEvents ++ [.submit ⟨0, .bucketStreaming, "/s", "b", ""⟩])).session =
        resubmitted := by
    decide +kernel
  have hclosed : ((start "h" { maxBodySize := 4 }).run (carryingEvents ++ [.close])).session =
      carrying.close := by
    decide +kernel
  have hlong : (resubmitted.receive (.last [97, 97, 97, 97, 97])).1 = .error (.longBody 5 4) := by
    decide +kernel
  have hstray : (carrying.close.receive (.last [97])).1 = .error .strayContent := by
    decide +kernel
  have hspared := run_intact "h" { maxBodySize := 4 }
    (carryingEvents ++ [.submit ⟨0, .bucketStreaming, "/s", "b", ""⟩]) (by decide) (by decide)
    (.last [97, 97, 97, 97, 97]) (.longBody 5 4)
  have hsame := run_intact "h" { maxBodySize := 4 } (carryingEvents ++ [.close]) (by decide)
    (by decide) (.last [97]) .strayContent
  rw [hagain] at hspared
  rw [hclosed] at hsame
  have hother (length limit : Nat) : OutOfTurn.strayContent ≠ .longBody length limit := by
    intro h
    cases h
  exact ⟨hlong, (hspared hlong).2 5 4 rfl, hstray, ((hsame hstray).1 hother).1⟩

end History

end Session

end ClusterLink
