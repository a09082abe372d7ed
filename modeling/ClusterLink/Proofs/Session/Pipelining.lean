import ClusterLink.Proofs.Session.Carrying
import ClusterLink.Proofs.Session.Documents

/-!
# Requests submitted while replies come

Frames look at the requests that wait at three places: a head and the end of a reply look at
the first one, and a piece of a stream is ascribed to the carried one or to the first. Here it
is shown for every history without a drain that it makes no difference to any of them whether
one more request has been submitted just before or is submitted just after the frame, except
to a head for which no request waits (`run_commutes`).

## The argument

A request joins the queue at its end, so the first one changes only if the queue is empty. Then
a head is refused without it. The end of a reply that no stream owns finds the queue empty only
if no reply is in progress, since the reply is attributed to the first request. And a piece of a
stream is ascribed to the carried request either way, even if it is the one that is submitted
again (`HoldsOnly.gather_eq`).
-/

namespace ClusterLink

open Reply (Frame Header)

namespace Session

variable {s : Session} {heard : Option Header}

/-- Taking a frame and submitting a request can change places. -/
def Commutes (s : Session) (t : Ticket) (frame : Frame) : Prop :=
  (s.submit t).2.receive frame = ((s.receive frame).1, ((s.receive frame).2.submit t).2)

/-! ### One frame -/

theorem submit_yieldReply (s : Session) (t : Ticket) :
    (s.submit t).2.yieldReply = (s.yieldReply.submit t).2 := by
  rcases hstream : s.stream with _ | ⟨_ | feed, ticket, owns⟩
  · simp only [yieldReply, submit, hstream]
  · simp only [yieldReply, submit, hstream, Option.isSome_none, Bool.false_eq_true, if_false,
      endStream, Option.bind_some]
    rfl
  · simp only [yieldReply, submit, hstream, Option.isSome_some, if_true]

theorem submit_makeWay (s : Session) (t : Ticket) (head : Header) :
    (s.submit t).2.makeWay head = ((s.makeWay head).submit t).2 := by
  cases hstream : s.stream.isSome <;> simp only [makeWay, submit, hstream] <;> rfl

/-- A stream is opened for the request that is first either way. -/
theorem submit_openStream {first : Ticket} {rest : List Ticket} (hqueue : s.queue = first :: rest)
    (t : Ticket) (code : UInt16) :
    (s.submit t).2.openStream code =
      ((s.openStream code).1, ((s.openStream code).2.submit t).2) := by
  have hcarry : s.outstanding.carry? = some (first, ⟨rest, some first⟩) := by
    simp only [Outstanding.carry?, hqueue]
  have hcarry' : (s.outstanding.submit t).carry? = some (first, ⟨rest ++ [t], some first⟩) := by
    simp only [Outstanding.carry?, Outstanding.submit, hqueue, List.cons_append]
  simp only [openStream, submit, hcarry, hcarry']
  cases (Status.ofCode code).isSuccess <;> rfl

/-- A head for which a request waits begins the same reply. -/
theorem commutes_header (hqueue : s.queue ≠ []) (t : Ticket) (head : Header) :
    s.Commutes t (.header head) := by
  obtain ⟨first, rest, hcons⟩ := List.exists_cons_of_ne_nil hqueue
  have hcons' : (s.submit t).2.queue = first :: (rest ++ [t]) := by
    show s.queue ++ [t] = _
    rw [hcons, List.cons_append]
  show (s.submit t).2.start head = ((s.start head).1, ((s.start head).2.submit t).2)
  cases hkind : first.request.kind.isStreaming with
  | false =>
    rw [start_of_ordinary hcons hkind, start_of_ordinary hcons' hkind]
    exact congrArg (Prod.mk _) (submit_yieldReply { s with assembly := .start head } t)
  | true =>
    rw [start_of_streaming hcons hkind, start_of_streaming hcons' hkind, submit_makeWay,
      submit_openStream ((s.queue_makeWay head).trans hcons)]

/-- A piece of a body is ascribed to the same request. -/
theorem HoldsOnly.submit_gather {tickets : List Ticket} {t : Ticket} (h : s.HoldsOnly tickets)
    (hnumbered : Ticket.Numbered (tickets ++ [t])) (bytes : Bytes) :
    (s.submit t).2.gather bytes = ((s.gather bytes).1, ((s.gather bytes).2.submit t).2) := by
  cases hopen : s.assembly.isOpen with
  | false => rw [gather_of_not_isOpen hopen, gather_of_not_isOpen (s := (s.submit t).2) hopen]
  | true =>
    obtain ⟨head, body, hassembly⟩ := Assembly.exists_of_isOpen hopen
    have hbefore := hnumbered.of_subset (List.subset_append_left tickets [t])
    rw [h.gather_eq hbefore hassembly, (h.submit t).gather_eq hnumbered hassembly]
    rfl

/-- The end of a reply answers the same request. -/
theorem submit_finish (h : s.Attributed heard) (t : Ticket) :
    (s.submit t).2.finish = (s.finish.1, (s.finish.2.submit t).2) := by
  cases howns : s.streamOwns with
  | true =>
    rw [finish_of_owns howns, finish_of_owns (s := (s.submit t).2) howns]
    rfl
  | false =>
    have hsame : (s.submit t).2.assembly.finish? = s.assembly.finish? := rfl
    rw [finish_of_not_owns howns, finish_of_not_owns (s := (s.submit t).2) howns, hsame]
    cases hdone : s.assembly.finish? with
    | none => rfl
    | some done =>
      obtain ⟨reply, assembly⟩ := done
      obtain ⟨-, first, rest, hqueue, -⟩ :=
        h reply.header (Assembly.header?_of_finish? hdone).1 howns
      have hqueue' : (s.submit t).2.queue = first :: (rest ++ [t]) := by
        show s.queue ++ [t] = _
        rw [hqueue, List.cons_append]
      simp only [hqueue, hqueue']
      rfl

/-- If the reply in progress is attributed, a frame and a request can change places unless the frame
is a head for which no request waits. -/
theorem HoldsOnly.commutes {tickets : List Ticket} {t : Ticket} (h : s.HoldsOnly tickets)
    (hnumbered : Ticket.Numbered (tickets ++ [t])) (hattributed : s.Attributed heard)
    {frame : Frame} (hwaits : frame.isHeader = true → s.queue ≠ []) : s.Commutes t frame := by
  cases frame with
  | header head => exact commutes_header (hwaits rfl) t head
  | content bytes =>
    show (((s.submit t).2.gather bytes).1.map fun _ => none, ((s.submit t).2.gather bytes).2) = _
    rw [h.submit_gather hnumbered bytes]
    rfl
  | last bytes =>
    cases bytes with
    | nil => exact submit_finish hattributed t
    | cons b bytes =>
      have hfinish := submit_finish (gather_spec hattributed (b :: bytes)).2.1 t
      unfold Commutes
      rw [Session.receive, Session.receive, h.submit_gather hnumbered (b :: bytes)]
      generalize s.gather (b :: bytes) = gathered at hfinish
      obtain ⟨_ | _, s'⟩ := gathered
      · rfl
      · exact hfinish

/-- A head for which no request waits is refused, but a request submitted before can have it. -/
theorem not_commutes_header (hqueue : s.queue = []) (t : Ticket) (head : Header) :
    ¬ s.Commutes t (.header head) := by
  intro h
  have hqueue' : (s.submit t).2.queue = [t] := by
    show s.queue ++ [t] = [t]
    rw [hqueue, List.nil_append]
  have hstart : (s.submit t).2.start head = ((s.start head).1, ((s.start head).2.submit t).2) := h
  have hresult := congrArg Prod.fst hstart
  rw [start_of_queue_eq_nil hqueue] at hresult
  cases hkind : t.request.kind.isStreaming with
  | false =>
    rw [start_of_ordinary hqueue' hkind] at hresult
    cases hresult
  | true =>
    rw [start_of_streaming hqueue' hkind] at hresult
    obtain ⟨-, hopen⟩ | hopen :=
      openStream_cases ((queue_makeWay _ head).trans hqueue') head.code
    all_goals
      rw [hopen] at hresult
      cases hresult

/-- A frame publishes the same documents whether a request is submitted before or after it. -/
theorem publishes_submit (s : Session) (t : Ticket) (frame : Frame) :
    (s.submit t).2.publishes frame = s.publishes frame := by
  rcases frame with _ | _ | _ | _ <;> rfl

/-! ### All histories -/

namespace History

/-- **Requests may be submitted while replies come.** In every history without a drain, if numbers
tell the requests apart: to submit a request, also one that has been submitted before, and then to
take a frame gives the same result, publishes the same documents and leaves the same session as to
take the frame first. Only a head that finds the queue empty is refused if it comes first. -/
theorem run_commutes (host : String) (settings : Settings) (events : List Event)
    (hdrain : .drain ∉ events) (t : Ticket) :
    let r := (start host settings).run events
    Ticket.Numbered (r.submitted ++ [t]) → ∀ frame : Frame,
      (r.session.submit t).2.publishes frame = r.session.publishes frame ∧
        (((r.session.submit t).2.receive frame =
            ((r.session.receive frame).1, ((r.session.receive frame).2.submit t).2)) ↔
          ¬ (frame.isHeader = true ∧ r.session.outstanding.queue = [])) := by
  intro r hnumbered frame
  have hattributed := ((InStep.start host settings).run hdrain).attributed
  have hholds := holdsOnly_run (r := start host settings) (.new host settings) events
  refine ⟨publishes_submit _ _ _, ?_, ?_⟩
  · rintro hcommutes ⟨hheader, hqueue⟩
    cases frame with
    | header head => exact not_commutes_header hqueue t head hcommutes
    | content bytes => cases hheader
    | last bytes => cases hheader
  · intro hwaits
    exact hholds.commutes hnumbered hattributed fun hheader hqueue => hwaits ⟨hheader, hqueue⟩

/-- The piece that ends the first document comes while its request is carried. That request is
submitted once more, before it or after it. A head that comes next is another matter. -/
theorem run_commutes_carrying :
    let t : Ticket := ⟨0, .bucketStreaming, "/s", "b", ""⟩
    let piece : Frame := .content [97, 10, 10, 10, 10]
    let head : Frame := .header ⟨200, "OK", []⟩
    (carrying.submit t).2.receive piece =
        ((carrying.receive piece).1, ((carrying.receive piece).2.submit t).2) ∧
      (carrying.submit t).2.publishes piece = [(0, "a")] ∧
      (carrying.submit t).2.receive head ≠
        ((carrying.receive head).1, ((carrying.receive head).2.submit t).2) := by
  intro t piece head
  have hcommutes := run_commutes "h" { maxBodySize := 4 } carryingEvents (by decide) t (by decide)
  rw [session_carryingEvents] at hcommutes
  obtain ⟨hpublishes, hpiece⟩ := hcommutes piece
  have hdocuments : carrying.publishes piece = [(0, "a")] := by
    decide +kernel
  have hpiece' : ¬ (piece.isHeader = true ∧ carrying.outstanding.queue = []) := by
    rintro ⟨hheader, -⟩
    cases hheader
  exact ⟨hpiece.2 hpiece', hpublishes.trans hdocuments,
    fun h => (hcommutes head).2.1 h ⟨rfl, rfl⟩⟩

end History

end Session

end ClusterLink
