import ClusterLink.Proofs.Session.Lifecycle

/-!
# The request to which a stream belongs

A streaming request leaves the queue with the head of its reply and is then carried until
the first piece of the body comes, which is ascribed to it. Callers may have submitted the
same request again meanwhile, so that it is also the first in the queue.

Whatever happens to a session, it holds no requests but those submitted, and it carries one
only while a stream is in progress, the one that belongs to it (`HoldsOnly`,
`holdsOnly_run`). If numbers tell the submitted tickets apart, then whichever way a piece of
a body is ascribed, the stream goes on belonging to its request (`HoldsOnly.gather_eq`).
-/

namespace ClusterLink

open Reply (Frame Header)

namespace Ticket

/-- Tickets of one number are one ticket. -/
def Numbered (tickets : List Ticket) : Prop :=
  ∀ t ∈ tickets, ∀ t' ∈ tickets, t.id = t'.id → t = t'

instance (tickets : List Ticket) : Decidable (Numbered tickets) :=
  inferInstanceAs (Decidable (∀ t ∈ tickets, ∀ t' ∈ tickets, t.id = t'.id → t = t'))

theorem Numbered.of_subset {tickets others : List Ticket} (h : Numbered tickets)
    (hsubset : others ⊆ tickets) : Numbered others :=
  fun t ht t' ht' hid => h t (hsubset ht) t' (hsubset ht') hid

end Ticket

/-- A piece of a stream is ascribed to the carried request, also if that is the first in the queue
again. -/
theorem Outstanding.ascribe_of_carried {o : Outstanding} {t : Ticket}
    (hcarried : o.carried = some t) (hsame : ∀ t' ∈ o.queue, t'.id = t.id → t' = t) :
    o.ascribe = (some t, o.putDown) := by
  simp only [ascribe, hcarried]
  split
  · rename_i hfirst
    obtain ⟨t', ht', hid⟩ := Option.any_eq_true _ _ |>.1 hfirst
    have hmem : t' ∈ o.queue := List.mem_of_head? ht'
    have heq : t' = t := hsame t' hmem (beq_iff_eq.1 hid)
    subst heq
    exact congrArg (·, o.putDown) ht'
  · rfl

namespace Session

/-- A session holds no tickets but these, and what it carries belongs to the stream in progress. -/
structure HoldsOnly (tickets : List Ticket) (s : Session) : Prop where
  /-- Those that wait are among them. -/
  queued : ∀ t ∈ s.queue, t ∈ tickets
  /-- So is that of the stream in progress. -/
  streaming : ∀ t, s.streamTicket? = some t → t ∈ tickets
  /-- The carried one is that of the stream in progress. -/
  carried : ∀ t, s.outstanding.carried = some t → s.streamTicket? = some t

variable {tickets : List Ticket} {s : Session}

theorem HoldsOnly.new (host : String) (settings : Settings) :
    HoldsOnly tickets { host := host, settings := settings } where
  queued := nofun
  streaming := nofun
  carried := nofun

theorem HoldsOnly.submit (h : s.HoldsOnly tickets) (t : Ticket) :
    (s.submit t).2.HoldsOnly (tickets ++ [t]) where
  queued := by
    intro t' ht'
    rcases List.mem_append.1 ht' with ht' | ht'
    · exact List.mem_append_left _ (h.queued t' ht')
    · exact List.mem_append_right _ ht'
  streaming := fun t' ht' => List.mem_append_left _ (h.streaming t' ht')
  carried := h.carried

theorem HoldsOnly.endStream (h : s.HoldsOnly tickets) : s.endStream.HoldsOnly tickets where
  queued := h.queued
  streaming := nofun
  carried := nofun

theorem HoldsOnly.close (h : s.HoldsOnly tickets) : s.close.HoldsOnly tickets where
  queued := h.queued
  streaming := nofun
  carried := nofun

theorem HoldsOnly.drain (h : s.HoldsOnly tickets) : s.drain.2.HoldsOnly tickets where
  queued := nofun
  streaming := h.streaming
  carried := nofun

theorem HoldsOnly.yieldReply (h : s.HoldsOnly tickets) : s.yieldReply.HoldsOnly tickets := by
  unfold Session.yieldReply
  split
  · exact h
  · rename_i stream hstream
    split
    · have hsame : s.streamTicket? = some stream.ticket := by
        rw [streamTicket?, hstream]
        rfl
      exact ⟨h.queued, fun t ht => h.streaming t (hsame.trans ht),
        fun t ht => hsame.symm.trans (h.carried t ht)⟩
    · exact h.endStream

/-- The head of a streaming reply takes the request out of the queue and carries it. -/
theorem HoldsOnly.start (h : s.HoldsOnly tickets) (head : Header) :
    (s.start head).2.HoldsOnly tickets := by
  cases hqueue : s.queue with
  | nil =>
    rw [start_of_queue_eq_nil hqueue]
    exact h
  | cons t rest =>
    have hqueued := h.queued
    rw [hqueue] at hqueued
    have hrest : ∀ t' ∈ rest, t' ∈ tickets := fun t' ht' => hqueued t' (List.mem_cons_of_mem t ht')
    have ht : t ∈ tickets := hqueued t List.mem_cons_self
    cases hkind : t.request.kind.isStreaming with
    | false =>
      rw [start_of_ordinary hqueue hkind]
      have hbegun : HoldsOnly tickets { s with assembly := .start head } :=
        ⟨h.queued, h.streaming, h.carried⟩
      exact hbegun.yieldReply
    | true =>
      rw [start_of_streaming hqueue hkind]
      obtain ⟨-, hopen⟩ | hopen := openStream_cases ((s.queue_makeWay head).trans hqueue) head.code
      all_goals
        rw [hopen]
        refine ⟨hrest, fun t' ht' => ?_, fun _ => id⟩
        cases ht'
        exact ht

theorem HoldsOnly.ascribed (h : s.HoldsOnly tickets) : s.ascribed.HoldsOnly tickets := by
  cases hstream : s.stream with
  | none =>
    have hsame : s.ascribed = s := by
      simp only [Session.ascribed, hstream]
    rw [hsame]
    exact h
  | some stream =>
    have hticket : s.streamTicket? = some stream.ticket := by
      rw [streamTicket?, hstream]
      rfl
    cases hcarried : s.outstanding.carried with
    | none =>
      simp only [Session.ascribed, hstream, hcarried, Option.isSome_none, Bool.false_eq_true,
        if_false, Option.getD_none]
      refine ⟨h.queued, fun t ht => h.streaming t (hticket.trans ht), fun t ht => ?_⟩
      rw [hcarried] at ht
      cases ht
    | some c =>
      have hdown := Outstanding.carried_ascribe (o := s.outstanding) (by rw [hcarried]; rfl)
      -- the piece is ascribed to the first in the queue or to the carried one
      have hascribed : ∀ t, s.outstanding.ascribe.1 = some t → t ∈ tickets := by
        intro t ht
        simp only [Outstanding.ascribe, hcarried] at ht
        split at ht
        · exact h.queued t (List.mem_of_head? ht)
        · cases ht
          exact h.streaming _ (h.carried _ hcarried)
      simp only [Session.ascribed, hstream, hcarried, Option.isSome_some, if_true]
      refine ⟨?_, ?_, ?_⟩
      · intro t ht
        rw [queue, Outstanding.queue_ascribe] at ht
        exact h.queued t ht
      · rintro t ⟨⟩
        cases hticket' : s.outstanding.ascribe.1 with
        | none => exact h.streaming _ hticket
        | some t => exact hascribed t hticket'
      · intro t ht
        rw [hdown] at ht
        cases ht

theorem HoldsOnly.gather (h : s.HoldsOnly tickets) (bytes : Bytes) :
    (s.gather bytes).2.HoldsOnly tickets := by
  cases hopen : s.assembly.isOpen with
  | false =>
    rw [gather_of_not_isOpen hopen]
    exact h
  | true =>
    obtain ⟨head, body, hassembly⟩ := Assembly.exists_of_isOpen hopen
    rw [Session.gather_eq hassembly]
    exact ⟨h.ascribed.queued, h.ascribed.streaming, h.ascribed.carried⟩

theorem HoldsOnly.finish (h : s.HoldsOnly tickets) : s.finish.2.HoldsOnly tickets := by
  cases howns : s.streamOwns with
  | true =>
    rw [finish_of_owns howns]
    exact h.close
  | false =>
    rw [finish_of_not_owns howns]
    split
    · exact h
    · split
      · exact ⟨h.queued, h.streaming, h.carried⟩
      · rename_i t rest hqueue
        refine ⟨fun t' ht' => h.queued t' ?_, h.streaming, h.carried⟩
        rw [hqueue]
        exact List.mem_cons_of_mem t ht'

theorem HoldsOnly.receive (h : s.HoldsOnly tickets) (frame : Frame) :
    (s.receive frame).2.HoldsOnly tickets :=
  receive_keeps (fun head h => h.start head) (fun bytes h => h.gather bytes) (fun h => h.finish) h
    frame

/-- Numbers tell the carried request from the others that wait. -/
theorem HoldsOnly.eq_of_id (h : s.HoldsOnly tickets) (hnumbered : Ticket.Numbered tickets)
    {c : Ticket} (hcarried : s.outstanding.carried = some c) :
    ∀ t ∈ s.outstanding.queue, t.id = c.id → t = c :=
  fun t ht => hnumbered t (h.queued t ht) c (h.streaming c (h.carried c hcarried))

/-- A piece of a body changes nothing about the stream in progress; only the request is carried no
longer. -/
theorem HoldsOnly.ascribed_eq (h : s.HoldsOnly tickets) (hnumbered : Ticket.Numbered tickets) :
    s.ascribed = { s with outstanding := s.outstanding.putDown } := by
  have hdown (hnone : s.outstanding.carried = none) : s.outstanding.putDown = s.outstanding := by
    rw [Outstanding.putDown, ← hnone]
  cases hcarried : s.outstanding.carried with
  | none =>
    rw [hdown hcarried]
    cases hstream : s.stream with
    | none =>
      simp only [Session.ascribed, hstream]
      rw [← hstream]
    | some stream =>
      simp only [Session.ascribed, hstream, hcarried, Option.isSome_none, Bool.false_eq_true,
        if_false, Option.getD_none]
  | some c =>
    have hticket := h.carried c hcarried
    obtain ⟨stream, hstream, rfl⟩ := Option.map_eq_some_iff.1 hticket
    have hascribe := Outstanding.ascribe_of_carried hcarried (h.eq_of_id hnumbered hcarried)
    simp only [Session.ascribed, hstream, hcarried, Option.isSome_some, if_true, hascribe,
      Option.getD_some]

/-- What a piece of a body does if numbers tell the tickets apart. -/
theorem HoldsOnly.gather_eq (h : s.HoldsOnly tickets) (hnumbered : Ticket.Numbered tickets)
    {head : Header} {body : Bytes} (hassembly : s.assembly = .gathering head body) (bytes : Bytes) :
    s.gather bytes = (s.verdict (s.leaves (body ++ bytes)).length, { s with
      outstanding := s.outstanding.putDown
      assembly := .gathering head (s.leaves (body ++ bytes))
      hub := s.publish (body ++ bytes) }) := by
  rw [Session.gather_eq hassembly, h.ascribed_eq hnumbered]

/-- The stream in progress, its request included, is the same after a piece of a body. -/
theorem HoldsOnly.stream_gather (h : s.HoldsOnly tickets) (hnumbered : Ticket.Numbered tickets)
    (bytes : Bytes) : (s.gather bytes).2.stream = s.stream := by
  cases hopen : s.assembly.isOpen with
  | false => rw [gather_of_not_isOpen hopen]
  | true =>
    obtain ⟨head, body, hassembly⟩ := Assembly.exists_of_isOpen hopen
    rw [h.gather_eq hnumbered hassembly]

namespace History

variable {r : History}

theorem holdsOnly_act (h : r.session.HoldsOnly r.submitted) (event : Event) :
    (r.act event).session.HoldsOnly (r.act event).submitted := by
  cases event with
  | submit t => exact h.submit t
  | receive frame =>
    show (r.note frame _).session.HoldsOnly (r.note frame _).submitted
    rw [session_note, submitted_note]
    exact h.receive frame
  | close => exact h.close
  | drain => exact h.drain
  | subscribe stream => exact ⟨h.queued, h.streaming, h.carried⟩
  | unsubscribe sub => exact ⟨h.queued, h.streaming, h.carried⟩
  | next sub => exact ⟨h.queued, h.streaming, h.carried⟩

theorem holdsOnly_run (h : r.session.HoldsOnly r.submitted) (events : List Event) :
    (r.run events).session.HoldsOnly (r.run events).submitted := by
  induction events generalizing r with
  | nil => exact h
  | cons event events ih => exact ih (holdsOnly_act h event)

/-- What has been submitted stays so. -/
theorem submitted_subset_act (r : History) (event : Event) :
    r.submitted ⊆ (r.act event).submitted := by
  cases event with
  | submit t => exact List.subset_append_left _ _
  | receive frame =>
    show r.submitted ⊆ (r.note frame _).submitted
    rw [submitted_note]
    exact List.Subset.refl _
  | _ => exact List.Subset.refl _

theorem submitted_subset_run (r : History) (events : List Event) :
    r.submitted ⊆ (r.run events).submitted := by
  induction events generalizing r with
  | nil => exact List.Subset.refl _
  | cons event events ih => exact List.Subset.trans (r.submitted_subset_act event) (ih _)

/-- A streaming request is submitted, and the head of its reply comes. -/
def carryingEvents : List Event :=
  [.submit ⟨0, .bucketStreaming, "/s", "b", ""⟩, .receive (.header ⟨200, "OK", []⟩)]

/-- The session after that, in which the request is carried. -/
def carrying : Session where
  host := "h"
  settings := { maxBodySize := 4 }
  assembly := .gathering ⟨200, "OK", []⟩ []
  outstanding := ⟨[], some ⟨0, .bucketStreaming, "/s", "b", ""⟩⟩
  stream := some ⟨some 0, ⟨0, .bucketStreaming, "/s", "b", ""⟩, true⟩
  hub := ⟨[{ capacity := 64, receivers := 1, parked := some 0 }]⟩

theorem session_carryingEvents :
    ((start "h" { maxBodySize := 4 }).run carryingEvents).session = carrying := by
  decide +kernel

end History

end Session

end ClusterLink
