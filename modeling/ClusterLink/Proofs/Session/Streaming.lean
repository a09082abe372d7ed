import ClusterLink.Proofs.Session.Publishing

/-!
# A streaming reply from head to end

The head of a successful streaming reply opens a stream with a new feed
(`start_streaming`). Until its end the reply belongs to the stream: every piece of
the body publishes the documents that it completes, even if it is refused because
what is left of the body is too long, and the end of the reply ends the stream
and its feed (`Live`). After that, more of the body is a fault (`Over`).
-/

namespace ClusterLink

open Reply (Frame Header)
open Text

namespace Session

/-- A stream that publishes to the feed `i` is in progress, and `body` is left of its body. -/
structure Live (s : Session) (i : Nat) (body : Bytes) : Prop extends s.Publishing i body where
  /-- The end of the reply is its end. -/
  owns_eq : s.streamOwns = true

/-- No stream and no reply is in progress. -/
structure Over (s : Session) : Prop where
  /-- The stream has ended. -/
  stream_eq : s.stream = none
  /-- So has the reply. -/
  isOpen_eq : s.assembly.isOpen = false

variable {s s' : Session} {i : Nat} {body : Bytes}

/-- A stream in progress does not depend on the queue and the hub. -/
theorem Live.congr (h : s.Live i body) (hstream : s'.stream = s.stream)
    (hassembly : s'.assembly = s.assembly) : s'.Live i body := by
  refine ⟨⟨?_, ?_⟩, ?_⟩
  · rw [hstream]
    exact h.feed_eq
  · rw [hassembly]
    exact h.assembly_eq
  · rw [streamOwns, hstream]
    exact h.owns_eq

theorem streamOwns_gather (s : Session) (bytes : Bytes) :
    (s.gather bytes).2.streamOwns = s.streamOwns := by
  unfold Session.gather
  split
  · rfl
  · exact streamOwns_passOn _

/-- A piece of the body, even if it makes what is left too long. -/
theorem Live.gather (h : s.Live i body) (bytes : Bytes) :
    (s.gather bytes).2.Live i (Document.split (body ++ bytes)).2 ∧
      (s.gather bytes).2.hub =
        s.hub.update i (Feed.publishAll (Document.split (body ++ bytes)).1) := by
  obtain ⟨hnext, hhub⟩ := h.toPublishing.gather bytes
  refine ⟨⟨hnext, ?_⟩, hhub⟩
  rw [streamOwns_gather]
  exact h.owns_eq

/-- The end of the reply ends the stream. -/
theorem Live.finish (h : s.Live i body) :
    s.finish.1 = .ok none ∧ s.finish.2.Over ∧ s.finish.2.hub = s.hub.update i .complete := by
  have hhub : s.close.hub = s.hub.update i .complete := by
    simp only [close, endStream, h.feed_eq]
  obtain ⟨head, hassembly⟩ := h.assembly_eq
  rw [finish_of_owns h.owns_eq]
  refine ⟨rfl, ⟨rfl, ?_⟩, hhub⟩
  simp only [close, endStream, hassembly]
  rfl

/-- The end of the reply, with the last piece of the body, ends the stream unless the piece makes
what is left too long. -/
theorem Live.last (h : s.Live i body) (hbody : cut? Document.mark body = none) (bytes : Bytes)
    (hok : ∀ cause, (s.receive (.last bytes)).1 ≠ .error cause) :
    (s.receive (.last bytes)).2.Over ∧ (s.receive (.last bytes)).2.hub =
      (s.hub.update i (Feed.publishAll (Document.split (body ++ bytes)).1)).update i .complete := by
  cases bytes with
  | nil =>
    rw [List.append_nil, Document.split_of_cut?_eq_none hbody, Hub.update_publishAll_nil]
    exact h.finish.2
  | cons b bytes =>
    obtain ⟨hnext, hhub⟩ := h.gather (b :: bytes)
    rw [receive] at hok ⊢
    rcases hgathered : s.gather (b :: bytes) with ⟨_ | _, s'⟩
    · rw [hgathered] at hok
      exact absurd rfl (hok _)
    · rw [hgathered] at hnext hhub
      obtain ⟨-, hover, hended⟩ := hnext.finish
      exact ⟨hover, hended.trans (by rw [hhub])⟩

/-- After the end of the reply no piece of it can come. -/
theorem Over.gather (h : s.Over) (bytes : Bytes) : s.gather bytes = (.error .strayContent, s) := by
  have hnone : s.assembly.gather? bytes = none := by
    rw [← Option.not_isSome_iff_eq_none, Assembly.isSome_gather?, h.isOpen_eq]
    exact Bool.false_ne_true
  rw [Session.gather, hnone]

/-- After the end of the reply it cannot end. -/
theorem Over.finish (h : s.Over) : s.finish = (.error .strayEnd, s) := by
  have hnone : s.assembly.finish? = none := by
    have hopen := h.isOpen_eq
    cases hassembly : s.assembly with
    | fresh => rfl
    | idle => rfl
    | gathering head body =>
      rw [hassembly] at hopen
      cases hopen
  have howns : s.streamOwns = false := by
    rw [streamOwns, h.stream_eq]
    rfl
  rw [finish_of_not_owns howns, hnone]

/-- After the end of the reply every frame of its body is a fault. -/
theorem Over.receive (h : s.Over) (bytes : Bytes) :
    (s.receive (.content bytes)).1 = .error .strayContent ∧
      ∃ cause, (s.receive (.last bytes)).1 = .error cause := by
  constructor
  · simp only [Session.receive, h.gather]
    rfl
  · cases bytes with
    | nil => exact ⟨.strayEnd, by rw [Session.receive, h.finish]⟩
    | cons b bytes => exact ⟨.strayContent, by rw [Session.receive, h.gather]⟩

section

variable (s : Session) (head : Header)

theorem assembly_makeWay : (s.makeWay head).assembly = .start head := by
  unfold makeWay
  split <;> rfl

theorem host_makeWay : (s.makeWay head).host = s.host := by
  unfold makeWay
  split <;> rfl

theorem settings_makeWay : (s.makeWay head).settings = s.settings := by
  unfold makeWay
  split <;> rfl

/-- An older stream ends, but its feed keeps its number. -/
theorem length_feeds_makeWay : (s.makeWay head).hub.feeds.length = s.hub.feeds.length := by
  unfold makeWay
  split
  · unfold endStream
    split
    · exact List.length_modify _ _ _
    · rfl
  · rfl

end

/-- The head of a successful streaming reply answers the first request with a stream, whose feed is
new. -/
theorem start_streaming {t : Ticket} {rest : List Ticket} {head : Header}
    (hqueue : s.outstanding.queue = t :: rest) (hkind : t.request.kind.isStreaming = true)
    (hcode : head.code = 200 ∨ head.code = 201) :
    (s.start head).1 =
        .ok (some (.bucketStreaming ⟨some s.hub.feeds.length⟩ s.host .success t)) ∧
      (s.start head).2.Live s.hub.feeds.length [] ∧
      (s.start head).2.hub.feeds[s.hub.feeds.length]? =
        some (Feed.ofCapacity s.settings.streamCapacity.toNat).park := by
  have hqueue' : (s.makeWay head).outstanding.queue = t :: rest :=
    (s.queue_makeWay head).trans hqueue
  have hcarry : (s.makeWay head).outstanding.carry? = some (t, ⟨rest, some t⟩) := by
    simp only [Outstanding.carry?, hqueue']
  have hstatus : Status.ofCode head.code = .success := if_pos hcode
  have hopen : (s.makeWay head).openStream head.code =
      (.ok (.bucketStreaming ⟨some s.hub.feeds.length⟩ s.host .success t), { s.makeWay head with
        outstanding := ⟨rest, some t⟩
        stream := some ⟨some s.hub.feeds.length, t, true⟩
        hub := ⟨(s.makeWay head).hub.feeds ++
          [(Feed.ofCapacity s.settings.streamCapacity.toNat).park]⟩ }) := by
    rw [← length_feeds_makeWay s head, ← host_makeWay s head, ← settings_makeWay s head]
    simp only [openStream, hcarry, hstatus]
    rfl
  rw [start_of_streaming hqueue hkind, hopen]
  refine ⟨rfl, ⟨⟨rfl, head, s.assembly_makeWay head⟩, rfl⟩, ?_⟩
  rw [← length_feeds_makeWay s head]
  exact List.getElem?_concat_length

end Session

end ClusterLink
