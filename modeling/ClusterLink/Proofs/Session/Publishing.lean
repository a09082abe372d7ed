import ClusterLink.Proofs.Document
import ClusterLink.Proofs.Feed
import ClusterLink.Proofs.Session.Attribution
import ClusterLink.Proofs.Session.Streams

/-!
# What is published of a body that comes in pieces

While a stream is open, each piece of a body is put behind what is left of the
pieces before, and the documents that become complete are published to the feed
of the stream (`Publishing.gather`). So the documents published of some pieces
are those of all the pieces together (`Publishing.gatherAll`).

The head of another reply leaves the stream open but begins with an empty body:
what was left of the pieces before it is given up. The documents published after
such a head are therefore those of the later pieces alone, and just the same as
without it if nothing was left (`run_interrupted`).
-/

namespace ClusterLink

open Reply (Frame Header)
open Text

namespace Hub

theorem update_publishAll_nil (h : Hub) (i : Nat) : h.update i (Feed.publishAll []) = h :=
  congrArg Hub.mk (List.modify_id i h.feeds)

theorem update_publishAll_append (h : Hub) (i : Nat) (documents more : List String) :
    h.update i (Feed.publishAll (documents ++ more)) =
      (h.update i (Feed.publishAll documents)).update i (Feed.publishAll more) := by
  have hcompose : Feed.publishAll (documents ++ more) =
      Feed.publishAll more ∘ Feed.publishAll documents :=
    funext fun f => Feed.publishAll_append documents more f
  rw [hcompose]
  exact congrArg Hub.mk (List.modify_modify_eq _ _ _ _).symm

end Hub

namespace Session

/-- A stream is open that publishes to the feed `i`, and `body` is left of the body so far. -/
structure Publishing (s : Session) (i : Nat) (body : Bytes) : Prop where
  /-- The stream has the feed. -/
  feed_eq : s.stream.bind (·.feed) = some i
  /-- A reply is in progress of which this is left. -/
  assembly_eq : ∃ head, s.assembly = .gathering head body

/-- The session after some pieces of a body. -/
def gatherAll (s : Session) (pieces : List Bytes) : Session :=
  pieces.foldl (fun s bytes => (s.receive (.content bytes)).2) s

variable {s : Session} {i : Nat} {body : Bytes}

/-- What is passed on to a stream with a feed: the complete documents are published, and what stands
behind them is left. -/
theorem passOn_of_feed {stream : OpenStream} (hstream : s.stream = some stream)
    (hfeed : stream.feed = some i) : ∃ ticket outstanding, s.passOn = { s with
      outstanding := outstanding
      stream := some { stream with ticket := ticket }
      assembly := s.assembly.withBody (Document.split s.assembly.body).2
      hub := s.hub.update i (Feed.publishAll (Document.split s.assembly.body).1) } := by
  simp only [passOn, hstream, hfeed]
  exact ⟨_, _, rfl⟩

/-- A piece of the body publishes the documents that it completes. -/
theorem Publishing.gather (h : s.Publishing i body) (bytes : Bytes) :
    (s.gather bytes).2.Publishing i (Document.split (body ++ bytes)).2 ∧
      (s.gather bytes).2.hub =
        s.hub.update i (Feed.publishAll (Document.split (body ++ bytes)).1) := by
  obtain ⟨hfeed, head, hassembly⟩ := h
  obtain ⟨stream, hstream, hfeed⟩ := Option.bind_eq_some_iff.1 hfeed
  obtain ⟨ticket, outstanding, hpass⟩ :=
    passOn_of_feed (s := { s with assembly := .gathering head (body ++ bytes) }) hstream hfeed
  have hgather : (s.gather bytes).2 =
      passOn { s with assembly := .gathering head (body ++ bytes) } := by
    simp only [Session.gather, hassembly, Assembly.gather?]
  rw [hgather, hpass]
  exact ⟨⟨hfeed, head, rfl⟩, rfl⟩

/-- Pieces of the body publish the documents that they complete together. -/
theorem Publishing.gatherAll (h : s.Publishing i body) (hbody : cut? Document.mark body = none)
    (pieces : List Bytes) :
    (s.gatherAll pieces).hub =
      s.hub.update i (Feed.publishAll (Document.split (body ++ pieces.flatten)).1) := by
  induction pieces generalizing s body with
  | nil =>
    rw [List.flatten_nil, List.append_nil, Document.split_of_cut?_eq_none hbody]
    exact (Hub.update_publishAll_nil _ _).symm
  | cons piece pieces ih =>
    obtain ⟨hnext, hhub⟩ := h.gather piece
    have hrest := ih hnext (Document.cut?_split _)
    show (((s.gather piece).2).gatherAll pieces).hub = _
    rw [hrest, hhub, List.flatten_cons, ← List.append_assoc, Document.split_append (body ++ piece),
      Hub.update_publishAll_append]

/-! ### The head of another reply -/

/-- A stream with a feed stays open when the reply to an ordinary request begins, but the body
begins anew. -/
theorem publishing_start {t : Ticket} {rest : List Ticket} (h : s.stream.bind (·.feed) = some i)
    (hqueue : s.queue = t :: rest) (hkind : t.request.kind.isStreaming = false) (head : Header) :
    (s.start head).1 = .ok none ∧ (s.start head).2.hub = s.hub ∧
      (s.start head).2.Publishing i [] := by
  obtain ⟨stream, hstream, hfeed⟩ := Option.bind_eq_some_iff.1 h
  have hstart : s.start head = (.ok none, { s with
      assembly := .start head
      stream := some { stream with ownsReply := false } }) := by
    simp only [start_of_ordinary hqueue hkind, yieldReply, hstream, hfeed, Option.isSome_some,
      if_true]
  rw [hstart]
  exact ⟨rfl, rfl, hfeed, head, rfl⟩

/-! ### What is left in a session that publishes -/

/-- Of a body that is published, no complete document is left. -/
def Settled (s : Session) : Prop :=
  s.isStreaming = true → cut? Document.mark s.assembly.body = none

theorem Settled.of_body_eq_nil (h : s.assembly.body = []) : s.Settled := by
  intro _
  rw [h]
  exact cut?_nil Document.mark_ne_nil

theorem Settled.of_not_isStreaming (h : s.isStreaming = false) : s.Settled := by
  intro hstreaming
  rw [h] at hstreaming
  cases hstreaming

theorem assembly_openStream (s : Session) (code : UInt16) :
    (s.openStream code).2.assembly = s.assembly := by
  unfold openStream
  split
  · rfl
  · dsimp only
    split <;> rfl

theorem Settled.start (h : s.Settled) (head : Header) : (s.start head).2.Settled := by
  unfold Session.start
  split
  · exact h
  · dsimp only
    split
    · refine .of_body_eq_nil ?_
      rw [assembly_openStream]
      split <;> rfl
    · refine .of_body_eq_nil ?_
      rw [assembly_yieldReply]
      rfl

theorem isStreaming_passOn (s : Session) : s.passOn.isStreaming = s.isStreaming := by
  obtain h | ⟨_, _, _, _, _, hstream, -, -, h⟩ := s.passOn_cases
  · rw [h]
  · rw [h, isStreaming, isStreaming, hstream]
    rfl

theorem Settled.gather (h : s.Settled) (bytes : Bytes) : (s.gather bytes).2.Settled := by
  cases hassembly : s.assembly with
  | gathering head body =>
    cases hfeed : s.stream.bind (·.feed) with
    | none =>
      refine .of_not_isStreaming ?_
      simp only [Session.gather, hassembly, Assembly.gather?, isStreaming_passOn]
      rw [isStreaming, hfeed]
      rfl
    | some i =>
      intro _
      obtain ⟨⟨-, head', hnext⟩, -⟩ := Publishing.gather ⟨hfeed, head, hassembly⟩ bytes
      rw [hnext]
      exact Document.cut?_split _
  | fresh =>
    simp only [Session.gather, hassembly, Assembly.gather?]
    exact h
  | idle =>
    simp only [Session.gather, hassembly, Assembly.gather?]
    exact h

theorem Settled.finish (h : s.Settled) : s.finish.2.Settled := by
  unfold Session.finish
  split
  · exact .of_not_isStreaming rfl
  · split
    · exact h
    · rename_i reply assembly hdone
      have hbody : assembly.body = [] := by
        cases hassembly : s.assembly <;> rw [hassembly] at hdone <;> cases hdone
        rfl
      dsimp only
      split
      · exact .of_body_eq_nil hbody
      · split
        · exact .of_body_eq_nil hbody
        · exact .of_body_eq_nil hbody

theorem Settled.receive (h : s.Settled) (frame : Frame) : (s.receive frame).2.Settled :=
  receive_keeps (fun head h => h.start head) (fun bytes h => h.gather bytes) (fun h => h.finish) h
    frame

namespace History

/-- Whatever happens to a session, its stream in progress has the only active feed, and nothing is
left that could have been published. -/
theorem session_act (r : History) (event : Event)
    (h : r.session.OneFeed ∧ r.session.Settled) :
    (r.act event).session.OneFeed ∧ (r.act event).session.Settled := by
  obtain ⟨hone, hsettled⟩ := h
  cases event with
  | submit t => exact ⟨hone, hsettled⟩
  | receive frame =>
    show (r.note frame _).session.OneFeed ∧ (r.note frame _).session.Settled
    rw [session_note]
    exact ⟨hone.receive frame, hsettled.receive frame⟩
  | close => exact ⟨hone.close, .of_not_isStreaming rfl⟩
  | drain => exact ⟨hone, hsettled⟩
  | subscribe stream => exact ⟨hone.of_hub (Hub.isActive_subscribe _ _), hsettled⟩
  | unsubscribe sub => exact ⟨hone.of_hub (Hub.isActive_unsubscribe _ _), hsettled⟩
  | next sub => exact ⟨hone.of_hub (Hub.isActive_next _ _), hsettled⟩

theorem session_run (r : History) (events : List Event)
    (h : r.session.OneFeed ∧ r.session.Settled) :
    (r.run events).session.OneFeed ∧ (r.run events).session.Settled := by
  induction events generalizing r with
  | nil => exact h
  | cons event events ih => exact ih _ (r.session_act event h)

/-- **The head of another reply in the middle of a stream.** In any session in which a stream is
open with a feed and an ordinary request is first in the queue, a head leaves the feed as it is. The
later pieces of the body publish there the documents of these pieces alone, where without the head
they complete what was left of the pieces before. So nothing changes if nothing was left. -/
theorem run_interrupted (host : String) (settings : Settings) (events : List Event) {s : Session}
    {stream : OpenStream} {i : Nat} {t : Ticket} {rest : List Ticket}
    (hs : ((History.start host settings).run events).session = s) (hstream : s.stream = some stream)
    (hfeed : stream.feed = some i) (hopen : s.assembly.isOpen = true)
    (hqueue : s.outstanding.queue = t :: rest) (hkind : t.request.kind.isStreaming = false)
    (head : Header) (pieces : List Bytes) :
    s.hub.isActive ⟨some i⟩ = true ∧
      (s.receive (.header head)).1 = .ok none ∧
      ((s.receive (.header head)).2.gatherAll pieces).hub =
        s.hub.update i (Feed.publishAll (Document.split pieces.flatten).1) ∧
      (s.gatherAll pieces).hub =
        s.hub.update i (Feed.publishAll (Document.split (s.assembly.body ++ pieces.flatten)).1) ∧
      (s.assembly.body = [] →
        ((s.receive (.header head)).2.gatherAll pieces).hub = (s.gatherAll pieces).hub) := by
  have hnew : (History.start host settings).session.Settled := .of_not_isStreaming rfl
  obtain ⟨hone, hsettled⟩ := session_run (start host settings) events ⟨.new host settings, hnew⟩
  rw [hs] at hone hsettled
  have hbind : s.stream.bind (·.feed) = some i := by
    rw [hstream, Option.bind_some, hfeed]
  obtain ⟨hresult, hhub, hanew⟩ := publishing_start hbind hqueue hkind head
  have hinterrupted : ((s.receive (.header head)).2.gatherAll pieces).hub =
      s.hub.update i (Feed.publishAll (Document.split pieces.flatten).1) := by
    show ((s.start head).2.gatherAll pieces).hub = _
    rw [hanew.gatherAll (cut?_nil Document.mark_ne_nil), hhub, List.nil_append]
  have hpublishing : s.Publishing i s.assembly.body := by
    refine ⟨hbind, ?_⟩
    cases hassembly : s.assembly with
    | gathering head body => exact ⟨head, rfl⟩
    | fresh =>
      rw [hassembly] at hopen
      cases hopen
    | idle =>
      rw [hassembly] at hopen
      cases hopen
  have hbody : cut? Document.mark s.assembly.body = none :=
    hsettled (by rw [isStreaming, hbind]; rfl)
  have hwhole := hpublishing.gatherAll hbody pieces
  refine ⟨(hone i).2 hbind, hresult, hinterrupted, hwhole, fun hnil => ?_⟩
  rw [hinterrupted, hwhole, hnil, List.nil_append]

/-- A stream begins, a byte of its first document comes, and an ordinary request waits. -/
def halfwayEvents : List Event :=
  [.submit ⟨0, .bucketStreaming, "/s", "b", ""⟩, .submit ⟨1, .bucketConfig, "/c", "b", ""⟩,
    .receive (.header ⟨200, "OK", []⟩), .receive (.content [97])]

/-- The session after that. -/
def halfway : Session where
  host := "h"
  settings := {}
  assembly := .gathering ⟨200, "OK", []⟩ [97]
  outstanding := ⟨[⟨1, .bucketConfig, "/c", "b", ""⟩], none⟩
  stream := some ⟨some 0, ⟨0, .bucketStreaming, "/s", "b", ""⟩, true⟩
  hub := ⟨[{ capacity := 64, receivers := 1, parked := some 0 }]⟩

theorem session_halfwayEvents : ((start "h" {}).run halfwayEvents).session = halfway := by
  decide +kernel

/-- The head comes when a byte of a document is left, and then the rest of the document in two
pieces, cut within the mark. -/
theorem run_interrupted_halfway :
    ((start "h" {}).run halfwayEvents).session = halfway ∧
      halfway.stream = some ⟨some 0, ⟨0, .bucketStreaming, "/s", "b", ""⟩, true⟩ ∧
      halfway.assembly.isOpen = true ∧
      halfway.outstanding.queue = [⟨1, .bucketConfig, "/c", "b", ""⟩] ∧
      ((halfway.receive (.header ⟨404, "", []⟩)).2.gatherAll [[98, 10, 10], [10, 10]]).hub =
        halfway.hub.update 0 (Feed.publishAll ["b"]) ∧
      (halfway.gatherAll [[98, 10, 10], [10, 10]]).hub =
        halfway.hub.update 0 (Feed.publishAll ["ab"]) := by
  obtain ⟨-, -, hinterrupted, hwhole, -⟩ := run_interrupted "h" {} halfwayEvents
    session_halfwayEvents rfl rfl rfl rfl rfl ⟨404, "", []⟩ [[98, 10, 10], [10, 10]]
  have hlater : Document.split [[98, 10, 10], [10, 10]].flatten = (["b"], []) := by
    decide +kernel
  have hall : Document.split (halfway.assembly.body ++ [[98, 10, 10], [10, 10]].flatten) =
      (["ab"], []) := by
    decide +kernel
  rw [hlater] at hinterrupted
  rw [hall] at hwhole
  exact ⟨session_halfwayEvents, rfl, rfl, rfl, hinterrupted, hwhole⟩

/-- A head between two parts of a document loses the first and publishes the second as a document,
where without the head the whole document is published. -/
theorem run_interrupted_lost :
    ((start "h" {}).run halfwayEvents).session = halfway ∧
      halfway.stream = some ⟨some 0, ⟨0, .bucketStreaming, "/s", "b", ""⟩, true⟩ ∧
      halfway.assembly.isOpen = true ∧
      halfway.outstanding.queue = [⟨1, .bucketConfig, "/c", "b", ""⟩] ∧
      ((halfway.receive (.header ⟨200, "OK", []⟩)).2.gatherAll
        [[98, 10, 10, 10, 10]]).hub.feeds.map (·.kept) = [["b"]] ∧
      (halfway.gatherAll [[98, 10, 10, 10, 10]]).hub.feeds.map (·.kept) = [["ab"]] := by
  refine ⟨session_halfwayEvents, rfl, rfl, rfl, ?_, ?_⟩
  · decide +kernel
  · decide +kernel

end History

end Session

end ClusterLink
