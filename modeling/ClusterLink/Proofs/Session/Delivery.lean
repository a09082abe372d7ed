import ClusterLink.Proofs.Session.Streaming

/-!
# What the first subscription to a stream gets

A streaming request is answered by the head of its reply, and the body that
follows is published document by document. Here it is shown that the documents
published are those of the whole body, however it is cut into pieces, and that
the first subscription to the stream gets every one of them, in order, even if it
is taken when the stream has already ended (`run_delivered`). Only a subscriber
that falls behind further than the feed keeps documents loses some.

## The argument

The invariant has two parts. The first is about the session (`Delivery.Inv`): the
feed holds the documents of the body so far, and the session what is left of it.
The second is about the subscriber (`Delivery.Reads`): what it has got is a prefix
of these documents, and its place is the number of the next.
-/

namespace ClusterLink

open Reply (Frame Header)
open Text

namespace Feed

/-- The document that a receiver gets, if it gets one. -/
def Next.document? : Next → Option String
  | document text => some text
  | _ => none

end Feed

namespace Session

/-- A stream that has begun, with its first subscription. -/
structure Delivery where
  /-- The session with what it has been through. -/
  history : History
  /-- The stream. -/
  stream : Stream
  /-- The first subscription to it, as soon as there is one. -/
  first : Option Subscription := none
  /-- The documents that the first subscription has got, in order. -/
  got : List String := []
  deriving DecidableEq, Repr

namespace Delivery

/-- One thing that happens while the reply to a streaming request comes. -/
inductive Event where
  /-- A request is submitted. -/
  | submit (t : Ticket)
  /-- A piece of the body comes. -/
  | content (bytes : Bytes)
  /-- The reply ends, with the last piece of the body. -/
  | last (bytes : Bytes)
  /-- A caller subscribes to a stream, to this one or another. -/
  | subscribe (stream : Stream)
  /-- A caller asks another subscription than the first for the next document. -/
  | next (sub : Subscription)
  /-- The first subscription, if there is one, is asked for the next document. -/
  | read
  deriving DecidableEq, Repr

/-- The bytes of the body that come. -/
def Event.body : Event → Bytes
  | content bytes => bytes
  | last bytes => bytes
  | _ => []

/-- Whether the reply ends. -/
def Event.isLast : Event → Bool
  | last _ => true
  | _ => false

/-- The complete documents of the body that comes in some events. -/
def documents (events : List Event) : List String :=
  (Document.split (events.flatMap Event.body)).1

/-- Whether the reply ends in some events. -/
def ended (events : List Event) : Bool :=
  events.any Event.isLast

/-- A stream begins with the head of its reply; its feed is a new one. -/
def start (r : History) (head : Header) : Delivery where
  history := r.act (.receive (.header head))
  stream := ⟨some r.session.hub.feeds.length⟩

/-- The hub of the session. -/
def hub (d : Delivery) : Hub :=
  d.history.session.hub

/-- The feed of the stream. -/
def feed? (d : Delivery) : Option Feed :=
  d.stream.feed.bind (d.hub.feeds[·]?)

/-- What one more event makes of a stream. -/
def act (d : Delivery) : Event → Delivery
  | .submit t => { d with history := d.history.act (.submit t) }
  | .content bytes => { d with history := d.history.act (.receive (.content bytes)) }
  | .last bytes => { d with history := d.history.act (.receive (.last bytes)) }
  | .subscribe stream =>
    { d with
      history := d.history.act (.subscribe stream)
      first := if stream = d.stream then d.first.or (some (d.hub.subscribe stream).1) else d.first }
  | .next sub => { d with history := d.history.act (.next sub) }
  | .read =>
    match d.first with
    | none => d
    | some sub =>
      { d with
        history := d.history.act (.next sub)
        first := some (d.hub.next sub).2.1
        got := d.got ++ (d.hub.next sub).1.document?.toList }

/-- What some events make of a stream. -/
def run (d : Delivery) (events : List Event) : Delivery :=
  events.foldl act d

/-- Whether all that the first subscription has yet to get is still kept. -/
def inReach (d : Delivery) : Bool :=
  d.feed?.all fun f => f.total ≤ d.got.length + f.capacity

/-- Whether that is so at every moment of some events. -/
def keepsUp (d : Delivery) : List Event → Bool
  | [] => d.inReach
  | event :: events => d.inReach && (d.act event).keepsUp events

variable {d : Delivery} {i capacity : Nat} {bytes : Bytes} {isOver : Bool}

theorem act_read_of_none (h : d.first = none) : d.act .read = d := by
  simp only [act, h]

theorem act_read_of_some {sub : Subscription} (h : d.first = some sub) :
    d.act .read = { d with
      history := d.history.act (.next sub)
      first := some (d.hub.next sub).2.1
      got := d.got ++ (d.hub.next sub).1.document?.toList } := by
  simp only [act, h]

theorem stream_act (d : Delivery) (event : Event) : (d.act event).stream = d.stream := by
  cases event with
  | read =>
    cases hfirst : d.first with
    | none => rw [act_read_of_none hfirst]
    | some sub => rw [act_read_of_some hfirst]
  | _ => rfl

/-- There is a first subscription as soon as somebody has subscribed to the stream. -/
theorem isSome_first_act (d : Delivery) (event : Event)
    (h : event = .subscribe d.stream ∨ d.first.isSome) : (d.act event).first.isSome := by
  cases event with
  | subscribe stream =>
    show (if stream = d.stream then d.first.or _ else d.first).isSome
    split
    · rw [Option.isSome_or, Option.isSome_some, Bool.or_true]
    · rename_i hne
      refine h.resolve_left fun heq => hne ?_
      cases heq
      rfl
  | read =>
    cases hfirst : d.first with
    | none =>
      rw [hfirst] at h
      obtain h | h := h <;> cases h
    | some sub =>
      rw [act_read_of_some hfirst]
      rfl
  | submit t => exact h.resolve_left fun heq => by cases heq
  | content bytes => exact h.resolve_left fun heq => by cases heq
  | last bytes => exact h.resolve_left fun heq => by cases heq
  | next sub => exact h.resolve_left fun heq => by cases heq

theorem isSome_first_run (d : Delivery) (events : List Event)
    (h : .subscribe d.stream ∈ events ∨ d.first.isSome) : (d.run events).first.isSome := by
  induction events generalizing d with
  | nil => exact h.resolve_left List.not_mem_nil
  | cons event events ih =>
    refine ih (d.act event) ?_
    rw [stream_act]
    obtain h | h := h
    · obtain rfl | h := List.mem_cons.1 h
      · exact .inr (d.isSome_first_act _ (.inl rfl))
      · exact .inl h
    · exact .inr (d.isSome_first_act _ (.inr h))

/-! ### Faults -/

theorem prefix_faults_act (d : Delivery) (event : Event) :
    d.history.faults <+: (d.act event).history.faults := by
  cases event with
  | submit t => exact d.history.prefix_faults_act _
  | content bytes => exact d.history.prefix_faults_act (.receive (.content bytes))
  | last bytes => exact d.history.prefix_faults_act (.receive (.last bytes))
  | subscribe stream => exact d.history.prefix_faults_act (.subscribe stream)
  | next sub => exact d.history.prefix_faults_act (.next sub)
  | read =>
    cases hfirst : d.first with
    | none => exact ⟨[], by rw [act_read_of_none hfirst, List.append_nil]⟩
    | some sub =>
      rw [act_read_of_some hfirst]
      exact d.history.prefix_faults_act (.next sub)

theorem prefix_faults_run (d : Delivery) (events : List Event) :
    d.history.faults <+: (d.run events).history.faults := by
  induction events generalizing d with
  | nil => exact List.prefix_rfl
  | cons event events ih => exact (d.prefix_faults_act event).trans (ih _)

/-- If some events add no fault, neither the first nor the others do. -/
theorem faults_of_run_cons {event : Event} {events : List Event}
    (h : (d.run (event :: events)).history.faults = d.history.faults) :
    (d.act event).history.faults = d.history.faults ∧
      ((d.act event).run events).history.faults = (d.act event).history.faults := by
  have hfirst := d.prefix_faults_act event
  have hothers := (d.act event).prefix_faults_run events
  have hrun : (d.act event).run events = d.run (event :: events) := rfl
  rw [hrun, h] at hothers ⊢
  have heq : (d.act event).history.faults = d.history.faults :=
    hothers.eq_of_length_le hfirst.length_le
  exact ⟨heq, heq.symm⟩

/-! ### The stream -/

/-- A stream to which these bytes of the body have come. -/
structure Inv (d : Delivery) (i capacity : Nat) (bytes : Bytes) (isOver : Bool) : Prop where
  /-- The feed has its number. -/
  stream_eq : d.stream = ⟨some i⟩
  /-- The documents of the bytes have been published; the first subscription can have them all. -/
  feed : ∃ f, d.hub.feeds[i]? = some f ∧
    f.Delivers capacity (Document.split bytes).1 isOver ∧ (d.first = none → f.parked = some 0)
  /-- Until the end, the session goes on with what is left of the bytes. -/
  live : isOver = false → d.history.session.Live i (Document.split bytes).2
  /-- After the end, no reply is in progress. -/
  done : isOver = true → d.history.session.Over

theorem Inv.start {r : History} {head : Header} {t : Ticket} {rest : List Ticket}
    (hqueue : r.session.outstanding.queue = t :: rest)
    (hkind : t.request.kind.isStreaming = true) (hcode : head.code = 200 ∨ head.code = 201) :
    (Delivery.start r head).Inv r.session.hub.feeds.length
      (Feed.ofCapacity r.session.settings.streamCapacity.toNat).capacity [] false := by
  obtain ⟨-, hlive, hfeed⟩ := start_streaming hqueue hkind hcode
  have hsession : (Delivery.start r head).history.session = (r.session.start head).2 :=
    History.session_note _ _ _
  have hsplit : Document.split [] = ([], []) :=
    Document.split_of_cut?_eq_none (cut?_nil Document.mark_ne_nil)
  have hnew : (Delivery.start r head).hub.feeds[r.session.hub.feeds.length]? =
      some (Feed.ofCapacity r.session.settings.streamCapacity.toNat).park := by
    rw [hub, hsession]
    exact hfeed
  refine ⟨rfl, ⟨_, hnew, ?_, fun _ => rfl⟩, ?_, ?_⟩
  · rw [hsplit]
    exact .new _
  · intro _
    rw [hsession, hsplit]
    exact hlive
  · intro hover
    cases hover

theorem Inv.submit (h : d.Inv i capacity bytes isOver) (t : Ticket) :
    (d.act (.submit t)).Inv i capacity bytes isOver where
  stream_eq := h.stream_eq
  feed := h.feed
  live := fun hlive => (h.live hlive).congr rfl rfl
  done := fun hover => ⟨(h.done hover).stream_eq, (h.done hover).isOpen_eq⟩

/-- Callers change the hub only. -/
theorem Inv.of_hub (h : d.Inv i capacity bytes isOver) {hub : Hub} {first : Option Subscription}
    (hfeed : ∃ f, hub.feeds[i]? = some f ∧
      f.Delivers capacity (Document.split bytes).1 isOver ∧ (first = none → f.parked = some 0))
    (got : List String) :
    Inv { d with
      history := { d.history with session := { d.history.session with hub := hub } }
      first := first
      got := got } i capacity bytes isOver where
  stream_eq := h.stream_eq
  feed := hfeed
  live := fun hlive => (h.live hlive).congr rfl rfl
  done := fun hover => ⟨(h.done hover).stream_eq, (h.done hover).isOpen_eq⟩

/-- Whoever reads takes nothing from the others. -/
theorem Inv.feed_next (h : d.Inv i capacity bytes isOver) (sub : Subscription) :
    ∃ f, (d.hub.next sub).2.2.feeds[i]? = some f ∧
      f.Delivers capacity (Document.split bytes).1 isOver ∧
        (d.first = none → f.parked = some 0) := by
  obtain ⟨f, hfeed, hdelivers, hparked⟩ := h.feed
  obtain hsame | ⟨hactive, hdetach⟩ := Hub.getElem?_next sub hfeed
  · exact ⟨f, hsame, hdelivers, hparked⟩
  · exact ⟨f.detach, hdetach, hdelivers.detach hactive, hparked⟩

theorem Inv.subscribe (h : d.Inv i capacity bytes isOver) (stream : Stream) :
    (d.act (.subscribe stream)).Inv i capacity bytes isOver := by
  refine h.of_hub ?_ d.got
  obtain ⟨f, hfeed, hdelivers, hparked⟩ := h.feed
  rw [h.stream_eq]
  split
  · rename_i hstream
    subst hstream
    show ∃ f, (d.hub.subscribe ⟨some i⟩).2.feeds[i]? = some f ∧ _
    rw [Hub.subscribe_eq hfeed]
    split
    · rename_i hsub
      refine ⟨_, Hub.getElem?_update_self hfeed _, hdelivers.subscribe? hsub, ?_⟩
      intro hnone
      cases (Option.or_eq_none_iff.1 hnone).2
    · refine ⟨f, hfeed, hdelivers, ?_⟩
      intro hnone
      exact hparked (Option.or_eq_none_iff.1 hnone).1
  · rename_i hne
    refine ⟨f, ?_, hdelivers, hparked⟩
    rw [← hfeed]
    exact Hub.getElem?_subscribe_of_ne hne

theorem Inv.next (h : d.Inv i capacity bytes isOver) (sub : Subscription) :
    (d.act (.next sub)).Inv i capacity bytes isOver :=
  h.of_hub (h.feed_next sub) d.got

theorem Inv.read (h : d.Inv i capacity bytes isOver) :
    (d.act .read).Inv i capacity bytes isOver := by
  cases hfirst : d.first with
  | none =>
    rw [act_read_of_none hfirst]
    exact h
  | some sub =>
    obtain ⟨f, hfeed, hdelivers, -⟩ := h.feed_next sub
    rw [act_read_of_some hfirst]
    refine h.of_hub ⟨f, hfeed, hdelivers, ?_⟩ _
    intro hnone
    cases hnone

/-- A frame of the body that is no fault comes before the end. -/
theorem Inv.isOver_eq_false (h : d.Inv i capacity bytes isOver) {more : Bytes}
    (hfaults : (d.act (.content more)).history.faults = d.history.faults ∨
      (d.act (.last more)).history.faults = d.history.faults) : isOver = false := by
  cases isOver with
  | false => rfl
  | true =>
    obtain ⟨hcontent, cause, hlast⟩ := (h.done rfl).receive more
    obtain hfaults | hfaults := hfaults
    · exact absurd hcontent (History.ne_error_of_faults_note _ _ _ hfaults _)
    · exact absurd hlast (History.ne_error_of_faults_note _ _ _ hfaults _)

theorem Inv.content (h : d.Inv i capacity bytes isOver) {more : Bytes}
    (hfaults : (d.act (.content more)).history.faults = d.history.faults) :
    (d.act (.content more)).Inv i capacity (bytes ++ more) isOver := by
  have hover := h.isOver_eq_false (.inl hfaults)
  subst hover
  obtain ⟨f, hfeed, hdelivers, hparked⟩ := h.feed
  obtain ⟨hlive, hhub⟩ := (h.live rfl).gather more
  have hsession : (d.act (.content more)).history.session = (d.history.session.gather more).2 :=
    History.session_note _ _ _
  have hnew := Hub.getElem?_update_self hfeed
    (Feed.publishAll (Document.split ((Document.split bytes).2 ++ more)).1)
  rw [hub, ← hhub, ← hsession] at hnew
  refine ⟨h.stream_eq, ⟨_, hnew, ?_, ?_⟩, ?_, ?_⟩
  · rw [Document.split_append bytes]
    exact hdelivers.publishAll _
  · intro hnone
    rw [Feed.publishAll_eq]
    exact hparked hnone
  · intro _
    rw [hsession, Document.split_append]
    exact hlive
  · intro hended
    cases hended

theorem Inv.last (h : d.Inv i capacity bytes isOver) {more : Bytes}
    (hfaults : (d.act (.last more)).history.faults = d.history.faults) :
    (d.act (.last more)).Inv i capacity (bytes ++ more) true := by
  have hover := h.isOver_eq_false (.inr hfaults)
  subst hover
  obtain ⟨f, hfeed, hdelivers, hparked⟩ := h.feed
  obtain ⟨hover, hhub⟩ := (h.live rfl).last (Document.cut?_split _) more
    (History.ne_error_of_faults_note _ _ _ hfaults)
  have hsession : (d.act (.last more)).history.session =
      (d.history.session.receive (.last more)).2 :=
    History.session_note _ _ _
  have hnew := Hub.getElem?_update_self (Hub.getElem?_update_self hfeed
    (Feed.publishAll (Document.split ((Document.split bytes).2 ++ more)).1)) .complete
  rw [hub, ← hhub, ← hsession] at hnew
  refine ⟨h.stream_eq, ⟨_, hnew, ?_, ?_⟩, ?_, ?_⟩
  · rw [Document.split_append bytes]
    exact (hdelivers.publishAll _).complete
  · intro hnone
    show (Feed.publishAll _ f).parked = some 0
    rw [Feed.publishAll_eq]
    exact hparked hnone
  · intro hended
    cases hended
  · intro _
    rw [hsession]
    exact hover

/-- Every event that is no fault adds its bytes to those that have come. -/
theorem Inv.act (h : d.Inv i capacity bytes isOver) {event : Event}
    (hfaults : (d.act event).history.faults = d.history.faults) :
    (d.act event).Inv i capacity (bytes ++ event.body) (isOver || event.isLast) := by
  have hcaller {d' : Delivery} (h : d'.Inv i capacity bytes isOver) :
      d'.Inv i capacity (bytes ++ []) (isOver || false) := by
    rw [List.append_nil, Bool.or_false]
    exact h
  cases event with
  | content more =>
    show (d.act (.content more)).Inv i capacity (bytes ++ more) (isOver || false)
    rw [Bool.or_false]
    exact h.content hfaults
  | last more =>
    show (d.act (.last more)).Inv i capacity (bytes ++ more) (isOver || true)
    rw [Bool.or_true]
    exact h.last hfaults
  | submit t => exact hcaller (h.submit t)
  | subscribe stream => exact hcaller (h.subscribe stream)
  | next sub => exact hcaller (h.next sub)
  | read => exact hcaller h.read

theorem Inv.run (h : d.Inv i capacity bytes isOver) {events : List Event}
    (hfaults : (d.run events).history.faults = d.history.faults) :
    (d.run events).Inv i capacity (bytes ++ events.flatMap Event.body)
      (isOver || ended events) := by
  -- the bytes that have come grow along the events, and `Inv` holds of those so far
  induction events generalizing d bytes isOver with
  | nil =>
    rw [List.flatMap_nil, List.append_nil, ended, List.any_nil, Bool.or_false]
    exact h
  | cons event events ih =>
    obtain ⟨hfirst, hothers⟩ := faults_of_run_cons hfaults
    rw [List.flatMap_cons, ← List.append_assoc, ended, List.any_cons, ← Bool.or_assoc]
    exact ih (h.act hfirst) hothers

/-! ### The first subscription -/

/-- The first subscription to a stream to which these bytes of the body have come. -/
structure Reads (d : Delivery) (i : Nat) (bytes : Bytes) (isOver : Bool) : Prop where
  /-- It has got the first documents. -/
  prefix_got : d.got <+: (Document.split bytes).1
  /-- It gets the next one next, unless it has seen the end. -/
  place_eq : ∀ sub, d.first = some sub → sub = ⟨some (i, d.got.length)⟩ ∨
    sub = ⟨none⟩ ∧ isOver = true ∧ d.got = (Document.split bytes).1
  /-- Before there is one, it has got nothing. -/
  got_eq : d.first = none → d.got = []

/-- What the first subscription has got and has yet to get are all documents. -/
theorem Reads.got_append_drop (h : d.Reads i bytes isOver) :
    d.got ++ (Document.split bytes).1.drop d.got.length = (Document.split bytes).1 := by
  obtain ⟨rest, hrest⟩ := h.prefix_got
  rw [← hrest, List.drop_left]

/-- All that the first subscription has yet to get is still kept. -/
theorem Inv.length_le (h : d.Inv i capacity bytes isOver) (hreach : d.inReach = true) {f : Feed}
    (hfeed : d.hub.feeds[i]? = some f) (hholds : f.Holds (Document.split bytes).1) :
    (Document.split bytes).1.length ≤ d.got.length + f.capacity := by
  have hfeed? : d.feed? = some f := by
    rw [feed?, h.stream_eq]
    exact hfeed
  rw [inReach, hfeed?, Option.all_some, decide_eq_true_eq, hholds.total_eq] at hreach
  exact hreach

/-- What the first subscription gets: the next document, or nothing if there is none, and in the end
its place is given up. -/
theorem Inv.next_cases (h : d.Inv i capacity bytes isOver) (hreach : d.inReach = true) :
    (∃ document rest, (Document.split bytes).1.drop d.got.length = document :: rest ∧
      (d.hub.next ⟨some (i, d.got.length)⟩).1.document? = some document ∧
      (d.hub.next ⟨some (i, d.got.length)⟩).2.1 = ⟨some (i, d.got.length + 1)⟩) ∨
    ((Document.split bytes).1.drop d.got.length = [] ∧
      (d.hub.next ⟨some (i, d.got.length)⟩).1.document? = none ∧
      ((d.hub.next ⟨some (i, d.got.length)⟩).2.1 = ⟨some (i, d.got.length)⟩ ∨
        (d.hub.next ⟨some (i, d.got.length)⟩).2.1 = ⟨none⟩ ∧ isOver = true)) := by
  obtain ⟨f, hfeed, hdelivers, -⟩ := h.feed
  have hbehind := h.length_le hreach hfeed hdelivers.toHolds
  rw [Hub.next_eq hfeed hdelivers.toHolds hbehind, hdelivers.active_eq]
  cases (Document.split bytes).1.drop d.got.length with
  | cons document rest => exact .inl ⟨document, rest, rfl, rfl, rfl⟩
  | nil =>
    cases isOver with
    | false => exact .inr ⟨rfl, rfl, .inl rfl⟩
    | true => exact .inr ⟨rfl, rfl, .inr ⟨rfl, rfl⟩⟩

theorem Reads.of_first {sub : Subscription} (hfirst : d.first = some sub)
    (hgot : d.got <+: (Document.split bytes).1) (hplace : sub = ⟨some (i, d.got.length)⟩ ∨
      sub = ⟨none⟩ ∧ isOver = true ∧ d.got = (Document.split bytes).1) :
    d.Reads i bytes isOver := by
  refine ⟨hgot, ?_, ?_⟩
  · intro other hother
    cases hfirst.symm.trans hother
    exact hplace
  · intro hnone
    cases hfirst.symm.trans hnone

theorem Reads.read (h : d.Reads i bytes isOver) (hinv : d.Inv i capacity bytes isOver)
    (hreach : d.inReach = true) : (d.act .read).Reads i bytes isOver := by
  cases hfirst : d.first with
  | none =>
    rw [act_read_of_none hfirst]
    exact h
  | some sub =>
    have hwhole := h.got_append_drop
    obtain rfl | ⟨rfl, hover, hall⟩ := h.place_eq sub hfirst
    · rw [act_read_of_some hfirst]
      obtain ⟨document, rest, hdrop, hgot, hplace⟩ | ⟨hdrop, hgot, hplace⟩ :=
        hinv.next_cases hreach
      · rw [hgot, Option.toList_some]
        rw [hdrop] at hwhole
        refine .of_first rfl ⟨rest, ?_⟩ (.inl ?_)
        · rw [List.append_assoc, List.singleton_append, hwhole]
        · rw [hplace, List.length_append, List.length_singleton]
      · rw [hgot, Option.toList_none, List.append_nil]
        rw [hdrop, List.append_nil] at hwhole
        refine .of_first rfl h.prefix_got ?_
        obtain hplace | ⟨hplace, hover⟩ := hplace
        · exact .inl hplace
        · exact .inr ⟨hplace, hover, hwhole⟩
    · -- it has seen the end, and nothing comes any more
      have hsame : d.got ++ (d.hub.next ⟨none⟩).1.document?.toList = d.got := List.append_nil _
      rw [act_read_of_some hfirst, hsame]
      exact .of_first rfl h.prefix_got (.inr ⟨rfl, hover, hall⟩)

/-- The first subscription takes over the receiver that is parked, for which all documents count. -/
theorem Reads.subscribe (h : d.Reads i bytes isOver) (hinv : d.Inv i capacity bytes isOver)
    (stream : Stream) : (d.act (.subscribe stream)).Reads i bytes isOver := by
  have hact : d.act (.subscribe stream) = { d with
      history := d.history.act (.subscribe stream)
      first := if stream = d.stream then d.first.or (some (d.hub.subscribe stream).1)
        else d.first } := rfl
  by_cases hstream : stream = d.stream
  · rw [hact, if_pos hstream]
    cases hfirst : d.first with
    | some sub => exact .of_first rfl h.prefix_got (h.place_eq sub hfirst)
    | none =>
      obtain ⟨f, hfeed, -, hparked⟩ := hinv.feed
      have hsub : (d.hub.subscribe stream).1 = ⟨some (i, 0)⟩ := by
        rw [hstream, hinv.stream_eq, Hub.subscribe_eq hfeed,
          Feed.subscribe?_of_parked (hparked hfirst)]
      refine .of_first rfl h.prefix_got (.inl ?_)
      rw [hsub, h.got_eq hfirst]
      rfl
  · rw [hact, if_neg hstream]
    exact ⟨h.prefix_got, h.place_eq, h.got_eq⟩

/-- More documents come behind those that the first subscription has yet to get. -/
theorem Reads.append (h : d.Reads i bytes false) (more : Bytes) (isOver : Bool) :
    d.Reads i (bytes ++ more) isOver := by
  refine ⟨?_, ?_, h.got_eq⟩
  · rw [Document.split_append bytes]
    exact h.prefix_got.trans (List.prefix_append _ _)
  · intro sub hsub
    left
    obtain hplace | ⟨-, hover, -⟩ := h.place_eq sub hsub
    · exact hplace
    · cases hover

theorem Reads.act (h : d.Reads i bytes isOver) (hinv : d.Inv i capacity bytes isOver)
    (hreach : d.inReach = true) {event : Event}
    (hfaults : (d.act event).history.faults = d.history.faults) :
    (d.act event).Reads i (bytes ++ event.body) (isOver || event.isLast) := by
  have hcaller {d' : Delivery} (h : d'.Reads i bytes isOver) :
      d'.Reads i (bytes ++ []) (isOver || false) := by
    rw [List.append_nil, Bool.or_false]
    exact h
  cases event with
  | content more =>
    -- after the end a piece would be a fault, so the first subscription has not seen the end
    have hover := hinv.isOver_eq_false (.inl hfaults)
    subst hover
    have hmore := h.append more false
    exact ⟨hmore.prefix_got, hmore.place_eq, hmore.got_eq⟩
  | last more =>
    have hover := hinv.isOver_eq_false (.inr hfaults)
    subst hover
    have hmore := h.append more true
    exact ⟨hmore.prefix_got, hmore.place_eq, hmore.got_eq⟩
  | submit t => exact hcaller ⟨h.prefix_got, h.place_eq, h.got_eq⟩
  | subscribe stream => exact hcaller (h.subscribe hinv stream)
  | next sub => exact hcaller ⟨h.prefix_got, h.place_eq, h.got_eq⟩
  | read => exact hcaller (h.read hinv hreach)

/-- As long as the first subscription keeps up, it gets the documents one after another. -/
theorem Reads.run (h : d.Reads i bytes isOver) (hinv : d.Inv i capacity bytes isOver)
    {events : List Event} (hfaults : (d.run events).history.faults = d.history.faults)
    (hkeeps : d.keepsUp events = true) :
    (d.run events).Reads i (bytes ++ events.flatMap Event.body) (isOver || ended events) ∧
      (d.run events).inReach = true := by
  induction events generalizing d bytes isOver with
  | nil =>
    rw [List.flatMap_nil, List.append_nil, ended, List.any_nil, Bool.or_false]
    exact ⟨h, hkeeps⟩
  | cons event events ih =>
    obtain ⟨hfirst, hothers⟩ := faults_of_run_cons hfaults
    obtain ⟨hreach, hkeeps⟩ := Bool.and_eq_true_iff.1 hkeeps
    rw [List.flatMap_cons, ← List.append_assoc, ended, List.any_cons, ← Bool.or_assoc]
    exact ih (h.act hinv hreach hfirst) (hinv.act hfirst) hothers hkeeps

/-- What the first subscription can still read at once is all the rest. -/
theorem Reads.readAll (h : d.Reads i bytes isOver) (hinv : d.Inv i capacity bytes isOver)
    (hreach : d.inReach = true) {sub : Subscription} (hfirst : d.first = some sub) :
    d.got ++ (d.hub.readAll sub).1 = (Document.split bytes).1 ∧
      (d.hub.readAll sub).2.1 = if isOver then .ended else .pending := by
  obtain rfl | ⟨rfl, hover, hall⟩ := h.place_eq sub hfirst
  · obtain ⟨f, hfeed, hdelivers, -⟩ := hinv.feed
    have hbehind := hinv.length_le hreach hfeed hdelivers.toHolds
    obtain ⟨hrest, hthen⟩ := Hub.readAll_eq hfeed hdelivers.toHolds hbehind
    refine ⟨?_, ?_⟩
    · rw [hrest]
      exact h.got_append_drop
    · rw [hthen, hdelivers.active_eq]
      cases isOver <;> rfl
  · rw [hover, if_pos rfl]
    exact ⟨(List.append_nil _).trans hall, rfl⟩

/-- **Streaming delivery.** In any session in which a streaming request is first in the queue, a
head that reports a success answers it with a stream that has a new feed. Whatever comes then, if no
frame is a fault: the documents published to the feed are those of the whole body, in order,
wherever it is cut, and what stands behind the last mark is not among them. The first subscription,
taken at any time, gets just these documents in order if it keeps up, and it is told that there are
no more if and only if the reply has ended. -/
theorem run_delivered (r : History) (head : Header) (events : List Event) {t : Ticket}
    {rest : List Ticket} (hqueue : r.session.outstanding.queue = t :: rest)
    (hkind : t.request.kind.isStreaming = true) (hcode : head.code = 200 ∨ head.code = 201)
    (hfaults : ((start r head).run events).history.faults = (start r head).history.faults) :
    (r.session.receive (.header head)).1 =
        .ok (some (.bucketStreaming (start r head).stream r.session.host .success t)) ∧
      (∃ feed, ((start r head).run events).feed? = some feed ∧
        feed = { Feed.publishAll (documents events)
            (Feed.ofCapacity r.session.settings.streamCapacity.toNat).park with
          receivers := feed.receivers
          parked := feed.parked
          active := !ended events }) ∧
      (.subscribe (start r head).stream ∈ events → (start r head).keepsUp events = true →
        ∃ sub, ((start r head).run events).first = some sub ∧
          ((start r head).run events).got ++ (((start r head).run events).hub.readAll sub).1 =
            documents events ∧
          (((start r head).run events).hub.readAll sub).2.1 =
            if ended events then .ended else .pending) := by
  have hinv := Inv.start hqueue hkind hcode
  have hrun := hinv.run hfaults
  rw [List.nil_append, Bool.false_or] at hrun
  refine ⟨(start_streaming hqueue hkind hcode).1, ?_, ?_⟩
  · obtain ⟨f, hfeed, hdelivers, -⟩ := hrun.feed
    refine ⟨f, ?_, ?_⟩
    · rw [feed?, hrun.stream_eq]
      exact hfeed
    · have hnew := (Feed.Delivers.new r.session.settings.streamCapacity.toNat).publishAll
        (documents events)
      exact hdelivers.eq hnew.toHolds hnew.capacity_eq
  · intro hmem hkeeps
    have hreads : (start r head).Reads r.session.hub.feeds.length [] false := by
      refine ⟨?_, ?_, fun _ => rfl⟩
      · exact List.nil_prefix
      · intro sub hsub
        cases hsub
    obtain ⟨hreads, hreach⟩ := hreads.run hinv hfaults hkeeps
    rw [List.nil_append, Bool.false_or] at hreads
    obtain ⟨sub, hfirst⟩ := Option.isSome_iff_exists.1 (isSome_first_run _ _ (.inl hmem))
    exact ⟨sub, hfirst, hreads.readAll hrun hreach hfirst⟩

/-- A session with a streaming request, and feeds that keep one document. -/
def waiting : History :=
  (History.start "h" { streamCapacity := 1 }).act (.submit ⟨0, .bucketStreaming, "/s", "b", ""⟩)

/-- Two documents come, cut within a character and within both marks, and the beginning of a third.
Somebody subscribes and reads between them. -/
def cutEvents : List Event :=
  [.content [195], .content [169, 10, 10], .submit ⟨1, .bucketConfig, "/c", "b", ""⟩,
    .content [10, 10, 98, 10], .subscribe ⟨some 0⟩, .subscribe ⟨some 0⟩, .read,
    .last [10, 10, 10, 99]]

theorem run_delivered_cut :
    waiting.session.outstanding.queue = [⟨0, .bucketStreaming, "/s", "b", ""⟩] ∧
      ((start waiting ⟨200, "OK", []⟩).run cutEvents).history.faults =
        (start waiting ⟨200, "OK", []⟩).history.faults ∧
      .subscribe (start waiting ⟨200, "OK", []⟩).stream ∈ cutEvents ∧
      (start waiting ⟨200, "OK", []⟩).keepsUp cutEvents = true ∧
      ∃ sub, ((start waiting ⟨200, "OK", []⟩).run cutEvents).first = some sub ∧
        ((start waiting ⟨200, "OK", []⟩).run cutEvents).got ++
            (((start waiting ⟨200, "OK", []⟩).run cutEvents).hub.readAll sub).1 = ["é", "b"] ∧
        (((start waiting ⟨200, "OK", []⟩).run cutEvents).hub.readAll sub).2.1 = .ended := by
  have hfaults : ((start waiting ⟨200, "OK", []⟩).run cutEvents).history.faults =
      (start waiting ⟨200, "OK", []⟩).history.faults := by
    decide +kernel
  have hmem : .subscribe (start waiting ⟨200, "OK", []⟩).stream ∈ cutEvents := by
    decide
  have hkeeps : (start waiting ⟨200, "OK", []⟩).keepsUp cutEvents = true := by
    decide +kernel
  have hdocuments : documents cutEvents = ["é", "b"] := by
    decide +kernel
  obtain ⟨-, -, hfirst⟩ :=
    run_delivered waiting ⟨200, "OK", []⟩ cutEvents rfl rfl (.inl rfl) hfaults
  rw [hdocuments] at hfirst
  exact ⟨rfl, hfaults, hmem, hkeeps, hfirst hmem hkeeps⟩

end Delivery

end Session

end ClusterLink
