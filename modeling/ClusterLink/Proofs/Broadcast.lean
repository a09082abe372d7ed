import ClusterLink.Proofs.Feed
import Mathlib.Algebra.GroupWithZero.Nat
import Mathlib.Order.Bounds.Defs

/-!
# One feed and all who follow it

A feed is written by one publisher and read through any number of subscriptions, which
come and go while it is written. Here it is shown what each of them reads
(`Broadcast.run_follows`).

## The model

The documents that somebody receives are numbered from zero. A `Broadcast` is a feed
with what callers hold of it, and beside it stands what the statement is about: all
documents so far, and for each reader where it attached and what it has got, each
document with the number of documents at that time. From these alone the numbers of
the documents that it got can be told (`numbers`), and where it stands (`position`).

## The argument

The invariant `Inv` says that the feed is what has been published to it, counts its
receivers and has each reader stand where it should. It is kept by every event, one
lemma for each.
-/

namespace ClusterLink

namespace Feed

variable {f : Feed} {documents : List String}

/-- The capacity of a feed is the least power of two that is enough. -/
theorem isLeast_capacity (n : Nat) :
    IsLeast {c | max n 1 ≤ c ∧ ∃ k, c = 2 ^ k} (ofCapacity n).capacity := by
  show IsLeast _ (roundUp n)
  fun_induction roundUp n with
  | case1 n hn =>
    rw [Nat.max_eq_right hn]
    exact ⟨⟨Nat.le_refl 1, 0, rfl⟩, fun c hc => hc.1⟩
  | case2 n hn ih =>
    obtain ⟨⟨henough, k, hk⟩, hleast⟩ := ih
    refine ⟨⟨by omega, k + 1, by rw [hk, Nat.pow_succ']⟩, ?_⟩
    rintro c ⟨hc, _ | m, rfl⟩
    · omega
    · -- half of the power is enough for half of the number
      have hhalf : roundUp ((n + 1) / 2) ≤ 2 ^ m := hleast ⟨by omega, m, rfl⟩
      omega

theorem Holds.oldest_eq (h : f.Holds documents) : f.oldest = documents.length - f.capacity := by
  rw [oldest, h.kept_eq, h.total_eq, List.length_drop]
  omega

/-- What is ready for a receiver are the documents from where it stands, as far as they are kept. -/
theorem Holds.ready_eq_drop (h : f.Holds documents) (receiver : Nat) :
    f.ready receiver = documents.drop (max receiver (documents.length - f.capacity)) := by
  rw [ready, h.oldest_eq, h.kept_eq, List.drop_drop]
  congr 1
  omega

/-- A receiver reads the next document, or the oldest one kept if the next one is no longer kept. -/
theorem Holds.next_eq_getElem? (h : f.Holds documents) (receiver : Nat) :
    f.next receiver = match documents[max receiver (documents.length - f.capacity)]? with
      | some document => (.document document, max receiver (documents.length - f.capacity) + 1)
      | none => (if f.active then .pending else .ended, receiver) := by
  rw [next, h.ready_eq_drop, h.oldest_eq, ← List.head?_drop]
  cases documents.drop (max receiver (documents.length - f.capacity)) with
  | nil => rfl
  | cons document rest => rfl

end Feed

/-- A subscription with what it has been through. -/
structure Reader where
  /-- The subscription. -/
  sub : Subscription
  /-- How many documents there were when its receiver was attached; none if it never was. -/
  attached : Option Nat
  /-- Whether its caller has given it up. -/
  dropped : Bool := false
  /-- What it has got, each document with the number of documents at that time. -/
  got : List (String × Nat) := []
  deriving DecidableEq, Repr

/-- Whether it is among those who receive what is published. -/
def Reader.isAttached (x : Reader) : Bool :=
  x.attached.isSome && !x.dropped

/-- A feed with what callers hold of it, and what it has been through. -/
structure Broadcast where
  /-- The feed, under the number 0. -/
  hub : Hub
  /-- Whether the publisher is still there. -/
  held : Bool := true
  /-- The streams that callers hold. -/
  handles : List Stream := []
  /-- All subscriptions so far. -/
  readers : List Reader := []
  /-- The documents that somebody receives, by number. -/
  published : List String := []
  /-- How many documents there were when the receiver was parked that is parked now. -/
  parkedAt : Option Nat := none
  /-- Whether the stream has been completed. -/
  isOver : Bool := false
  deriving DecidableEq, Repr

namespace Broadcast

/-- One thing that happens to a feed. -/
inductive Event where
  /-- A receiver is parked. -/
  | park
  /-- The publisher gives out a stream. -/
  | handle
  /-- A caller copies a stream. -/
  | clone (stream : Nat)
  /-- A caller subscribes to a stream. -/
  | subscribe (stream : Nat)
  /-- A document is published. -/
  | push (document : String)
  /-- The stream is completed. -/
  | complete
  /-- The publisher goes, which completes the stream. -/
  | drop
  /-- A caller gives up a subscription. -/
  | unsubscribe (reader : Nat)
  /-- A caller asks a subscription for the next document. -/
  | next (reader : Nat)
  deriving DecidableEq, Repr

/-- A new feed that is to keep `n` documents. -/
def start (n : Nat) : Broadcast where
  hub := ⟨[.ofCapacity n]⟩

/-- How many receive what is published now, a parked receiver included. -/
def audience (b : Broadcast) : Nat :=
  if b.isOver then 0 else b.readers.countP Reader.isAttached + b.parkedAt.toList.length

/-- Where a receiver attaches now. -/
def attachAt (b : Broadcast) : Option Nat :=
  if b.isOver then none else some b.published.length

/-- A reader asks for the next document. -/
def read (b : Broadcast) (x : Reader) : Reader × Hub :=
  match b.hub.next x.sub with
  | (.document text, sub, hub) =>
    ({ x with sub := sub, got := x.got ++ [(text, b.published.length)] }, hub)
  | (_, sub, hub) => ({ x with sub := sub }, hub)

/-- What happens to a feed. Nothing comes from a publisher that has gone or goes to a subscription
that has been given up. -/
def act (b : Broadcast) : Event → Broadcast
  | .park =>
    if b.held then
      { b with hub := b.hub.update 0 .park, parkedAt := b.parkedAt.or b.attachAt }
    else b
  | .handle => if b.held then { b with handles := b.handles ++ [⟨some 0⟩] } else b
  | .clone i =>
    match b.handles[i]? with
    | some stream => { b with handles := b.handles ++ [stream] }
    | none => b
  | .subscribe i =>
    match b.handles[i]? with
    | some stream =>
      { b with
        hub := (b.hub.subscribe stream).2
        readers := b.readers ++ [⟨(b.hub.subscribe stream).1, b.parkedAt.or b.attachAt, false, []⟩]
        parkedAt := none }
    | none => b
  | .push document =>
    if b.held then
      { b with
        hub := b.hub.update 0 (·.publish document)
        published := if b.audience = 0 then b.published else b.published ++ [document] }
    else b
  | .complete => if b.held then { b with hub := b.hub.update 0 .complete, isOver := true } else b
  | .drop =>
    if b.held then { b with hub := b.hub.update 0 .complete, isOver := true, held := false } else b
  | .unsubscribe i =>
    match b.readers[i]? with
    | some x =>
      if x.dropped then b
      else
        { b with
          hub := b.hub.unsubscribe x.sub
          readers := b.readers.set i { x with dropped := true } }
    | none => b
  | .next i =>
    match b.readers[i]? with
    | some x =>
      if x.dropped then b
      else { b with hub := (b.read x).2, readers := b.readers.set i (b.read x).1 }
    | none => b

/-- What has become of a feed after some events. -/
def run (b : Broadcast) (events : List Event) : Broadcast :=
  events.foldl act b

/-! ## The numbers of what is read -/

/-- The numbers of the documents that a reader gets which stands at a position: each is the next
one, or the oldest one kept. -/
def numbers (capacity : Nat) : Nat → List (String × Nat) → List Nat
  | _, [] => []
  | here, (_, total) :: rest =>
    max here (total - capacity) :: numbers capacity (max here (total - capacity) + 1) rest

/-- Where a reader stands that has got some documents: behind the last of them. -/
def position (capacity : Nat) : Nat → List (String × Nat) → Nat
  | here, [] => here
  | here, (_, total) :: rest => position capacity (max here (total - capacity) + 1) rest

variable {capacity a : Nat}

theorem numbers_append (got more : List (String × Nat)) :
    numbers capacity a (got ++ more) =
      numbers capacity a got ++ numbers capacity (position capacity a got) more := by
  induction got generalizing a with
  | nil => rfl
  | cons g got ih => rw [List.cons_append, numbers, numbers, position, ih, List.cons_append]

theorem position_append (got more : List (String × Nat)) :
    position capacity a (got ++ more) = position capacity (position capacity a got) more := by
  induction got generalizing a with
  | nil => rfl
  | cons g got ih => rw [List.cons_append, position, position, ih]

theorem length_numbers (got : List (String × Nat)) :
    (numbers capacity a got).length = got.length := by
  induction got generalizing a with
  | nil => rfl
  | cons g got ih => rw [numbers, List.length_cons, ih, List.length_cons]

/-- Nothing is read that came before the reader was attached. -/
theorem le_of_mem_numbers {got : List (String × Nat)} : ∀ m ∈ numbers capacity a got, a ≤ m := by
  induction got generalizing a with
  | nil => exact fun m hm => absurd hm List.not_mem_nil
  | cons g got ih =>
    intro m hm
    rcases List.mem_cons.1 hm with rfl | hm
    · exact Nat.le_max_left _ _
    · have hle := ih m hm
      omega

/-- Nothing is read twice, or out of order. -/
theorem pairwise_numbers (got : List (String × Nat)) :
    (numbers capacity a got).Pairwise (· < ·) := by
  induction got generalizing a with
  | nil => exact .nil
  | cons g got ih => exact .cons (fun m hm => le_of_mem_numbers m hm) ih

/-- What a reader gets that was attached when there were `a` documents. -/
structure Follows (b : Broadcast) (capacity a : Nat) (x : Reader) : Prop where
  /-- Each document is the one under its number. -/
  texts : x.got.map (fun g => some g.1) = (numbers capacity a x.got).map (b.published[·]?)
  /-- The numbers begin where it was attached. -/
  le : ∀ m ∈ numbers capacity a x.got, a ≤ m
  /-- They increase. -/
  increasing : (numbers capacity a x.got).Pairwise (· < ·)
  /-- None is left out, unless more were yet to be read than the feed keeps: then the oldest are, up
  to those that it keeps. -/
  skips : ∀ before text total after, x.got = before ++ (text, total) :: after →
    (numbers capacity a x.got)[before.length]? =
      some (if position capacity a before + capacity < total then total - capacity
        else position capacity a before)
  /-- What it gets next is under the next number, if that is taken already. -/
  next_iff : ∀ text, (b.hub.next x.sub).1 = .document text ↔
    b.published[max (position capacity a x.got) (b.published.length - capacity)]? = some text
  /-- It then stands just behind it. -/
  next_place : ∀ text, (b.hub.next x.sub).1 = .document text →
    (b.hub.next x.sub).2.1.place =
      some (0, max (position capacity a x.got) (b.published.length - capacity) + 1)

/-! ## The invariant -/

/-- Where a reader stands that was attached when there were `a` documents: behind what it has got,
or at the end, where there is nothing more for it. -/
structure Stands (b : Broadcast) (capacity a : Nat) (x : Reader) : Prop where
  /-- Each document that it has got is the one under its number. -/
  texts : x.got.map (fun g => some g.1) = (numbers capacity a x.got).map (b.published[·]?)
  /-- It stands behind the last of them, or at the end. -/
  place : x.sub.place = some (0, position capacity a x.got) ∨
    x.sub.place = none ∧ b.isOver = true ∧
      b.published[max (position capacity a x.got) (b.published.length - capacity)]? = none

/-- A reader has been attached and stands where it should, or has come too late. -/
inductive Reading (b : Broadcast) (capacity : Nat) (x : Reader) : Prop where
  /-- It has been attached. -/
  | attached {a : Nat} : x.attached = some a → b.Stands capacity a x → Reading b capacity x
  /-- The stream had been completed. -/
  | late : x.attached = none → x.sub.place = none → x.got = [] → b.isOver = true →
      Reading b capacity x

/-- A feed is what has been published to it, and counts its receivers. -/
structure Serves (b : Broadcast) (capacity : Nat) (f : Feed) : Prop
    extends f.Holds b.published where
  /-- It keeps so many documents. -/
  capacity_eq : f.capacity = capacity
  /-- It is active until it is completed. -/
  active_eq : f.active = !b.isOver
  /-- The receiver that is parked has been so since it was parked. -/
  parked_eq : f.parked = b.parkedAt
  /-- All who receive are counted. -/
  audience_eq : f.audience = b.audience

/-- The feed and the readers are as they should be. -/
structure Inv (b : Broadcast) (capacity : Nat) : Prop where
  /-- There is one feed. -/
  serves : ∃ f, b.hub = ⟨[f]⟩ ∧ b.Serves capacity f
  /-- All streams lead to it. -/
  handles : ∀ stream ∈ b.handles, stream = ⟨some 0⟩
  /-- Every reader stands where it should. -/
  readers : ∀ x ∈ b.readers, b.Reading capacity x

variable {b : Broadcast} {f : Feed} {x : Reader}

theorem Serves.receivers_eq (h : b.Serves capacity f) (hover : b.isOver = false) :
    f.receivers = b.readers.countP Reader.isAttached + b.parkedAt.toList.length := by
  have haudience := h.audience_eq
  rwa [Feed.audience, h.active_eq, audience, hover] at haudience

/-- Only these parts of a broadcast count. -/
theorem Serves.of_eq {b' : Broadcast} (h : b.Serves capacity f)
    (hpublished : b'.published = b.published) (hparked : b'.parkedAt = b.parkedAt)
    (hover : b'.isOver = b.isOver) (haudience : b'.audience = b.audience) :
    b'.Serves capacity f := by
  refine ⟨⟨?_, ?_⟩, h.capacity_eq, ?_, ?_, ?_⟩
  · rw [hpublished]
    exact h.total_eq
  · rw [hpublished]
    exact h.kept_eq
  · rw [hover]
    exact h.active_eq
  · rw [hparked]
    exact h.parked_eq
  · rw [haudience]
    exact h.audience_eq

/-- When the stream is over nobody is counted any more. -/
theorem Serves.detach (h : b.Serves capacity f) (hover : b.isOver = true) :
    b.Serves capacity f.detach := by
  refine ⟨⟨h.total_eq, h.kept_eq⟩, h.capacity_eq, h.active_eq, h.parked_eq, ?_⟩
  simp [Feed.audience, audience, Feed.detach, h.active_eq, hover]

theorem Inv.start (n : Nat) : (start n).Inv (Feed.ofCapacity n).capacity where
  serves := ⟨_, rfl, ⟨rfl, List.drop_nil.symm⟩, rfl, rfl, rfl, rfl⟩
  handles := by rintro stream ⟨⟩
  readers := by rintro x ⟨⟩

/-- Readers are as before if nothing has been published and nothing is over that was not. -/
theorem Reading.mono {b' : Broadcast} (h : b.Reading capacity x)
    (hpublished : b'.published = b.published) (hover : b.isOver = true → b'.isOver = true) :
    b'.Reading capacity x := by
  cases h with
  | attached ha h =>
    refine .attached ha ⟨?_, ?_⟩
    · rw [hpublished]
      exact h.texts
    · rcases h.place with hplace | ⟨hplace, hend, hnone⟩
      · exact .inl hplace
      · rw [hpublished]
        exact .inr ⟨hplace, hover hend, hnone⟩
  | late ha hplace hgot hend => exact .late ha hplace hgot (hover hend)

/-- Readers that have not seen the end are as before when more is published. -/
theorem Reading.publish {b' : Broadcast} {document : String} (h : b.Reading capacity x)
    (hover : b.isOver = false) (hpublished : b'.published = b.published ++ [document]) :
    b'.Reading capacity x := by
  cases h with
  | @attached a ha h =>
    refine .attached ha ⟨?_, ?_⟩
    · rw [h.texts, hpublished]
      refine List.map_congr_left fun m hm => ?_
      have hsome : b.published[m]? ∈ x.got.map (fun g => some g.1) := by
        rw [h.texts]
        exact List.mem_map_of_mem hm
      obtain ⟨g, -, hg⟩ := List.mem_map.1 hsome
      obtain ⟨hlt, -⟩ := List.getElem?_eq_some_iff.1 hg.symm
      exact (List.getElem?_append_left hlt).symm
    · rcases h.place with hplace | ⟨-, hend, -⟩
      · exact .inl hplace
      · rw [hover] at hend
        cases hend
  | late _ _ _ hend =>
    rw [hover] at hend
    cases hend

/-! ## One event -/

theorem Inv.park (h : b.Inv capacity) :
    Inv { b with hub := b.hub.update 0 .park, parkedAt := b.parkedAt.or b.attachAt } capacity := by
  obtain ⟨⟨f, hhub, hserves⟩, hhandles, hreaders⟩ := h
  refine ⟨⟨f.park, ?_, ?_⟩, hhandles, fun x hx => (hreaders x hx).mono rfl id⟩
  · show b.hub.update 0 .park = _
    rw [hhub]
    rfl
  · have hparked := hserves.parked_eq
    by_cases hsome : f.parked.isSome = true
    · obtain ⟨p, hp⟩ := Option.isSome_iff_exists.1 hsome
      have hpark : f.park = f := if_pos hsome
      have hsame : b.parkedAt.or b.attachAt = b.parkedAt := by
        rw [← hparked, hp]
        rfl
      rw [hpark, hsame]
      exact hserves.of_eq rfl rfl rfl rfl
    · have hnone : f.parked = none := by simpa using hsome
      rw [hnone] at hparked
      by_cases hover : b.isOver = true
      · have hpark : f.park = f := by
          simp [Feed.park, Feed.attach?, hnone, hserves.active_eq, hover]
        have hsame : b.parkedAt.or b.attachAt = b.parkedAt := by
          simp [attachAt, hover]
        rw [hpark, hsame]
        exact hserves.of_eq rfl rfl rfl rfl
      · have hover := Bool.eq_false_iff.2 hover
        have hpark : f.park = { f with receivers := f.receivers + 1, parked := some f.total } := by
          simp [Feed.park, Feed.attach?, hnone, hserves.active_eq, hover]
        have hat : b.parkedAt.or b.attachAt = some b.published.length := by
          simp [attachAt, hover, ← hparked]
        have hreceivers := hserves.receivers_eq hover
        rw [hpark, hat]
        refine ⟨⟨hserves.total_eq, hserves.kept_eq⟩, hserves.capacity_eq, hserves.active_eq, ?_, ?_⟩
        · exact congrArg some hserves.total_eq
        · simp [Feed.audience, audience, hserves.active_eq, hover, hreceivers, ← hparked]

theorem Inv.subscribe (h : b.Inv capacity) :
    Inv { b with
      hub := (b.hub.subscribe ⟨some 0⟩).2
      readers := b.readers ++
        [⟨(b.hub.subscribe ⟨some 0⟩).1, b.parkedAt.or b.attachAt, false, []⟩]
      parkedAt := none } capacity := by
  obtain ⟨⟨f, hhub, hserves⟩, hhandles, hreaders⟩ := h
  have hsubscribe := Hub.subscribe_eq (h := b.hub) (i := 0) (f := f) (by rw [hhub]; rfl)
  have hparked := hserves.parked_eq
  -- the new reader has got nothing yet
  have hnew {b' : Broadcast} {a : Nat} : b'.Reading capacity ⟨⟨some (0, a)⟩, some a, false, []⟩ :=
    .attached rfl ⟨rfl, .inl rfl⟩
  cases hp : b.parkedAt with
  | some p =>
    rw [hp] at hparked
    rw [Feed.subscribe?_of_parked hparked] at hsubscribe
    rw [hsubscribe, Option.some_or]
    refine ⟨⟨{ f with parked := none }, ?_, ?_⟩, hhandles, ?_⟩
    · show b.hub.update 0 _ = _
      rw [hhub]
      rfl
    · refine ⟨⟨hserves.total_eq, hserves.kept_eq⟩, hserves.capacity_eq, hserves.active_eq, rfl, ?_⟩
      have haudience := hserves.audience_eq
      simp only [Feed.audience, audience, hp, List.countP_append] at haudience ⊢
      rw [haudience]
      rfl
    · refine List.forall_mem_append.2 ⟨fun x hx => (hreaders x hx).mono rfl id, ?_⟩
      exact List.forall_mem_singleton.2 hnew
  | none =>
    rw [hp] at hparked
    rw [Option.none_or]
    by_cases hover : b.isOver = true
    · have hnone : f.subscribe? = none := by
        simp [Feed.subscribe?, Feed.attach?, hparked, hserves.active_eq, hover]
      rw [hnone] at hsubscribe
      have hat : b.attachAt = none := by simp [attachAt, hover]
      rw [hsubscribe, hat]
      refine ⟨⟨f, hhub, hserves.of_eq rfl hp.symm rfl ?_⟩, hhandles, ?_⟩
      · simp [audience, hover]
      · refine List.forall_mem_append.2 ⟨fun x hx => (hreaders x hx).mono rfl id, ?_⟩
        exact List.forall_mem_singleton.2 (.late rfl rfl rfl hover)
    · have hover := Bool.eq_false_iff.2 hover
      have hsome : f.subscribe? = some (f.total, { f with receivers := f.receivers + 1 }) := by
        simp [Feed.subscribe?, Feed.attach?, hparked, hserves.active_eq, hover]
      rw [hsome] at hsubscribe
      have hat : b.attachAt = some b.published.length := by simp [attachAt, hover]
      rw [hsubscribe, hat]
      refine ⟨⟨{ f with receivers := f.receivers + 1 }, ?_, ?_⟩, hhandles, ?_⟩
      · show b.hub.update 0 _ = _
        rw [hhub]
        rfl
      · refine ⟨⟨hserves.total_eq, hserves.kept_eq⟩, hserves.capacity_eq, hserves.active_eq,
          hparked, ?_⟩
        have hreceivers := hserves.receivers_eq hover
        simp [Feed.audience, audience, hserves.active_eq, hover, hreceivers, hp, Reader.isAttached]
      · refine List.forall_mem_append.2 ⟨fun x hx => (hreaders x hx).mono rfl id, ?_⟩
        rw [hserves.total_eq]
        exact List.forall_mem_singleton.2 hnew

theorem Inv.push (h : b.Inv capacity) (document : String) :
    Inv { b with
      hub := b.hub.update 0 (·.publish document)
      published := if b.audience = 0 then b.published else b.published ++ [document] }
      capacity := by
  obtain ⟨⟨f, hhub, hserves⟩, hhandles, hreaders⟩ := h
  have hfeed : b.hub.update 0 (·.publish document) = ⟨[f.publish document]⟩ := by
    rw [hhub]
    rfl
  rw [hfeed]
  by_cases hnobody : b.audience = 0
  · have hsame : f.publish document = f :=
      Feed.publish_of_audience_eq_zero (hserves.audience_eq.trans hnobody) document
    rw [hsame, if_pos hnobody]
    refine ⟨⟨f, rfl, hserves.of_eq rfl rfl rfl rfl⟩, hhandles, fun x hx => ?_⟩
    exact (hreaders x hx).mono rfl id
  · have hover : b.isOver = false := by
      refine Bool.eq_false_iff.2 fun hover => hnobody ?_
      rw [audience, if_pos hover]
    rw [if_neg hnobody]
    refine ⟨⟨_, rfl, ?_⟩, hhandles, fun x hx => (hreaders x hx).publish hover rfl⟩
    have hsomebody : f.audience ≠ 0 := by rwa [hserves.audience_eq]
    have hholds := hserves.toHolds.publish hsomebody document
    have hpublish := f.publish_eq document
    refine ⟨hholds, ?_, ?_, ?_, ?_⟩
    all_goals rw [hpublish]
    · exact hserves.capacity_eq
    · exact hserves.active_eq
    · exact hserves.parked_eq
    · exact hserves.audience_eq

theorem Inv.complete (h : b.Inv capacity) (held : Bool) :
    Inv { b with hub := b.hub.update 0 .complete, isOver := true, held := held } capacity := by
  obtain ⟨⟨f, hhub, hserves⟩, hhandles, hreaders⟩ := h
  refine ⟨⟨f.complete, ?_, ?_⟩, hhandles, fun x hx => (hreaders x hx).mono rfl fun _ => rfl⟩
  · show b.hub.update 0 .complete = _
    rw [hhub]
    rfl
  · exact ⟨⟨hserves.total_eq, hserves.kept_eq⟩, hserves.capacity_eq, rfl, hserves.parked_eq, rfl⟩

/-- Until the stream is over every reader is attached. -/
theorem Reading.attached_of_not_over (h : b.Reading capacity x) (hover : b.isOver = false) :
    x.attached.isSome = true ∧ ∃ p, x.sub.place = some (0, p) := by
  cases h with
  | attached ha h =>
    rcases h.place with hplace | ⟨-, hend, -⟩
    · exact ⟨by rw [ha]; rfl, _, hplace⟩
    · rw [hover] at hend
      cases hend
  | late _ _ _ hend =>
    rw [hover] at hend
    cases hend

theorem Reading.place_cases (h : b.Reading capacity x) :
    x.sub.place = none ∨ ∃ p, x.sub.place = some (0, p) := by
  cases h with
  | attached ha h =>
    rcases h.place with hplace | ⟨hplace, -, -⟩
    · exact .inr ⟨_, hplace⟩
    · exact .inl hplace
  | late _ hplace _ _ => exact .inl hplace

/-- The number of those who receive goes down by one when one of them is given up. -/
theorem countP_dropped {i : Nat} (hx : b.readers[i]? = some x) (hattached : x.isAttached = true) :
    (b.readers.set i { x with dropped := true }).countP Reader.isAttached =
      b.readers.countP Reader.isAttached - 1 := by
  obtain ⟨hlt, hget⟩ := List.getElem?_eq_some_iff.1 hx
  rw [List.countP_set hlt, hget, if_pos hattached]
  simp [Reader.isAttached]

/-- It stays the same while a reader reads. -/
theorem countP_read {i : Nat} {y : Reader} (hx : b.readers[i]? = some x)
    (hattached : y.isAttached = x.isAttached) :
    (b.readers.set i y).countP Reader.isAttached = b.readers.countP Reader.isAttached := by
  obtain ⟨hlt, hget⟩ := List.getElem?_eq_some_iff.1 hx
  rw [List.countP_set hlt, hget, hattached]
  by_cases hy : x.isAttached = true
  · have hpos : 0 < b.readers.countP Reader.isAttached :=
      List.countP_pos_iff.2 ⟨x, List.mem_of_getElem? hx, hy⟩
    rw [if_pos hy]
    omega
  · rw [if_neg hy]
    rfl

theorem Inv.unsubscribe (h : b.Inv capacity) {i : Nat} (hx : b.readers[i]? = some x)
    (hdropped : x.dropped = false) :
    Inv { b with
      hub := b.hub.unsubscribe x.sub
      readers := b.readers.set i { x with dropped := true } } capacity := by
  obtain ⟨⟨f, hhub, hserves⟩, hhandles, hreaders⟩ := h
  have hreading := hreaders x (List.mem_of_getElem? hx)
  have hreaders' : ∀ y ∈ b.readers.set i { x with dropped := true }, b.Reading capacity y := by
    intro y hy
    rcases List.mem_or_eq_of_mem_set hy with hy | rfl
    · exact hreaders y hy
    · cases hreading with
      | attached ha h => exact .attached ha ⟨h.texts, h.place⟩
      | late ha hplace hgot hend => exact .late ha hplace hgot hend
  by_cases hover : b.isOver = true
  · obtain ⟨g, hg, hserves'⟩ : ∃ g, b.hub.unsubscribe x.sub = ⟨[g]⟩ ∧ b.Serves capacity g := by
      rcases hreading.place_cases with hplace | ⟨p, hplace⟩
      · exact ⟨f, by rw [Hub.unsubscribe, hplace, hhub], hserves⟩
      · exact ⟨f.detach, by rw [Hub.unsubscribe, hplace, hhub]; rfl, hserves.detach hover⟩
    refine ⟨⟨g, hg, hserves'.of_eq rfl rfl rfl ?_⟩, hhandles, ?_⟩
    · simp [audience, hover]
    · exact fun y hy => (hreaders' y hy).mono rfl id
  · have hover := Bool.eq_false_iff.2 hover
    obtain ⟨ha, p, hplace⟩ := hreading.attached_of_not_over hover
    have hattached : x.isAttached = true := by
      rw [Reader.isAttached, ha, hdropped]
      rfl
    have hpos : 0 < b.readers.countP Reader.isAttached :=
      List.countP_pos_iff.2 ⟨x, List.mem_of_getElem? hx, hattached⟩
    refine ⟨⟨f.detach, ?_, ?_⟩, hhandles, fun y hy => (hreaders' y hy).mono rfl id⟩
    · show b.hub.unsubscribe x.sub = _
      rw [Hub.unsubscribe, hplace, hhub]
      rfl
    · refine ⟨⟨hserves.total_eq, hserves.kept_eq⟩, hserves.capacity_eq, hserves.active_eq,
        hserves.parked_eq, ?_⟩
      have hreceivers := hserves.receivers_eq hover
      simp only [Feed.audience, audience, Feed.detach, hserves.active_eq, hover, hreceivers,
        countP_dropped hx hattached]
      simp only [Bool.not_false, if_true, Bool.false_eq_true, if_false]
      omega

/-! ## The next document -/

/-- What a reader gets next. -/
theorem Serves.next_eq (h : b.Serves capacity f) (p : Nat) :
    Hub.next ⟨[f]⟩ ⟨some (0, p)⟩ =
      match b.published[max p (b.published.length - capacity)]? with
      | some text =>
        (.document text, ⟨some (0, max p (b.published.length - capacity) + 1)⟩, ⟨[f]⟩)
      | none =>
        if b.isOver then (.ended, ⟨none⟩, ⟨[f.detach]⟩) else (.pending, ⟨some (0, p)⟩, ⟨[f]⟩) := by
  have hnext := h.toHolds.next_eq_getElem? p
  rw [h.capacity_eq, h.active_eq] at hnext
  simp only [Hub.next, Option.bind_some, List.getElem?_cons_zero, Option.map_some, hnext]
  cases b.published[max p (b.published.length - capacity)]? with
  | some text => rfl
  | none =>
    by_cases hover : b.isOver = true
    · simp only [hover, Bool.not_true, Bool.false_eq_true, if_false, if_true]
      rfl
    · have hover := Bool.eq_false_iff.2 hover
      simp only [hover, Bool.not_false, Bool.false_eq_true, if_false, if_true]

/-- A reader stands where it should when it has read the next document. -/
theorem Stands.read (h : b.Stands capacity a x) {text : String}
    (hnext : b.published[max (position capacity a x.got) (b.published.length - capacity)]? =
      some text) :
    b.Stands capacity a { x with
      sub := ⟨some (0, max (position capacity a x.got) (b.published.length - capacity) + 1)⟩
      got := x.got ++ [(text, b.published.length)] } := by
  constructor
  · rw [List.map_append, numbers_append, List.map_append, h.texts]
    exact congrArg _ (congrArg (fun t => [t]) hnext.symm)
  · refine .inl ?_
    rw [position_append]
    rfl

theorem Inv.next (h : b.Inv capacity) {i : Nat} (hx : b.readers[i]? = some x) :
    Inv { b with hub := (b.read x).2, readers := b.readers.set i (b.read x).1 } capacity := by
  obtain ⟨⟨f, hhub, hserves⟩, hhandles, hreaders⟩ := h
  have hreading := hreaders x (List.mem_of_getElem? hx)
  -- it is enough to look at the reader and at the feed behind it
  suffices hread : ∃ g, (b.read x).2 = ⟨[g]⟩ ∧ b.Serves capacity g ∧
      (b.read x).1.isAttached = x.isAttached ∧ b.Reading capacity (b.read x).1 by
    obtain ⟨g, hg, hserves', hattached, hreading'⟩ := hread
    refine ⟨⟨g, hg, hserves'.of_eq rfl rfl rfl ?_⟩, hhandles, ?_⟩
    · simp only [audience, countP_read hx hattached]
    · intro y hy
      rcases List.mem_or_eq_of_mem_set hy with hy | rfl
      · exact (hreaders y hy).mono rfl id
      · exact hreading'.mono rfl id
  obtain ⟨⟨place⟩, attached, dropped, got⟩ := x
  cases hreading with
  | late ha hplace hgot hend =>
    subst hplace
    exact ⟨f, hhub, hserves, rfl, .late ha rfl hgot hend⟩
  | @attached a ha h =>
    rcases h.place with hplace | ⟨hplace, hend, hnone⟩
    · replace hplace : place = some (0, position capacity a got) := hplace
      subst hplace
      have hnext := hserves.next_eq (position capacity a got)
      rw [← hhub] at hnext
      cases hdocument : b.published[max (position capacity a got)
          (b.published.length - capacity)]? with
      | some text =>
        rw [hdocument] at hnext
        simp only [Broadcast.read, hnext]
        exact ⟨f, hhub, hserves, rfl, .attached ha (h.read hdocument)⟩
      | none =>
        rw [hdocument] at hnext
        by_cases hover : b.isOver = true
        · simp only [hover, if_true] at hnext
          simp only [Broadcast.read, hnext]
          exact ⟨f.detach, rfl, hserves.detach hover, rfl,
            .attached ha ⟨h.texts, .inr ⟨rfl, hover, hdocument⟩⟩⟩
        · simp only [hover] at hnext
          simp only [Broadcast.read, hnext]
          exact ⟨f, hhub, hserves, rfl, .attached ha h⟩
    · subst hplace
      exact ⟨f, hhub, hserves, rfl, .attached ha ⟨h.texts, .inr ⟨rfl, hend, hnone⟩⟩⟩

/-! ## All events -/

/-- What can only happen under some condition may not happen. -/
theorem Inv.ite {p : Prop} [Decidable p] {b' : Broadcast} (h : b.Inv capacity)
    (h' : b'.Inv capacity) : (if p then b' else b).Inv capacity := by
  split
  · exact h'
  · exact h

/-- Callers may hold more streams that lead to the feed. -/
theorem Inv.handle (h : b.Inv capacity) :
    Inv { b with handles := b.handles ++ [⟨some 0⟩] } capacity := by
  obtain ⟨⟨f, hhub, hserves⟩, hhandles, hreaders⟩ := h
  refine ⟨⟨f, hhub, hserves.of_eq rfl rfl rfl rfl⟩, ?_, fun x hx => (hreaders x hx).mono rfl id⟩
  exact List.forall_mem_append.2 ⟨hhandles, List.forall_mem_singleton.2 rfl⟩

theorem Inv.act (h : b.Inv capacity) (event : Event) : (b.act event).Inv capacity := by
  cases event with
  | park => exact h.ite h.park
  | handle => exact h.ite h.handle
  | push document => exact h.ite (h.push document)
  | complete => exact h.ite (h.complete b.held)
  | drop => exact h.ite (h.complete false)
  | clone i =>
    rw [Broadcast.act]
    split
    · rename_i stream hstream
      obtain rfl := h.handles stream (List.mem_of_getElem? hstream)
      exact h.handle
    · exact h
  | subscribe i =>
    rw [Broadcast.act]
    split
    · rename_i stream hstream
      obtain rfl := h.handles stream (List.mem_of_getElem? hstream)
      exact h.subscribe
    · exact h
  | unsubscribe i =>
    rw [Broadcast.act]
    split
    · rename_i x hx
      split
      · exact h
      · rename_i hdropped
        exact h.unsubscribe hx (Bool.eq_false_iff.2 hdropped)
    · exact h
  | next i =>
    rw [Broadcast.act]
    split
    · rename_i x hx
      split
      · exact h
      · exact h.next hx
    · exact h

theorem Inv.run (h : b.Inv capacity) (events : List Event) : (b.run events).Inv capacity := by
  induction events generalizing b with
  | nil => exact h
  | cons event events ih => exact ih (h.act event)

/-- A reader that stands where it should gets what it should. -/
theorem Inv.follows (h : b.Inv capacity) (hx : b.Stands capacity a x) :
    b.Follows capacity a x := by
  obtain ⟨f, hhub, hserves⟩ := h.serves
  have hsub {place : Option (Nat × Nat)} (hplace : x.sub.place = place) : x.sub = ⟨place⟩ :=
    congrArg Subscription.mk hplace
  refine ⟨hx.texts, le_of_mem_numbers, pairwise_numbers _, ?_, ?_, ?_⟩
  · intro before text total after hgot
    rw [hgot, numbers_append, List.getElem?_append_right (Nat.le_of_eq (length_numbers before)),
      length_numbers, Nat.sub_self, numbers, List.getElem?_cons_zero]
    split <;> congr 1 <;> omega
  · intro text
    rcases hx.place with hplace | ⟨hplace, -, hnone⟩
    · rw [hhub, hsub hplace, hserves.next_eq]
      cases b.published[max (position capacity a x.got) (b.published.length - capacity)]? with
      | some document => simp
      | none => by_cases hover : b.isOver = true <;> simp [hover]
    · rw [hsub hplace, hnone]
      simp [Hub.next]
  · intro text htext
    rcases hx.place with hplace | ⟨hplace, -, hnone⟩
    · rw [hhub, hsub hplace, hserves.next_eq] at htext ⊢
      cases hdocument : b.published[max (position capacity a x.got)
          (b.published.length - capacity)]? with
      | some document => rfl
      | none =>
        rw [hdocument] at htext
        by_cases hover : b.isOver = true <;> simp [hover] at htext
    · rw [hsub hplace] at htext
      simp [Hub.next] at htext

/-- Whatever happens to a feed, it keeps as many documents as the least power of two that is enough,
and whoever subscribes to it before it is completed reads the documents from there on, each once and
in order; only who is further behind than that misses some, the oldest. -/
theorem run_follows (n : Nat) (events : List Event) :
    ∃ capacity, IsLeast {c | max n 1 ≤ c ∧ ∃ k, c = 2 ^ k} capacity ∧
      ∀ x ∈ ((start n).run events).readers,
        (∀ a, x.attached = some a → ((start n).run events).Follows capacity a x) ∧
        (x.attached = none → x.got = [] ∧ x.sub.place = none) := by
  have h := (Inv.start n).run events
  refine ⟨_, Feed.isLeast_capacity n, fun x hx => ?_⟩
  cases h.readers x hx with
  | @attached a ha hstands =>
    refine ⟨?_, ?_⟩
    · intro a' ha'
      obtain rfl := Option.some.inj (ha.symm.trans ha')
      exact h.follows hstands
    · intro hnone
      rw [ha] at hnone
      cases hnone
  | late ha hplace hgot hend =>
    refine ⟨?_, fun _ => ⟨hgot, hplace⟩⟩
    intro a' ha'
    rw [ha] at ha'
    cases ha'

end Broadcast

end ClusterLink
