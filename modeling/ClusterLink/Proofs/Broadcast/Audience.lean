import ClusterLink.Proofs.Broadcast
import Mathlib.Data.List.Nodup
import Mathlib.Order.Nat

/-!
# Who receives, and until when

A feed tells its publisher how many receive what is pushed, and its subscriptions whether
there may be more. Here it is shown that both are told as they should be, however pushing,
parking, subscribing, reading and giving up come in turn (`Broadcast.run_attended`).

Until the stream is completed every subscription that has not been given up is counted, and
the receiver that is parked. Their number is what the publisher is told with each document,
and none of them has seen the end. Completing is once and for all, and every stream shows it.
From then on nobody is counted, and a subscription reads what it has yet to read and then the
end, and nothing but the end after that.

## The argument

The counts and the places are those of the invariant `Inv`. What is added here is when the
stream is over (`isOver_run`), that nobody was attached later than now (`Timely`), and that
what a reader has got only grows (`Goes`), so that a reader that has come to the end of a
stream that is over stays there. The parked receivers are numbered as they come
(`Parking`); as there is one at a time, every number is taken once.
-/

namespace ClusterLink

/-- What becomes of a reader: it stays attached where it was, and gets more. -/
structure Reader.Goes (x y : Reader) : Prop where
  /-- It stays attached where it was. -/
  attached_eq : y.attached = x.attached
  /-- What it has got is not taken back. -/
  got : x.got <+: y.got

theorem Reader.Goes.refl (x : Reader) : x.Goes x := ⟨rfl, List.prefix_refl _⟩

theorem Reader.Goes.trans {x y z : Reader} (h : x.Goes y) (h' : y.Goes z) : x.Goes z :=
  ⟨h'.attached_eq.trans h.attached_eq, h.got.trans h'.got⟩

namespace Broadcast

variable {b : Broadcast} {f : Feed} {x y : Reader} {capacity a m : Nat} {got : List (String × Nat)}

/-! ## Behind the last document -/

theorem le_position (capacity a : Nat) (got : List (String × Nat)) :
    a ≤ position capacity a got := by
  induction got generalizing a with
  | nil => exact Nat.le_refl a
  | cons g got ih =>
    have hle := ih (max a (g.2 - capacity) + 1)
    rw [position]
    omega

/-- A reader stands behind all that it has read. -/
theorem lt_position_of_mem (h : m ∈ numbers capacity a got) : m < position capacity a got := by
  induction got generalizing a with
  | nil => exact absurd h List.not_mem_nil
  | cons g got ih =>
    rw [position]
    rcases List.mem_cons.1 h with rfl | h
    · exact le_position capacity (max a (g.2 - capacity) + 1) got
    · exact ih h

/-- Of the documents from where it was attached up to where it stands, a reader has read each or a
later one. -/
theorem exists_le_of_lt_position (ha : a ≤ m) (h : m < position capacity a got) :
    ∃ m' ∈ numbers capacity a got, m ≤ m' := by
  induction got generalizing a with
  | nil => exact absurd h (Nat.not_lt.2 ha)
  | cons g got ih =>
    rw [position] at h
    by_cases hm : m ≤ max a (g.2 - capacity)
    · exact ⟨_, List.mem_cons_self, hm⟩
    · obtain ⟨m', hmem, hle⟩ := ih (show max a (g.2 - capacity) + 1 ≤ m by omega) h
      exact ⟨m', List.mem_cons_of_mem _ hmem, hle⟩

/-- A reader does not stand further than there are documents. -/
theorem Stands.position_le (h : b.Stands capacity a x) (ha : a ≤ b.published.length) :
    position capacity a x.got ≤ b.published.length := by
  have htexts := h.texts
  rcases List.eq_nil_or_concat x.got with hgot | ⟨before, g, hgot⟩
  · rw [hgot]
    exact ha
  · rw [hgot, List.concat_eq_append, numbers_append, List.map_append, List.map_append] at htexts
    obtain ⟨-, hlast⟩ := List.append_inj' htexts rfl
    have hsome : some g.1 = b.published[max (position capacity a before) (g.2 - capacity)]? :=
      (List.cons.inj hlast).1
    obtain ⟨hlt, -⟩ := List.getElem?_eq_some_iff.1 hsome.symm
    rw [hgot, List.concat_eq_append, position_append]
    exact hlt

/-- A reader reads the end when the stream is over and it has read each document since it was
attached, or a later one. -/
theorem Inv.next_eq_ended_iff (h : b.Inv capacity) (hcapacity : 0 < capacity)
    (hx : x ∈ b.readers) :
    (b.hub.next x.sub).1 = .ended ↔ b.isOver = true ∧
      ∀ a, x.attached = some a → ∀ m, a ≤ m → m < b.published.length →
        ∃ m' ∈ numbers capacity a x.got, m ≤ m' := by
  obtain ⟨f, hhub, hserves⟩ := h.serves
  have hsub {place : Option (Nat × Nat)} (hplace : x.sub.place = place) : x.sub = ⟨place⟩ :=
    congrArg Subscription.mk hplace
  -- a subscription without a place reads the end
  have hgone (hplace : x.sub.place = none) : (b.hub.next x.sub).1 = .ended := by
    rw [hsub hplace]
    rfl
  cases h.readers x hx with
  | late ha hplace _ hover =>
    refine iff_of_true (hgone hplace) ⟨hover, fun a ha' => ?_⟩
    rw [ha] at ha'
    cases ha'
  | @attached a ha hstands =>
    -- nothing is left for it just if it stands behind the last document
    have hleft : b.published[max (position capacity a x.got)
          (b.published.length - capacity)]? = none ↔
        ∀ a, x.attached = some a → ∀ m, a ≤ m → m < b.published.length →
          ∃ m' ∈ numbers capacity a x.got, m ≤ m' := by
      rw [List.getElem?_eq_none_iff]
      constructor
      · intro hlen a' ha' m ham hm
        obtain rfl := Option.some.inj (ha.symm.trans ha')
        exact exists_le_of_lt_position ham (by omega)
      · intro hall
        refine Nat.le_of_not_lt fun hlt => ?_
        have hle := le_position capacity a x.got
        obtain ⟨m', hmem, hm'⟩ := hall a ha _ (hle.trans (Nat.le_max_left _ _)) hlt
        have hbehind := lt_position_of_mem hmem
        omega
    rcases hstands.place with hplace | ⟨hplace, hover, hnone⟩
    · rw [← hleft, hhub, hsub hplace, hserves.next_eq]
      cases b.published[max (position capacity a x.got) (b.published.length - capacity)]? with
      | some text => simp
      | none => by_cases hover : b.isOver = true <;> simp [hover]
    · exact iff_of_true (hgone hplace) ⟨hover, hleft.1 hnone⟩

/-! ## What an event comes to -/

theorem goes_read (b : Broadcast) (x : Reader) : x.Goes (b.read x).1 := by
  unfold Broadcast.read
  split
  · exact ⟨rfl, List.prefix_append _ _⟩
  · exact ⟨rfl, List.prefix_refl _⟩

/-- Whether an event completes the stream. -/
def Event.completes : Event → Bool
  | complete => true
  | drop => true
  | _ => false

/-- What an event comes to, whatever the feed makes of it. -/
inductive Comes (b : Broadcast) : Event → Broadcast → Prop where
  /-- Callers may hold more streams. -/
  | still {event : Event} (hub : Hub) (handles : List Stream)
      (hheld : event.completes = true → b.held = false) :
      Comes b event { b with hub := hub, handles := handles }
  /-- There is a parked receiver, if there can be one. -/
  | parked (hub : Hub) :
      Comes b .park { b with hub := hub, parkedAt := b.parkedAt.or b.attachAt }
  /-- There is one more reader, and no parked receiver. -/
  | subscribed (j : Nat) (hub : Hub) (sub : Subscription) :
      Comes b (.subscribe j) { b with
        hub := hub
        readers := b.readers ++ [⟨sub, b.parkedAt.or b.attachAt, false, []⟩]
        parkedAt := none }
  /-- There is one more document. -/
  | published (hub : Hub) (document : String) (hover : b.isOver = false) :
      Comes b (.push document) { b with hub := hub, published := b.published ++ [document] }
  /-- The stream is over. -/
  | completed {event : Event} (hub : Hub) (held : Bool) (hcompletes : event.completes = true) :
      Comes b event { b with hub := hub, isOver := true, held := held }
  /-- A reader goes on. -/
  | went {event : Event} (hub : Hub) {j : Nat} {x y : Reader} (hx : b.readers[j]? = some x)
      (hgoes : x.Goes y) (hcompletes : event.completes = false) :
      Comes b event { b with hub := hub, readers := b.readers.set j y }

variable {event : Event} {b' : Broadcast}

theorem Comes.of_not_completes (hcompletes : event.completes = false) (hub : Hub)
    (handles : List Stream) : b.Comes event { b with hub := hub, handles := handles } := by
  refine .still hub handles fun h => ?_
  rw [hcompletes] at h
  cases h

theorem comes_act (b : Broadcast) (event : Event) : b.Comes event (b.act event) := by
  cases event with
  | park =>
    rw [act]
    split
    · exact .parked _
    · exact .of_not_completes rfl b.hub b.handles
  | handle =>
    rw [act]
    split
    · exact .of_not_completes rfl b.hub _
    · exact .of_not_completes rfl b.hub b.handles
  | clone j =>
    rw [act]
    split
    · exact .of_not_completes rfl b.hub _
    · exact .of_not_completes rfl b.hub b.handles
  | subscribe j =>
    rw [act]
    split
    · exact .subscribed j _ _
    · exact .of_not_completes rfl b.hub b.handles
  | push document =>
    rw [act]
    split
    · by_cases hnobody : b.audience = 0
      · rw [if_pos hnobody]
        exact .of_not_completes rfl _ b.handles
      · rw [if_neg hnobody]
        refine .published _ document (Bool.eq_false_iff.2 fun hover => hnobody ?_)
        rw [audience, if_pos hover]
    · exact .of_not_completes rfl b.hub b.handles
  | complete =>
    rw [act]
    split
    · exact .completed _ b.held rfl
    · rename_i hgone
      exact .still b.hub b.handles fun _ => Bool.eq_false_iff.2 hgone
  | drop =>
    rw [act]
    split
    · exact .completed _ false rfl
    · rename_i hgone
      exact .still b.hub b.handles fun _ => Bool.eq_false_iff.2 hgone
  | unsubscribe j =>
    rw [act]
    split
    · rename_i x hx
      split
      · exact .of_not_completes rfl b.hub b.handles
      · exact .went _ hx ⟨rfl, List.prefix_refl _⟩ rfl
    · exact .of_not_completes rfl b.hub b.handles
  | next j =>
    rw [act]
    split
    · rename_i x hx
      split
      · exact .of_not_completes rfl b.hub b.handles
      · exact .went _ hx (goes_read b x) rfl
    · exact .of_not_completes rfl b.hub b.handles

/-- No reader goes away. -/
theorem Comes.exists_goes (h : b.Comes event b') {i : Nat} (hx : b.readers[i]? = some x) :
    ∃ y, b'.readers[i]? = some y ∧ x.Goes y := by
  cases h with
  | still => exact ⟨x, hx, .refl x⟩
  | parked => exact ⟨x, hx, .refl x⟩
  | published => exact ⟨x, hx, .refl x⟩
  | completed => exact ⟨x, hx, .refl x⟩
  | subscribed =>
    have hlt := (List.getElem?_eq_some_iff.1 hx).1
    exact ⟨x, (List.getElem?_append_left hlt).trans hx, .refl x⟩
  | @went _ _ j z z' hz hgoes =>
    obtain ⟨hlt, -⟩ := List.getElem?_eq_some_iff.1 hx
    by_cases hij : j = i
    · subst hij
      cases hx.symm.trans hz
      exact ⟨z', List.getElem?_set_self hlt, hgoes⟩
    · exact ⟨x, (List.getElem?_set_ne hij).trans hx, .refl x⟩

/-- When the stream is over nothing more is published. -/
theorem Comes.published_eq (h : b.Comes event b') (hover : b.isOver = true) :
    b'.published = b.published := by
  cases h with
  | published _ _ hover' =>
    rw [hover] at hover'
    cases hover'
  | _ => rfl

theorem exists_goes_run (events : List Event) {i : Nat} (hx : b.readers[i]? = some x) :
    ∃ y, (b.run events).readers[i]? = some y ∧ x.Goes y := by
  induction events generalizing b x with
  | nil => exact ⟨x, hx, .refl x⟩
  | cons event events ih =>
    obtain ⟨y, hy, hgoes⟩ := (comes_act b event).exists_goes hx
    obtain ⟨z, hz, hgoes'⟩ := ih hy
    exact ⟨z, hz, hgoes.trans hgoes'⟩

/-! ## When the stream is over -/

theorem le_of_attachAt (h : b.attachAt = some a) : a ≤ b.published.length := by
  unfold attachAt at h
  split at h
  · cases h
  · exact (Option.some.inj h).ge

/-- Nobody is ahead of time. -/
structure Timely (b : Broadcast) : Prop where
  /-- A publisher that has gone has completed the stream. -/
  held : b.held = false → b.isOver = true
  /-- No reader was attached later than now. -/
  readers : ∀ x ∈ b.readers, ∀ a, x.attached = some a → a ≤ b.published.length
  /-- Nor was a receiver parked later than now. -/
  parked : ∀ a, b.parkedAt = some a → a ≤ b.published.length

theorem Timely.le_of_or (h : b.Timely) (ha : b.parkedAt.or b.attachAt = some a) :
    a ≤ b.published.length := by
  rcases Option.or_eq_some_iff.1 ha with ha | ⟨-, ha⟩
  · exact h.parked a ha
  · exact le_of_attachAt ha

theorem Timely.start (n : Nat) : (start n).Timely := ⟨nofun, nofun, nofun⟩

theorem Timely.comes (h : b.Timely) (hcomes : b.Comes event b') : b'.Timely := by
  cases hcomes with
  | still => exact ⟨h.held, h.readers, h.parked⟩
  | parked => exact ⟨h.held, h.readers, fun a => h.le_of_or⟩
  | subscribed =>
    refine ⟨h.held, List.forall_mem_append.2 ⟨h.readers, ?_⟩, nofun⟩
    exact List.forall_mem_singleton.2 fun a => h.le_of_or
  | published _ document =>
    have hle : b.published.length ≤ (b.published ++ [document]).length := by simp
    exact ⟨h.held, fun x hx a ha => (h.readers x hx a ha).trans hle,
      fun a ha => (h.parked a ha).trans hle⟩
  | completed => exact ⟨fun _ => rfl, h.readers, h.parked⟩
  | went _ hx hgoes =>
    refine ⟨h.held, fun z hz a ha => ?_, h.parked⟩
    rcases List.mem_or_eq_of_mem_set hz with hz | rfl
    · exact h.readers z hz a ha
    · exact h.readers _ (List.mem_of_getElem? hx) a (hgoes.attached_eq ▸ ha)

/-- Completing is once and for all. -/
theorem Timely.isOver_comes (h : b.Timely) (hcomes : b.Comes event b') :
    b'.isOver = (b.isOver || event.completes) := by
  cases hcomes with
  | still _ _ hheld =>
    cases hcompletes : event.completes with
    | false => exact (Bool.or_false _).symm
    | true =>
      have hover := h.held (hheld hcompletes)
      show b.isOver = _
      rw [hover, Bool.true_or]
  | parked => exact (Bool.or_false _).symm
  | subscribed => exact (Bool.or_false _).symm
  | published => exact (Bool.or_false _).symm
  | completed _ _ hcompletes => rw [hcompletes, Bool.or_true]
  | went _ _ _ hcompletes => rw [hcompletes, Bool.or_false]

theorem Timely.run (h : b.Timely) (events : List Event) : (b.run events).Timely := by
  induction events generalizing b with
  | nil => exact h
  | cons event events ih => exact ih (h.comes (comes_act b event))

/-- A stream is over when something has completed it. -/
theorem Timely.isOver_run (h : b.Timely) (events : List Event) :
    (b.run events).isOver = (b.isOver || events.any Event.completes) := by
  induction events generalizing b with
  | nil => exact (Bool.or_false _).symm
  | cons event events ih =>
    rw [List.any_cons, ← Bool.or_assoc, ← h.isOver_comes (comes_act b event)]
    exact ih (h.comes (comes_act b event))

theorem Timely.published_run (h : b.Timely) (hover : b.isOver = true) (events : List Event) :
    (b.run events).published = b.published := by
  induction events generalizing b with
  | nil => rfl
  | cons event events ih =>
    have hcomes := comes_act b event
    have hover' : (b.act event).isOver = true := by
      rw [h.isOver_comes hcomes, hover, Bool.true_or]
    exact (ih (h.comes hcomes) hover').trans (hcomes.published_eq hover)

/-- A reader that has come to the end of a stream stays there. -/
theorem Inv.ended_run (h : b.Inv capacity) (htimely : b.Timely) (hcapacity : 0 < capacity)
    {i : Nat} (hx : b.readers[i]? = some x) (hended : (b.hub.next x.sub).1 = .ended)
    (more : List Event) :
    ∃ y, (b.run more).readers[i]? = some y ∧ ((b.run more).hub.next y.sub).1 = .ended := by
  obtain ⟨hover, hall⟩ := (h.next_eq_ended_iff hcapacity (List.mem_of_getElem? hx)).1 hended
  obtain ⟨y, hy, hgoes⟩ := exists_goes_run more hx
  refine ⟨y, hy, ((h.run more).next_eq_ended_iff hcapacity (List.mem_of_getElem? hy)).2 ⟨?_, ?_⟩⟩
  · rw [htimely.isOver_run, hover, Bool.true_or]
  · rw [hgoes.attached_eq, htimely.published_run hover]
    intro a ha m ham hm
    obtain ⟨m', hmem, hle⟩ := hall a ha m ham hm
    obtain ⟨rest, hrest⟩ := hgoes.got
    refine ⟨m', ?_, hle⟩
    rw [← hrest, numbers_append]
    exact List.mem_append_left _ hmem

/-! ## The parked receivers -/

/-- The receiver that is parked. -/
def slot (b : Broadcast) : Option Nat :=
  b.hub.feeds[0]?.bind (·.parked)

theorem Inv.slot_eq (h : b.Inv capacity) : b.slot = b.parkedAt := by
  obtain ⟨f, hhub, hserves⟩ := h.serves
  rw [slot, hhub]
  exact hserves.parked_eq

/-- The receivers that have been parked, numbered from zero as they came. -/
structure Parking where
  /-- How many there were. -/
  count : Nat := 0
  /-- Those that were taken, each with the number of the subscription that took it. -/
  taken : List (Nat × Nat) := []
  deriving DecidableEq, Repr

/-- What is added from `b` to `b'`. A receiver has been parked when there is one where there was
none, and it is taken when a subscription is made while it is there. -/
def Parking.note (k : Parking) (b b' : Broadcast) : Parking where
  count := if b.slot.isNone ∧ b'.slot.isSome then k.count + 1 else k.count
  taken :=
    if b.slot.isSome ∧ b.readers.length < b'.readers.length then
      k.taken ++ [(k.count - 1, b.readers.length)]
    else k.taken

/-- The receivers that are parked and taken while some events happen. -/
def parking (b : Broadcast) (k : Parking) : List Event → Parking
  | [] => k
  | event :: events => (b.act event).parking (k.note b (b.act event)) events

/-- Of the receivers that have been parked each has been taken once, in turn, but for the one that
is still parked. -/
def Parking.Counts (k : Parking) (b : Broadcast) : Prop :=
  k.taken.map Prod.fst ++ b.slot.toList.map (fun _ => k.count - 1) = List.range k.count

variable {k : Parking}

theorem Parking.Counts.of_eq (hk : k.Counts b) (hslot : b'.slot = b.slot)
    (hreaders : b'.readers.length = b.readers.length) : (k.note b b').Counts b' := by
  have hnote : k.note b b' = k := by
    rw [Parking.note, hslot, hreaders]
    cases b.slot <;> simp
  rw [hnote, Counts, hslot]
  exact hk

/-- The receiver that is parked now has the next number. -/
theorem Parking.Counts.of_parked (hk : k.Counts b) (hnone : b.slot = none) {p : Nat}
    (hsome : b'.slot = some p) : (k.note b b').Counts b' := by
  rw [Counts, hnone] at hk
  replace hk : k.taken.map Prod.fst = List.range k.count := by simpa using hk
  rw [Counts, Parking.note, hnone, hsome]
  simp [hk, List.range_succ]

/-- A subscription has taken the parked receiver, or there was none. -/
theorem Parking.Counts.of_taken (hk : k.Counts b) (hnone : b'.slot = none)
    (hreaders : b.readers.length < b'.readers.length) : (k.note b b').Counts b' := by
  rw [Counts] at hk
  rw [Counts, Parking.note, hnone]
  cases hslot : b.slot with
  | none => simpa [hslot] using hk
  | some p => simpa [hslot, hreaders] using hk

theorem Parking.Counts.comes (hk : k.Counts b) (h : b.Inv capacity) (h' : b'.Inv capacity)
    (hcomes : b.Comes event b') : (k.note b b').Counts b' := by
  have hslot := h.slot_eq
  have hslot' := h'.slot_eq
  cases hcomes with
  | subscribed => exact hk.of_taken hslot' (by simp)
  | parked =>
    rcases Option.eq_none_or_eq_some b.parkedAt with hnone | ⟨p, hp⟩
    · replace hslot' := hslot'.trans (congrArg (·.or b.attachAt) hnone)
      rcases Option.eq_none_or_eq_some b.attachAt with hat | ⟨p, hp⟩
      · exact hk.of_eq (hslot'.trans (hat.trans (hslot.trans hnone).symm)) rfl
      · exact hk.of_parked (hslot.trans hnone) (hslot'.trans hp)
    · refine hk.of_eq ((hslot'.trans ?_).trans hslot.symm) rfl
      rw [hp, Option.some_or]
  | still => exact hk.of_eq (hslot'.trans hslot.symm) rfl
  | published => exact hk.of_eq (hslot'.trans hslot.symm) rfl
  | completed => exact hk.of_eq (hslot'.trans hslot.symm) rfl
  | went => exact hk.of_eq (hslot'.trans hslot.symm) List.length_set

theorem Parking.Counts.run (hk : k.Counts b) (h : b.Inv capacity) (events : List Event) :
    (b.parking k events).Counts (b.run events) := by
  induction events generalizing b k with
  | nil => exact hk
  | cons event events ih =>
    exact ih (hk.comes h (h.act event) (comes_act b event)) (h.act event)

/-- No receiver is taken twice. -/
theorem Parking.Counts.nodup (hk : k.Counts b) : (k.taken.map Prod.fst).Nodup := by
  have hnodup := List.nodup_range (n := k.count)
  rw [← hk] at hnodup
  exact hnodup.of_append_left

/-! ## All who have to do with a stream -/

/-- What they are told, by whether the stream is over. -/
structure Attended (b : Broadcast) (capacity : Nat) (isOver : Bool) (f : Feed) : Prop where
  /-- There is one feed. -/
  hub_eq : b.hub = ⟨[f]⟩
  /-- It is active until the stream is over. -/
  active_eq : f.active = !isOver
  /-- Every stream shows whether it is. -/
  handles : ∀ stream ∈ b.handles, b.hub.isActive stream = !isOver
  /-- Until then all are counted who have not been given up, and the receiver that is parked. -/
  audience_eq : isOver = false →
    f.audience = b.readers.countP (!·.dropped) + f.parked.toList.length
  /-- The publisher is told the same number with every document. -/
  push_eq : isOver = false → ∀ document,
    (f.push document).1 = b.readers.countP (!·.dropped) + f.parked.toList.length
  /-- Each of them receives what is published. -/
  ready : isOver = false → ∀ x ∈ b.readers, x.dropped = false → ∃ p, x.sub.place = some (0, p) ∧
    ∀ document, ((f.publish document).ready p).getLast? = some document
  /-- So does the receiver that is parked. -/
  ready_parked : isOver = false → ∀ p, f.parked = some p →
    ∀ document, ((f.publish document).ready p).getLast? = some document
  /-- No reader has seen the end. -/
  not_ended : isOver = false → ∀ x ∈ b.readers, x.sub.isEnded = false
  /-- When it is over nobody is counted. -/
  audience_zero : isOver = true → f.audience = 0
  /-- Nothing that is published then comes to anybody, and the publisher is told so. -/
  push_over : isOver = true → ∀ document, f.push document = (0, f)
  /-- A reader reads the end when the stream is over and it has read each document since it was
  attached, or a later one. -/
  ended_iff : ∀ x ∈ b.readers, (b.hub.next x.sub).1 = .ended ↔ isOver = true ∧
    ∀ a, x.attached = some a → ∀ m, a ≤ m → m < b.published.length →
      ∃ m' ∈ numbers capacity a x.got, m ≤ m'

/-- What somebody receives is the last that is ready for a receiver. -/
theorem Serves.getLast?_ready (h : b.Serves capacity f) (hcapacity : 0 < capacity)
    (hsomebody : f.audience ≠ 0) {p : Nat} (hp : p ≤ b.published.length) (document : String) :
    ((f.publish document).ready p).getLast? = some document := by
  have hkept := congrArg Feed.capacity (f.publish_eq document)
  have hlt : max p ((b.published ++ [document]).length - (f.publish document).capacity) <
      (b.published ++ [document]).length := by
    rw [hkept, List.length_append, List.length_singleton, h.capacity_eq]
    omega
  rw [(h.toHolds.publish hsomebody document).ready_eq_drop, List.getLast?_drop,
    if_neg (Nat.not_le.2 hlt), List.getLast?_concat]

/-- Until the stream is over only those are not counted who have been given up. -/
theorem Inv.countP_isAttached (h : b.Inv capacity) (hover : b.isOver = false) :
    b.readers.countP Reader.isAttached = b.readers.countP (!·.dropped) := by
  refine List.countP_congr fun x hx => ?_
  rw [Reader.isAttached, ((h.readers x hx).attached_of_not_over hover).1, Bool.true_and]

theorem Inv.attended (h : b.Inv capacity) (htimely : b.Timely) (hcapacity : 0 < capacity) :
    ∃ f, b.Attended capacity b.isOver f := by
  obtain ⟨f, hhub, hserves⟩ := h.serves
  have haudience : b.isOver = false →
      f.audience = b.readers.countP (!·.dropped) + f.parked.toList.length := by
    intro hover
    rw [hserves.audience_eq, audience, hover, h.countP_isAttached hover, hserves.parked_eq]
    rfl
  have hzero : b.isOver = true → f.audience = 0 := by
    intro hover
    rw [hserves.audience_eq, audience, hover]
    rfl
  refine ⟨f, hhub, hserves.active_eq, ?_, haudience, ?_, ?_, ?_, ?_, hzero, ?_, ?_⟩
  · intro stream hstream
    rw [h.handles stream hstream, hhub, ← hserves.active_eq]
    rfl
  · intro hover document
    rw [Feed.push_eq]
    exact haudience hover
  · intro hover x hx hdropped
    obtain ⟨hattached, p, hplace⟩ := (h.readers x hx).attached_of_not_over hover
    have hsomebody : f.audience ≠ 0 := by
      have hpos : 0 < b.readers.countP (!·.dropped) :=
        List.countP_pos_iff.2 ⟨x, hx, by rw [hdropped]; rfl⟩
      have heq := haudience hover
      omega
    refine ⟨p, hplace, hserves.getLast?_ready hcapacity hsomebody ?_⟩
    cases h.readers x hx with
    | late _ hnone => rw [hnone] at hplace; cases hplace
    | attached ha hstands =>
      rcases hstands.place with hp | ⟨hnone, -⟩
      · cases hplace.symm.trans hp
        exact hstands.position_le (htimely.readers x hx _ ha)
      · rw [hnone] at hplace
        cases hplace
  · intro hover p hp
    have hsomebody : f.audience ≠ 0 := by
      have heq := haudience hover
      rw [hp, Option.toList_some, List.length_singleton] at heq
      omega
    exact hserves.getLast?_ready hcapacity hsomebody
      (htimely.parked p (hserves.parked_eq.symm.trans hp))
  · intro hover x hx
    obtain ⟨-, p, hplace⟩ := (h.readers x hx).attached_of_not_over hover
    rw [Subscription.isEnded, hplace]
    rfl
  · intro hover document
    rw [Feed.push_eq, hzero hover, if_pos rfl]
  · exact fun x hx => h.next_eq_ended_iff hcapacity hx

/-- However pushing, parking, subscribing, reading and giving up come in turn, a stream is over when
something has completed it, for good and for all who hold it. Until then all who have subscribed and
not given up are counted and receive what is published, with the receiver that is parked, which one
subscription takes at most. A subscription reads the end when there is nothing left for it to read
in a stream that is over, and from then on. -/
theorem run_attended (n : Nat) (events : List Event) :
    (∃ f, ((start n).run events).Attended (Feed.ofCapacity n).capacity
      (events.any Event.completes) f) ∧
    (((start n).parking {} events).taken.map Prod.fst).Nodup ∧
    ∀ (i : Nat) (x : Reader), ((start n).run events).readers[i]? = some x →
      (((start n).run events).hub.next x.sub).1 = .ended → ∀ more,
        ∃ y : Reader, ((start n).run (events ++ more)).readers[i]? = some y ∧
          (((start n).run (events ++ more)).hub.next y.sub).1 = .ended := by
  have h := (Inv.start n).run events
  have htimely := (Timely.start n).run events
  have hcapacity : 0 < (Feed.ofCapacity n).capacity :=
    (Nat.le_max_right n 1).trans (Feed.isLeast_capacity n).1.1
  have hover : ((start n).run events).isOver = events.any Event.completes :=
    ((Timely.start n).isOver_run events).trans (Bool.false_or _)
  refine ⟨?_, ?_, ?_⟩
  · rw [← hover]
    exact h.attended htimely hcapacity
  · have hcounts : Parking.Counts {} (start n) := rfl
    exact (hcounts.run (Inv.start n) events).nodup
  · intro i x hx hended more
    have happend : (start n).run (events ++ more) = ((start n).run events).run more :=
      List.foldl_append
    rw [happend]
    exact h.ended_run htimely hcapacity hx hended more

/-- A subscription takes the parked receiver, reads what came before it and then the end, also
after another one has come too late. -/
theorem run_attended_drained :
    let events : List Event := [.park, .handle, .push "a", .subscribe 0, .drop, .next 0]
    let x : Reader := ⟨⟨some (0, 1)⟩, some 0, false, [("a", 1)]⟩
    ((start 1).run events).readers = [x] ∧
      (((start 1).run events).hub.next x.sub).1 = .ended ∧
      ∃ y : Reader, ((start 1).run (events ++ [.subscribe 0, .next 1])).readers[0]? = some y ∧
        (((start 1).run (events ++ [.subscribe 0, .next 1])).hub.next y.sub).1 = .ended := by
  intro events x
  have hreaders : ((start 1).run events).readers = [x] := by decide +kernel
  have hended : (((start 1).run events).hub.next x.sub).1 = .ended := by decide +kernel
  obtain ⟨-, -, hstays⟩ := run_attended 1 events
  exact ⟨hreaders, hended, hstays 0 x (by rw [hreaders]; rfl) hended [.subscribe 0, .next 1]⟩

end Broadcast

end ClusterLink
