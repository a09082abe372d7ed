import ClusterLink.Proofs.Feed

/-!
# Feeds that have ended

A feed that has ended keeps its documents, whatever callers do with their subscriptions
(`Hub.Past`). Each subscription to it gets the documents that are ready for it, and then the
end, also if it has skipped some (`Past.takeReady`). Nothing that a hub does takes a feed
away.
-/

namespace ClusterLink

/-- When a receiver has read a document, the others are ready. -/
theorem Feed.ready_of_cons {f : Feed} {receiver : Nat} {document : String} {rest : List String}
    (h : f.ready receiver = document :: rest) : f.ready (max receiver f.oldest + 1) = rest := by
  have hnext : max receiver f.oldest + 1 - f.oldest = receiver - f.oldest + 1 := by
    omega
  rw [ready, hnext, ← List.tail_drop]
  exact congrArg List.tail h

namespace Hub

/-- The feed `i` has ended, and keeps the documents that `f` keeps. -/
def Past (h : Hub) (i : Nat) (f : Feed) : Prop :=
  ∃ g, h.feeds[i]? = some g ∧ g.active = false ∧ g.kept = f.kept ∧ g.total = f.total

variable {h : Hub} {f : Feed} {i j : Nat}

theorem length_update (h : Hub) (i : Nat) (change : Feed → Feed) :
    (h.update i change).feeds.length = h.feeds.length :=
  List.length_modify _ _ _

/-- No feed can be changed that is not there. -/
theorem getElem?_update_of_none (hnone : h.feeds[i]? = none) (change : Feed → Feed) :
    (h.update i change).feeds[i]? = none := by
  rw [List.getElem?_eq_none_iff] at hnone ⊢
  rw [length_update]
  exact hnone

theorem length_unsubscribe (h : Hub) (sub : Subscription) :
    (h.unsubscribe sub).feeds.length = h.feeds.length := by
  unfold unsubscribe
  split
  · exact length_update _ _ _
  · rfl

theorem length_next (h : Hub) (sub : Subscription) :
    (h.next sub).2.2.feeds.length = h.feeds.length := by
  unfold next
  dsimp only
  split
  · rfl
  · exact length_unsubscribe _ _
  · rfl

theorem length_subscribe (h : Hub) (stream : Stream) :
    (h.subscribe stream).2.feeds.length = h.feeds.length := by
  obtain ⟨_ | i⟩ := stream
  · rfl
  · cases hfeed : h.feeds[i]? with
    | none =>
      simp only [subscribe, Option.bind_eq_bind, Option.bind_some, hfeed, Option.bind_none]
      rfl
    | some f =>
      rw [subscribe_eq hfeed]
      split
      · exact length_update _ _ _
      · rfl

theorem Past.of_feed (hfeed : h.feeds[i]? = some f) (hended : f.active = false) : h.Past i f :=
  ⟨f, hfeed, hended, rfl, rfl⟩

theorem Past.isActive_eq (hpast : h.Past i f) : h.isActive ⟨some i⟩ = false := by
  obtain ⟨g, hfeed, hended, -, -⟩ := hpast
  simp only [isActive, Option.bind_some, hfeed, Option.any_some, hended]

/-- What becomes of another feed does not matter. -/
theorem Past.update_of_ne (hpast : h.Past i f) (hne : j ≠ i) (change : Feed → Feed) :
    (h.update j change).Past i f := by
  obtain ⟨g, hfeed, hg⟩ := hpast
  exact ⟨g, (getElem?_update_of_ne hne change).trans hfeed, hg⟩

theorem Past.start (hpast : h.Past i f) (feed : Feed) : (h.start feed).2.Past i f := by
  obtain ⟨g, hfeed, hg⟩ := hpast
  have hlt : i < h.feeds.length := (List.getElem?_eq_some_iff.1 hfeed).1
  exact ⟨g, (List.getElem?_append_left hlt).trans hfeed, hg⟩

/-- A receiver that is given up takes no documents with it. -/
theorem Past.unsubscribe (hpast : h.Past i f) (sub : Subscription) :
    (h.unsubscribe sub).Past i f := by
  obtain ⟨_ | ⟨j, receiver⟩⟩ := sub
  · exact hpast
  · by_cases hij : j = i
    · subst hij
      obtain ⟨g, hfeed, hg⟩ := hpast
      exact ⟨g.detach, getElem?_update_self hfeed _, hg⟩
    · exact hpast.update_of_ne hij _

theorem Past.next (hpast : h.Past i f) (sub : Subscription) : (h.next sub).2.2.Past i f := by
  obtain ⟨g, hfeed, hg⟩ := hpast
  rcases getElem?_next sub hfeed with hsame | ⟨-, hdetached⟩
  · exact ⟨g, hsame, hg⟩
  · exact ⟨g.detach, hdetached, hg⟩

/-- A feed that has ended hands out the parked receiver at most. -/
theorem Past.subscribe (hpast : h.Past i f) (stream : Stream) :
    (h.subscribe stream).2.Past i f := by
  obtain ⟨g, hfeed, hended, hg⟩ := hpast
  by_cases hstream : stream = ⟨some i⟩
  · subst hstream
    rw [subscribe_eq hfeed]
    cases hparked : g.parked with
    | some receiver =>
      rw [Feed.subscribe?_of_parked hparked]
      exact ⟨{ g with parked := none }, getElem?_update_self hfeed _, hended, hg⟩
    | none =>
      have hnone : g.subscribe? = none := by
        rw [Feed.subscribe?, hparked]
        exact if_neg (by rw [hended]; exact Bool.false_ne_true)
      rw [hnone]
      exact ⟨g, hfeed, hended, hg⟩
  · exact ⟨g, (getElem?_subscribe_of_ne hstream).trans hfeed, hended, hg⟩

theorem Past.next_eq (hpast : h.Past i f) (receiver : Nat) :
    h.next ⟨some (i, receiver)⟩ = match f.ready receiver with
      | document :: _ => (.document document, ⟨some (i, max receiver f.oldest + 1)⟩, h)
      | [] => (.ended, ⟨none⟩, h.update i .detach) := by
  obtain ⟨g, hfeed, hended, hkept, htotal⟩ := hpast
  have holdest : g.oldest = f.oldest := by
    rw [Feed.oldest, Feed.oldest, hkept, htotal]
  have hready : g.ready receiver = f.ready receiver := by
    rw [Feed.ready, Feed.ready, hkept, holdest]
  simp only [Hub.next, Option.bind_some, hfeed, Option.map_some, Feed.next, hready, holdest, hended]
  cases f.ready receiver <;> rfl

/-- A subscription to a feed that has ended gets what is ready for it, and then the end. -/
theorem Past.takeReady (hpast : h.Past i f) {receiver n : Nat}
    (hn : (f.ready receiver).length ≤ n) :
    h.takeReady ⟨some (i, receiver)⟩ n =
      (f.ready receiver, .ended, ⟨none⟩, h.update i .detach) := by
  induction hready : f.ready receiver generalizing receiver n with
  | nil =>
    have hnext := hpast.next_eq receiver
    rw [hready] at hnext
    cases n <;> rw [Hub.takeReady, hnext]
  | cons document rest ih =>
    have hnext := hpast.next_eq receiver
    rw [hready] at hnext hn
    have hrest := Feed.ready_of_cons hready
    obtain ⟨m, rfl⟩ : ∃ m, n = m + 1 := ⟨n - 1, by rw [List.length_cons] at hn; omega⟩
    rw [List.length_cons, Nat.add_le_add_iff_right] at hn
    have hthen : h.takeReady ⟨some (i, max receiver f.oldest + 1)⟩ m =
        (rest, .ended, ⟨none⟩, h.update i .detach) :=
      ih (by rw [hrest]; exact hn) hrest
    rw [Hub.takeReady, hnext]
    simp only [hthen]

end Hub

end ClusterLink
