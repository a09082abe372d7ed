import ClusterLink.Hub

/-!
# What a receiver reads

A feed to which some documents have been published keeps the newest of them, as
many as its capacity (`Feed.Holds`). A receiver that is not further behind than
that gets the very next document and moves on by one; when it has had all of them
it is told to wait or, if the feed has ended, that there are no more (`Feed.next_eq`).
So whoever reads on until nothing is ready reads just the rest of the documents
(`Hub.readAll_eq`).
-/

namespace ClusterLink

namespace Feed

/-- A feed to which just these documents have been published. -/
structure Holds (f : Feed) (documents : List String) : Prop where
  /-- All of them have been counted. -/
  total_eq : f.total = documents.length
  /-- The newest are kept. -/
  kept_eq : f.kept = documents.drop (documents.length - f.capacity)

variable {f : Feed} {documents : List String}

/-- As many receive a document as are counted; if these are none, it is dropped. -/
theorem push_eq (f : Feed) (document : String) :
    f.push document = (f.audience, if f.audience = 0 then f else { f with
      kept := (f.kept ++ [document]).drop ((f.kept ++ [document]).length - f.capacity)
      total := f.total + 1 }) := by
  unfold push audience
  split
  · split
    · rename_i hnobody
      rw [hnobody]
    · rfl
  · rfl

/-- A document that nobody receives changes nothing. -/
theorem publish_of_audience_eq_zero (haudience : f.audience = 0) (document : String) :
    f.publish document = f := by
  rw [publish, push_eq, if_pos haudience]

/-- A document that somebody receives is kept behind the others. -/
theorem Holds.publish (h : f.Holds documents) (haudience : f.audience ≠ 0) (document : String) :
    (f.publish document).Holds (documents ++ [document]) := by
  rw [Feed.publish, push_eq, if_neg haudience]
  refine ⟨?_, ?_⟩
  · show f.total + 1 = (documents ++ [document]).length
    rw [h.total_eq, List.length_append, List.length_singleton]
  · show (f.kept ++ [document]).drop ((f.kept ++ [document]).length - f.capacity) =
      (documents ++ [document]).drop ((documents ++ [document]).length - f.capacity)
    have hkept : f.kept ++ [document] =
        (documents ++ [document]).drop (documents.length - f.capacity) := by
      rw [List.drop_append_of_le_length (Nat.sub_le _ _), h.kept_eq]
    rw [hkept, List.drop_drop]
    congr 1
    simp only [List.length_drop, List.length_append, List.length_singleton]
    omega

/-- Publishing changes nothing but what is kept. -/
theorem publish_eq (f : Feed) (document : String) :
    f.publish document = { f with
      kept := (f.publish document).kept
      total := (f.publish document).total } := by
  rw [publish, push_eq]
  split <;> rfl

/-- Publishes some documents one after another. -/
def publishAll (documents : List String) (f : Feed) : Feed :=
  documents.foldl publish f

theorem publishAll_append (documents more : List String) (f : Feed) :
    publishAll (documents ++ more) f = publishAll more (publishAll documents f) :=
  List.foldl_append

theorem publishAll_eq (documents : List String) (f : Feed) :
    publishAll documents f = { f with
      kept := (publishAll documents f).kept
      total := (publishAll documents f).total } := by
  induction documents generalizing f with
  | nil => rfl
  | cons document documents ih =>
    rw [publishAll, List.foldl_cons, ← publishAll, ih, publish_eq]

/-- Documents that somebody receives are kept behind the others. -/
theorem Holds.publishAll (h : f.Holds documents) (haudience : f.audience ≠ 0)
    (more : List String) : (publishAll more f).Holds (documents ++ more) := by
  induction more generalizing f documents with
  | nil => rwa [List.append_nil]
  | cons document more ih =>
    have haudience' : (f.publish document).audience ≠ 0 := by
      rw [publish_eq]
      exact haudience
    rw [← List.singleton_append, ← List.append_assoc]
    exact ih (h.publish haudience document) haudience'

/-- A receiver that is not too far behind finds all that it has yet to read. -/
theorem Holds.ready_eq (h : f.Holds documents) {receiver : Nat}
    (hbehind : documents.length ≤ receiver + f.capacity) :
    f.ready receiver = documents.drop receiver := by
  rw [ready, oldest, h.kept_eq, h.total_eq, List.drop_drop, List.length_drop]
  congr 1
  omega

/-- A receiver that is not too far behind reads the next document, or that there is none. -/
theorem Holds.next_eq (h : f.Holds documents) {receiver : Nat}
    (hbehind : documents.length ≤ receiver + f.capacity) :
    f.next receiver = match documents.drop receiver with
      | document :: _ => (.document document, receiver + 1)
      | [] => (if f.active then .pending else .ended, receiver) := by
  have holdest : f.oldest ≤ receiver := by
    rw [oldest, h.kept_eq, h.total_eq, List.length_drop]
    omega
  rw [next, h.ready_eq hbehind]
  cases documents.drop receiver with
  | nil => rfl
  | cons document rest =>
    show (Next.document document, max receiver f.oldest + 1) = _
    rw [Nat.max_eq_left holdest]

/-- Only a feed that has ended says so. -/
theorem active_eq_false_of_next {receiver receiver' : Nat}
    (h : f.next receiver = (.ended, receiver')) : f.active = false := by
  unfold next at h
  split at h
  · cases h
  · cases hactive : f.active with
    | false => rfl
    | true =>
      rw [hactive] at h
      cases h

/-- A parked receiver is the first subscription. -/
theorem subscribe?_of_parked {receiver : Nat} (h : f.parked = some receiver) :
    f.subscribe? = some (receiver, { f with parked := none }) := by
  rw [subscribe?, h]

/-! ### The feed of a stream -/

/-- The feed of a stream: how much it keeps, what has been published, and whether it has ended. -/
structure Delivers (f : Feed) (capacity : Nat) (documents : List String) (ended : Bool) : Prop
    extends f.Holds documents where
  /-- It keeps so many documents. -/
  capacity_eq : f.capacity = capacity
  /-- It is active unless it has ended. -/
  active_eq : f.active = !ended
  /-- Until then somebody receives what is published. -/
  receivers_ne : ended = false → f.receivers ≠ 0

variable {capacity : Nat} {ended : Bool}

/-- A new feed that has parked its first subscription. -/
theorem Delivers.new (n : Nat) :
    (ofCapacity n).park.Delivers (ofCapacity n).capacity [] false where
  total_eq := rfl
  kept_eq := List.drop_nil.symm
  capacity_eq := rfl
  active_eq := rfl
  receivers_ne := fun _ => Nat.one_ne_zero

theorem Delivers.publishAll (h : f.Delivers capacity documents false) (more : List String) :
    (publishAll more f).Delivers capacity (documents ++ more) false := by
  have haudience : f.audience ≠ 0 := by
    rw [audience, h.active_eq]
    exact h.receivers_ne rfl
  refine ⟨h.toHolds.publishAll haudience more, ?_, ?_, fun _ => ?_⟩
  · rw [publishAll_eq]
    exact h.capacity_eq
  · rw [publishAll_eq]
    exact h.active_eq
  · rw [publishAll_eq]
    exact h.receivers_ne rfl

theorem Delivers.complete (h : f.Delivers capacity documents false) :
    f.complete.Delivers capacity documents true :=
  ⟨⟨h.total_eq, h.kept_eq⟩, h.capacity_eq, rfl, fun hended => by cases hended⟩

theorem Delivers.detach (h : f.Delivers capacity documents ended) (hactive : f.active = false) :
    f.detach.Delivers capacity documents ended := by
  refine ⟨⟨h.total_eq, h.kept_eq⟩, h.capacity_eq, h.active_eq, fun hended => ?_⟩
  rw [h.active_eq, hended] at hactive
  cases hactive

theorem Delivers.subscribe? (h : f.Delivers capacity documents ended) {receiver : Nat} {f' : Feed}
    (hsub : f.subscribe? = some (receiver, f')) : f'.Delivers capacity documents ended := by
  unfold Feed.subscribe? attach? at hsub
  split at hsub
  · cases hsub
    exact ⟨⟨h.total_eq, h.kept_eq⟩, h.capacity_eq, h.active_eq, h.receivers_ne⟩
  · split at hsub
    · cases hsub
      exact ⟨⟨h.total_eq, h.kept_eq⟩, h.capacity_eq, h.active_eq, fun _ => Nat.succ_ne_zero _⟩
    · cases hsub

/-- Two feeds to which the same documents have been published differ in their callers only. -/
theorem Delivers.eq (h : f.Delivers capacity documents ended) {g : Feed}
    (hholds : g.Holds documents) (hcapacity : g.capacity = capacity) :
    f = { g with receivers := f.receivers, parked := f.parked, active := !ended } := by
  have hkept : f.kept = g.kept := by
    rw [h.kept_eq, hholds.kept_eq, h.capacity_eq, hcapacity]
  have htotal : f.total = g.total := by
    rw [h.total_eq, hholds.total_eq]
  rw [← hkept, ← htotal, hcapacity, ← h.capacity_eq, ← h.active_eq]

end Feed

namespace Hub

variable {h : Hub} {f : Feed} {i receiver : Nat} {documents : List String}

/-- What a subscription gets that is not too far behind. At the end it gives up its place. -/
theorem next_eq (hfeed : h.feeds[i]? = some f) (hholds : f.Holds documents)
    (hbehind : documents.length ≤ receiver + f.capacity) :
    h.next ⟨some (i, receiver)⟩ = match documents.drop receiver with
      | document :: _ => (.document document, ⟨some (i, receiver + 1)⟩, h)
      | [] =>
        if f.active then (.pending, ⟨some (i, receiver)⟩, h)
        else (.ended, ⟨none⟩, h.unsubscribe ⟨some (i, receiver)⟩) := by
  have hnext := hholds.next_eq hbehind
  simp only [next, Option.bind_some, hfeed, Option.map_some, hnext]
  cases documents.drop receiver with
  | nil => cases f.active <;> rfl
  | cons document rest => rfl

/-- Taking documents as long as they are ready. -/
theorem takeReady_eq (hfeed : h.feeds[i]? = some f) (hholds : f.Holds documents)
    (hbehind : documents.length ≤ receiver + f.capacity) :
    (h.takeReady ⟨some (i, receiver)⟩ (documents.length - receiver)).1 = documents.drop receiver ∧
      (h.takeReady ⟨some (i, receiver)⟩ (documents.length - receiver)).2.1 =
        if f.active then .pending else .ended := by
  induction hn : documents.length - receiver generalizing receiver with
  | zero =>
    have hdrop : documents.drop receiver = [] := List.drop_of_length_le (by omega)
    rw [takeReady, next_eq hfeed hholds hbehind, hdrop]
    cases f.active <;> exact ⟨rfl, rfl⟩
  | succ n ih =>
    have hlt : receiver < documents.length := by omega
    have hdrop : documents.drop receiver = documents[receiver] :: documents.drop (receiver + 1) :=
      List.drop_eq_getElem_cons hlt
    obtain ⟨htaken, hthen⟩ := ih (show _ ≤ receiver + 1 + f.capacity by omega) (by omega)
    rw [takeReady, next_eq hfeed hholds hbehind, hdrop]
    exact ⟨congrArg (documents[receiver] :: ·) htaken, hthen⟩

/-- Reading on until nothing is ready brings just the rest of the documents, and then that there are
no more if the feed has ended. -/
theorem readAll_eq (hfeed : h.feeds[i]? = some f) (hholds : f.Holds documents)
    (hbehind : documents.length ≤ receiver + f.capacity) :
    (h.readAll ⟨some (i, receiver)⟩).1 = documents.drop receiver ∧
      (h.readAll ⟨some (i, receiver)⟩).2.1 = if f.active then .pending else .ended := by
  have hbacklog : h.backlog ⟨some (i, receiver)⟩ = documents.length - receiver := by
    simp only [backlog, hfeed, Option.map_some, Option.getD_some, hholds.total_eq]
  rw [readAll, hbacklog]
  exact takeReady_eq hfeed hholds hbehind

theorem getElem?_update_self (hfeed : h.feeds[i]? = some f) (change : Feed → Feed) :
    (h.update i change).feeds[i]? = some (change f) := by
  simp only [update, List.getElem?_modify, hfeed, if_true, Option.map_eq_map, Option.map_some]

theorem getElem?_update_of_ne {j : Nat} (hne : j ≠ i) (change : Feed → Feed) :
    (h.update j change).feeds[i]? = h.feeds[i]? := by
  simp only [update, List.getElem?_modify, hne, if_false, Option.map_eq_map, Option.map_id_fun',
    id_eq]

/-- Reading leaves a feed as it is, but one that has ended may lose a receiver. -/
theorem getElem?_next (sub : Subscription) (hfeed : h.feeds[i]? = some f) :
    (h.next sub).2.2.feeds[i]? = some f ∨
      f.active = false ∧ (h.next sub).2.2.feeds[i]? = some f.detach := by
  obtain ⟨_ | ⟨j, receiver⟩⟩ := sub
  · exact .inl hfeed
  cases hj : h.feeds[j]? with
  | none =>
    simp only [next, Option.bind_some, hj, Option.map_none]
    exact .inl hfeed
  | some g =>
    rcases hnext : g.next receiver with ⟨got, receiver'⟩
    simp only [next, Option.bind_some, hj, Option.map_some, hnext]
    cases got with
    | document text => exact .inl hfeed
    | pending => exact .inl hfeed
    | ended =>
      by_cases hij : j = i
      · subst hij
        cases hj.symm.trans hfeed
        exact .inr ⟨Feed.active_eq_false_of_next hnext, getElem?_update_self hfeed _⟩
      · exact .inl ((getElem?_update_of_ne hij _).trans hfeed)

/-- A subscription to a stream is a receiver of its feed. -/
theorem subscribe_eq (hfeed : h.feeds[i]? = some f) :
    h.subscribe ⟨some i⟩ = match f.subscribe? with
      | some (receiver, f') => (⟨some (i, receiver)⟩, h.update i fun _ => f')
      | none => (⟨none⟩, h) := by
  simp only [subscribe, Option.bind_eq_bind, Option.bind_some, hfeed]
  cases f.subscribe? <;> rfl

/-- A subscription to another stream leaves a feed as it is. -/
theorem getElem?_subscribe_of_ne {stream : Stream} (hne : stream ≠ ⟨some i⟩) :
    (h.subscribe stream).2.feeds[i]? = h.feeds[i]? := by
  obtain ⟨_ | j⟩ := stream
  · rfl
  have hij : j ≠ i := fun hij => hne (by rw [hij])
  cases hj : h.feeds[j]? with
  | none =>
    simp only [subscribe, Option.bind_eq_bind, Option.bind_some, hj, Option.bind_none]
    rfl
  | some g =>
    rw [subscribe_eq hj]
    split
    · exact getElem?_update_of_ne hij _
    · rfl

end Hub

end ClusterLink
