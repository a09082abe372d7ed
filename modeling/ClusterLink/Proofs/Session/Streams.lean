import ClusterLink.Session

/-!
# The stream in progress and its feed

At any time at most one feed of a session is active, that of the stream in
progress (`OneFeed`). Callers who subscribe, read and give up subscriptions
change nothing about that, frames and closing keep it, and when a stream has
ended no feed is active (`OneFeed.isActive_eq_false`).
-/

namespace ClusterLink

open Reply (Frame Header)

/-! ### Feeds -/

namespace Feed

@[simp] theorem active_park (f : Feed) : f.park.active = f.active := by
  unfold park attach?
  split
  · rfl
  · by_cases h : f.active <;> simp [h]

@[simp] theorem active_publish (f : Feed) (document : String) :
    (f.publish document).active = f.active := by
  unfold publish push
  split
  · split <;> rfl
  · rfl

@[simp] theorem active_foldl_publish (documents : List String) (f : Feed) :
    (documents.foldl publish f).active = f.active := by
  induction documents generalizing f with
  | nil => rfl
  | cons document documents ih => rw [List.foldl_cons, ih, active_publish]

theorem active_of_subscribe? {f f' : Feed} {receiver : Nat}
    (h : f.subscribe? = some (receiver, f')) : f'.active = f.active := by
  unfold subscribe? attach? at h
  split at h
  · cases h
    rfl
  · split at h
    · cases h
      rfl
    · cases h

end Feed

/-! ### The hub -/

namespace Hub

/-- A feed that has just begun is the last one. -/
theorem isActive_start (h : Hub) (feed : Feed) (i : Nat) :
    (h.start feed).2.isActive ⟨some i⟩ = true ↔
      h.isActive ⟨some i⟩ = true ∨ i = h.feeds.length ∧ feed.active = true := by
  simp only [isActive, start, Option.bind_some]
  rcases Nat.lt_trichotomy i h.feeds.length with hi | rfl | hi
  · rw [List.getElem?_append_left hi]
    constructor
    · exact .inl
    · rintro (h | ⟨rfl, -⟩)
      · exact h
      · exact absurd hi (Nat.lt_irrefl _)
  · simp
  · rw [List.getElem?_eq_none (by simp; omega), List.getElem?_eq_none (by omega)]
    simp
    omega

/-- Only a change of its feed can end a stream. -/
theorem isActive_update (h : Hub) (i j : Nat) (change : Feed → Feed) :
    (h.update i change).isActive ⟨some j⟩ =
      (h.feeds[j]?).any fun f => if i = j then (change f).active else f.active := by
  simp only [isActive, update, Option.bind_some, List.getElem?_modify]
  cases h.feeds[j]? with
  | none => rfl
  | some f => by_cases hij : i = j <;> simp [hij]

theorem isActive_update_eq (h : Hub) (i j : Nat) {change : Feed → Feed}
    (hchange : ∀ f, (change f).active = f.active) :
    (h.update i change).isActive ⟨some j⟩ = h.isActive ⟨some j⟩ := by
  simp only [isActive_update, hchange, ite_self]
  rfl

theorem isActive_update_complete (h : Hub) (i j : Nat) :
    (h.update i .complete).isActive ⟨some j⟩ = true ↔ j ≠ i ∧ h.isActive ⟨some j⟩ = true := by
  rw [isActive_update]
  by_cases hij : i = j
  · subst hij
    cases h.feeds[i]? <;> simp [Feed.complete]
  · simp [hij, Ne.symm hij, isActive]

@[simp] theorem isActive_unsubscribe (h : Hub) (sub : Subscription) (i : Nat) :
    (h.unsubscribe sub).isActive ⟨some i⟩ = h.isActive ⟨some i⟩ := by
  unfold unsubscribe
  split
  · exact isActive_update_eq _ _ _ fun f => rfl
  · rfl

@[simp] theorem isActive_next (h : Hub) (sub : Subscription) (i : Nat) :
    (h.next sub).2.2.isActive ⟨some i⟩ = h.isActive ⟨some i⟩ := by
  unfold next
  dsimp only
  split
  · rfl
  · exact isActive_unsubscribe _ _ _
  · rfl

@[simp] theorem isActive_subscribe (h : Hub) (stream : Stream) (i : Nat) :
    (h.subscribe stream).2.isActive ⟨some i⟩ = h.isActive ⟨some i⟩ := by
  obtain ⟨_ | j⟩ := stream
  · rfl
  · cases hfeed : h.feeds[j]? with
    | none => simp [subscribe, hfeed]
    | some feed =>
      cases hsub : feed.subscribe? with
      | none => simp [subscribe, hfeed, hsub]
      | some taken =>
        obtain ⟨receiver, feed'⟩ := taken
        have hsubscribe : (h.subscribe ⟨some j⟩).2 = h.update j fun _ => feed' := by
          simp [subscribe, hfeed, hsub]
        rw [hsubscribe, isActive_update]
        by_cases hij : j = i
        · subst hij
          simp [isActive, hfeed, Feed.active_of_subscribe? hsub]
        · simp [isActive, hij]

end Hub

/-! ### The session -/

namespace Session

/-- The feed of the stream in progress is active, and no other. -/
def OneFeed (s : Session) : Prop :=
  ∀ i, s.hub.isActive ⟨some i⟩ = true ↔ s.stream.bind (·.feed) = some i

variable {s : Session}

/-- When there is no stream in progress, none brings anything any more. -/
theorem OneFeed.isActive_eq_false (h : s.OneFeed) (hstream : s.stream = none) (stream : Stream) :
    s.hub.isActive stream = false := by
  obtain ⟨_ | i⟩ := stream
  · rfl
  · rw [← Bool.not_eq_true, h i, hstream]
    simp

theorem OneFeed.new (host : String) (settings : Settings) :
    OneFeed { host := host, settings := settings } := by
  intro i
  simp [Hub.isActive]

/-- What callers do with their streams ends none and begins none. -/
theorem OneFeed.of_hub {hub : Hub} (h : s.OneFeed)
    (hhub : ∀ i, hub.isActive ⟨some i⟩ = s.hub.isActive ⟨some i⟩) :
    OneFeed { s with hub := hub } := by
  intro i
  show hub.isActive ⟨some i⟩ = true ↔ _
  rw [hhub]
  exact h i

theorem stream_endStream (s : Session) : s.endStream.stream = none := rfl

theorem OneFeed.endStream (h : s.OneFeed) : s.endStream.OneFeed := by
  intro i
  rw [stream_endStream]
  unfold Session.endStream
  cases hfeed : s.stream.bind (·.feed) with
  | none =>
    show s.hub.isActive ⟨some i⟩ = true ↔ _
    rw [h i, hfeed]
    simp
  | some feed =>
    show (s.hub.update feed .complete).isActive ⟨some i⟩ = true ↔ _
    rw [Hub.isActive_update_complete, h i, hfeed]
    simp
    exact fun hne heq => hne heq.symm

theorem OneFeed.close (h : s.OneFeed) : s.close.OneFeed :=
  h.endStream

/-- A stream begins where there is none. -/
theorem OneFeed.openStream (h : s.OneFeed) (hstream : s.stream = none) (code : UInt16) :
    (s.openStream code).2.OneFeed := by
  cases hcarry : s.outstanding.carry? with
  | none =>
    simp only [Session.openStream, hcarry]
    exact h
  | some carried =>
    obtain ⟨ticket, outstanding⟩ := carried
    cases hsuccess : (Status.ofCode code).isSuccess with
    | false =>
      simp only [Session.openStream, hcarry, hsuccess, Bool.false_eq_true, if_false]
      intro i
      show s.hub.isActive ⟨some i⟩ = true ↔ _
      rw [h i, hstream]
      simp
    | true =>
      simp only [Session.openStream, hcarry, hsuccess, if_true, openFeed]
      intro i
      show (s.hub.start _).2.isActive ⟨some i⟩ = true ↔ some s.hub.feeds.length = some i
      rw [Hub.isActive_start, h i, hstream, Feed.active_park]
      simp [Feed.ofCapacity, eq_comm]

theorem OneFeed.yieldReply (h : s.OneFeed) : s.yieldReply.OneFeed := by
  unfold Session.yieldReply
  split
  · exact h
  · rename_i stream hstream
    split
    · intro i
      have hi := h i
      rw [hstream] at hi
      exact hi
    · exact h.endStream

theorem OneFeed.start (h : s.OneFeed) (head : Header) : (s.start head).2.OneFeed := by
  have hassembly : OneFeed { s with assembly := .start head } := h
  unfold Session.start
  split
  · exact h
  · dsimp only
    split
    · split
      · exact hassembly.endStream.openStream rfl _
      · rename_i hnone
        exact hassembly.openStream (by simpa using hnone) _
    · exact hassembly.yieldReply

theorem OneFeed.passOn (h : s.OneFeed) : s.passOn.OneFeed := by
  unfold Session.passOn
  split
  · exact h
  · rename_i stream hstream
    have hfeed (i : Nat) : s.hub.isActive ⟨some i⟩ = true ↔ stream.feed = some i := by
      have hi := h i
      rw [hstream] at hi
      exact hi
    dsimp only
    split
    · intro i
      exact hfeed i
    · rename_i feed _
      intro i
      show (s.hub.update feed _).isActive ⟨some i⟩ = true ↔ stream.feed = some i
      rw [Hub.isActive_update_eq _ _ _ (Feed.active_foldl_publish _), hfeed i]

theorem OneFeed.gather (h : s.OneFeed) (bytes : Bytes) : (s.gather bytes).2.OneFeed := by
  unfold Session.gather
  split
  · exact h
  · exact OneFeed.passOn h

theorem OneFeed.finish (h : s.OneFeed) : s.finish.2.OneFeed := by
  unfold Session.finish
  split
  · exact h.close
  · split
    · exact h
    · dsimp only
      split
      · exact h
      · split
        · exact h
        · exact h

/-- What heads, pieces of a body and ends keep, every frame keeps. -/
theorem receive_keeps {Keeps : Session → Prop}
    (hstart : ∀ {s : Session} (head : Header), Keeps s → Keeps (s.start head).2)
    (hgather : ∀ {s : Session} (bytes : Bytes), Keeps s → Keeps (s.gather bytes).2)
    (hfinish : ∀ {s : Session}, Keeps s → Keeps s.finish.2) (h : Keeps s) (frame : Frame) :
    Keeps (s.receive frame).2 := by
  cases frame with
  | header head => exact hstart head h
  | content bytes => exact hgather bytes h
  | last bytes =>
    cases bytes with
    | nil => exact hfinish h
    | cons b bytes =>
      have hgathered := hgather (b :: bytes) h
      rw [Session.receive]
      generalize s.gather (b :: bytes) = gathered at hgathered
      obtain ⟨_ | _, s'⟩ := gathered
      · exact hgathered
      · exact hfinish hgathered

/-- Every frame leaves at most one feed active. -/
theorem OneFeed.receive (h : s.OneFeed) (frame : Frame) : (s.receive frame).2.OneFeed :=
  receive_keeps (fun head h => h.start head) (fun bytes h => h.gather bytes) (fun h => h.finish) h
    frame

end Session

end ClusterLink
