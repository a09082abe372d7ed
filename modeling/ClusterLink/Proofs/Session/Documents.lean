import ClusterLink.Proofs.Session.Lifecycle

/-!
# Which documents a session publishes

Every frame publishes the documents that it completes. Which ones these are does not depend
on how the body is cut (`published_append`), and they are just what the feeds are given, each
one its own documents in order (`Logged.receive`).
-/

namespace ClusterLink

open Reply (Frame Header)
open Text

namespace Session

variable {s : Session}

/-! ### What is published -/

/-- The documents that a piece of a body completes, each with the number of the feed to which it is
published. -/
def published (s : Session) (bytes : Bytes) : List (Nat × String) :=
  match s.stream.bind (·.feed) with
  | some i =>
    if s.assembly.isOpen then (Document.split (s.assembly.body ++ bytes)).1.map (i, ·) else []
  | none => []

/-- The documents that a frame publishes, each with the number of its feed. -/
def publishes (s : Session) : Frame → List (Nat × String)
  | .header _ => []
  | .content bytes => s.published bytes
  | .last [] => []
  | .last (b :: bytes) => s.published (b :: bytes)

/-- The documents that have been published to one feed. -/
def documentsOf (i : Nat) (log : List (Nat × String)) : List String :=
  (log.filter (·.1 = i)).map (·.2)

/-- The feeds have been given just the documents that are noted, each its own in order. -/
structure Logged (s : Session) (settings : Settings) (log : List (Nat × String)) : Prop where
  /-- These are the settings. -/
  settings_eq : s.settings = settings
  /-- No feed is active but that of the stream in progress. -/
  one : s.OneFeed
  /-- Nothing is noted of feeds that are not there. -/
  lt_length : ∀ p ∈ log, p.1 < s.hub.feeds.length
  /-- Each feed has been given its documents. -/
  delivers : ∀ i (f : Feed), s.hub.feeds[i]? = some f →
    f.Delivers (Feed.ofCapacity settings.streamCapacity.toNat).capacity (documentsOf i log)
      (!f.active)

variable {settings : Settings} {log : List (Nat × String)}

theorem documentsOf_append (i : Nat) (log more : List (Nat × String)) :
    documentsOf i (log ++ more) = documentsOf i log ++ documentsOf i more := by
  rw [documentsOf, List.filter_append, List.map_append]
  rfl

theorem documentsOf_map (i j : Nat) (documents : List String) :
    documentsOf i (documents.map (j, ·)) = if j = i then documents else [] := by
  rw [documentsOf, List.filter_map, List.map_map]
  by_cases hij : j = i
  · simp [hij, Function.comp_def]
  · simp [hij, Function.comp_def]

theorem published_of_feed {head : Header} {body : Bytes} {i : Nat}
    (hassembly : s.assembly = .gathering head body) (hfeed : s.stream.bind (·.feed) = some i)
    (bytes : Bytes) : s.published bytes = (Document.split (body ++ bytes)).1.map (i, ·) := by
  rw [published, hfeed, hassembly]
  rfl

theorem published_of_no_feed (hfeed : s.stream.bind (·.feed) = none) (bytes : Bytes) :
    s.published bytes = [] := by
  rw [published, hfeed]

/-- Of a piece of no reply nothing is published. -/
theorem published_of_not_isOpen (hopen : s.assembly.isOpen = false) (bytes : Bytes) :
    s.published bytes = [] := by
  unfold published
  split
  · rw [hopen]
    rfl
  · rfl

/-- What a piece publishes does not depend on how it is cut. -/
theorem published_append (s : Session) (a b : Bytes) :
    s.published (a ++ b) = s.published a ++ (s.gather a).2.published b := by
  cases hopen : s.assembly.isOpen with
  | false =>
    rw [gather_of_not_isOpen hopen, published_of_not_isOpen hopen, published_of_not_isOpen hopen,
      published_of_not_isOpen hopen]
    rfl
  | true =>
    obtain ⟨head, body, hassembly⟩ := Assembly.exists_of_isOpen hopen
    cases hfeed : s.stream.bind (·.feed) with
    | none =>
      have hnext := (feed_gather s a).trans hfeed
      rw [published_of_no_feed hfeed, published_of_no_feed hfeed, published_of_no_feed hnext]
      rfl
    | some i =>
      obtain ⟨⟨hnext, head', hleft⟩, -⟩ := Publishing.gather ⟨hfeed, head, hassembly⟩ a
      rw [published_of_feed hassembly hfeed, published_of_feed hassembly hfeed,
        published_of_feed hleft hnext, ← List.append_assoc, Document.split_append (body ++ a) b,
        List.map_append]

/-! ### What the feeds have been given -/

/-- Where no feed changes nothing is published. -/
theorem Logged.congr (h : s.Logged settings log) {s' : Session} (hone : s'.OneFeed)
    (hhub : s'.hub = s.hub) (hsettings : s'.settings = s.settings) : s'.Logged settings log := by
  constructor
  · rw [hsettings, h.settings_eq]
  · exact hone
  · rw [hhub]
    exact h.lt_length
  · rw [hhub]
    exact h.delivers

theorem Logged.active (h : s.Logged settings log) {i : Nat} {f : Feed}
    (hfeed : s.stream.bind (·.feed) = some i) (hf : s.hub.feeds[i]? = some f) :
    f.active = true := by
  have hactive := (h.one i).2 hfeed
  rw [Hub.isActive, Option.bind_some, hf] at hactive
  exact hactive

theorem Logged.endStream (h : s.Logged settings log) : s.endStream.Logged settings log := by
  cases hfeed : s.stream.bind (·.feed) with
  | none =>
    refine h.congr h.one.endStream ?_ rfl
    rw [Session.endStream, hfeed]
  | some i =>
    have hhub : s.endStream.hub = s.hub.update i .complete := by
      rw [Session.endStream, hfeed]
    refine ⟨h.settings_eq, h.one.endStream, ?_, ?_⟩
    · rw [length_feeds_endStream]
      exact h.lt_length
    · intro j f hf
      by_cases hij : i = j
      · subst hij
        cases hold : s.hub.feeds[i]? with
        | none =>
          rw [hhub, Hub.getElem?_update_of_none hold] at hf
          cases hf
        | some old =>
          rw [hhub, Hub.getElem?_update_self hold] at hf
          cases hf
          have hdelivers := h.delivers i old hold
          rw [h.active hfeed hold] at hdelivers
          exact hdelivers.complete
      · rw [hhub, Hub.getElem?_update_of_ne hij] at hf
        exact h.delivers j f hf

/-- A stream that begins has been given nothing yet. -/
theorem Logged.openStream (h : s.Logged settings log) (hstream : s.stream = none) (code : UInt16) :
    (s.openStream code).2.Logged settings log := by
  have hone := h.one.openStream hstream code
  cases hqueue : s.queue with
  | nil =>
    have hsame : (s.openStream code).2 = s := by
      simp only [Session.openStream, Outstanding.carry?, hqueue]
    rw [hsame]
    exact h
  | cons t rest =>
    obtain ⟨-, hopen⟩ | hopen := openStream_cases hqueue code
    · rw [hopen] at hone ⊢
      refine ⟨h.settings_eq, hone, ?_, ?_⟩
      · intro p hp
        have hlt := h.lt_length p hp
        show p.1 < (s.hub.feeds ++ [_]).length
        rw [List.length_append]
        exact Nat.lt_add_right _ hlt
      · intro i f hf
        change (s.hub.feeds ++ [_])[i]? = some f at hf
        rcases Nat.lt_trichotomy i s.hub.feeds.length with hi | rfl | hi
        · rw [List.getElem?_append_left hi] at hf
          exact h.delivers i f hf
        · rw [List.getElem?_concat_length] at hf
          cases hf
          have hnone : documentsOf s.hub.feeds.length log = [] := by
            rw [documentsOf, List.map_eq_nil_iff, List.filter_eq_nil_iff]
            intro p hp
            have hlt := h.lt_length p hp
            simp only [decide_eq_true_eq]
            omega
          rw [hnone, h.settings_eq]
          exact Feed.Delivers.new _
        · rw [List.getElem?_eq_none (by rw [List.length_append]; exact hi)] at hf
          cases hf
    · rw [hopen] at hone ⊢
      exact h.congr hone rfl rfl

theorem Logged.yieldReply (h : s.Logged settings log) : s.yieldReply.Logged settings log := by
  have hone := h.one.yieldReply
  rcases hstream : s.stream with _ | stream
  · have hyield : s.yieldReply = s := by
      simp only [Session.yieldReply, hstream]
    rw [hyield]
    exact h
  · by_cases hfeed : stream.feed.isSome = true
    · have hyield : s.yieldReply =
          { s with stream := some { stream with ownsReply := false } } := by
        simp only [Session.yieldReply, hstream, hfeed, if_true]
      rw [hyield] at hone ⊢
      exact h.congr hone rfl rfl
    · have hyield : s.yieldReply = s.endStream := by
        simp only [Session.yieldReply, hstream, hfeed, Bool.false_eq_true, if_false]
      rw [hyield]
      exact h.endStream

theorem Logged.start (h : s.Logged settings log) (head : Header) :
    (s.start head).2.Logged settings log := by
  have hbegun : Logged { s with assembly := .start head } settings log := h.congr h.one rfl rfl
  cases hqueue : s.queue with
  | nil =>
    rw [start_of_queue_eq_nil hqueue]
    exact h
  | cons t rest =>
    cases hkind : t.request.kind.isStreaming with
    | true =>
      rw [start_of_streaming hqueue hkind]
      cases hstream : s.stream with
      | none =>
        have hway : s.makeWay head = { s with assembly := .start head } := by
          rw [makeWay, hstream]
          rfl
        rw [hway]
        exact hbegun.openStream hstream _
      | some stream =>
        have hway : s.makeWay head = { s with assembly := .start head }.endStream := by
          rw [makeWay, hstream]
          rfl
        rw [hway]
        exact hbegun.endStream.openStream rfl _
    | false =>
      rw [start_of_ordinary hqueue hkind]
      exact hbegun.yieldReply

/-- A piece of the body is published to the feed of the stream in progress, and to no other. -/
theorem Logged.gather (h : s.Logged settings log) (bytes : Bytes) :
    (s.gather bytes).2.Logged settings (log ++ s.published bytes) := by
  have hone := h.one.gather bytes
  cases hopen : s.assembly.isOpen with
  | false =>
    rw [gather_of_not_isOpen hopen, published_of_not_isOpen hopen, List.append_nil]
    exact h
  | true =>
    obtain ⟨head, body, hassembly⟩ := Assembly.exists_of_isOpen hopen
    have hpublish := (gather_of_gathering hassembly bytes).2.2
    have hsettings : (s.gather bytes).2.settings = s.settings := settings_gather s bytes
    cases hfeed : s.stream.bind (·.feed) with
    | none =>
      have hhub : (s.gather bytes).2.hub = s.hub := by
        rw [hpublish, publish, hfeed]
      rw [published_of_no_feed hfeed, List.append_nil]
      exact h.congr hone hhub hsettings
    | some i =>
      have hhub : (s.gather bytes).2.hub =
          s.hub.update i (Feed.publishAll (Document.split (body ++ bytes)).1) := by
        rw [hpublish, publish, hfeed]
      have hthere : i < s.hub.feeds.length := by
        by_contra hbeyond
        have hactive := (h.one i).2 hfeed
        rw [Hub.isActive, Option.bind_some, List.getElem?_eq_none (Nat.not_lt.1 hbeyond)] at hactive
        cases hactive
      rw [published_of_feed hassembly hfeed]
      generalize (Document.split (body ++ bytes)).1 = documents at hhub
      refine ⟨hsettings.trans h.settings_eq, hone, ?_, ?_⟩
      · rw [hhub, Hub.length_update]
        intro p hp
        rcases List.mem_append.1 hp with hp | hp
        · exact h.lt_length p hp
        · obtain ⟨document, -, rfl⟩ := List.mem_map.1 hp
          exact hthere
      · intro j f hf
        rw [documentsOf_append, documentsOf_map]
        by_cases hij : i = j
        · subst hij
          have hold := List.getElem?_eq_getElem hthere
          rw [hhub, Hub.getElem?_update_self hold] at hf
          cases hf
          have hactive := h.active hfeed hold
          have hdelivers := h.delivers i _ hold
          rw [hactive] at hdelivers
          rw [if_pos rfl, Feed.publishAll, Feed.active_foldl_publish, hactive]
          exact hdelivers.publishAll documents
        · rw [hhub, Hub.getElem?_update_of_ne hij] at hf
          rw [if_neg hij, List.append_nil]
          exact h.delivers j f hf

theorem Logged.finish (h : s.Logged settings log) : s.finish.2.Logged settings log := by
  cases howns : s.streamOwns with
  | true =>
    rw [finish_of_owns howns]
    exact h.endStream.congr h.one.close rfl rfl
  | false =>
    have hone := h.one.finish
    rw [finish_of_not_owns howns] at hone ⊢
    split
    · exact h
    · rename_i hdone
      rw [hdone] at hone
      dsimp only at hone ⊢
      split
      · exact h.congr h.one rfl rfl
      · exact h.congr h.one rfl rfl

/-- What a frame publishes is what the feeds are given. -/
theorem Logged.receive (h : s.Logged settings log) (frame : Frame) :
    (s.receive frame).2.Logged settings (log ++ s.publishes frame) := by
  cases frame with
  | header head =>
    rw [publishes, List.append_nil]
    exact h.start head
  | content bytes => exact h.gather bytes
  | last bytes =>
    cases bytes with
    | nil =>
      rw [publishes, List.append_nil]
      exact h.finish
    | cons b bytes =>
      have hgathered := h.gather (b :: bytes)
      rw [publishes]
      obtain ⟨cause, -, hreceive⟩ | ⟨-, hreceive⟩ := s.receive_last_cases b bytes
      · rw [hreceive]
        exact hgathered
      · rw [hreceive]
        exact hgathered.finish

end Session

end ClusterLink
