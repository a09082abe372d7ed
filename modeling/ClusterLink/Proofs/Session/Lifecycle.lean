import ClusterLink.Proofs.Hub
import ClusterLink.Proofs.Session.BodyLimit

/-!
# The life of a stream

Every response to a streaming request gives its caller a stream, which is active while
documents may still come. Here it is shown for every history which streams are active: at
most one, the one given out last, and that just as long as the session is streaming; one that
has ended stays so, and its subscriptions get what they have not read yet and then the end
(`run_lifecycle`).

A stream ends with its reply, with the head of the next streaming reply, whatever it says,
and when the session is closed (`Ends`). But a last frame whose bytes make the body too long
is refused as a whole, and then the stream goes on (`not_repliesEndStreams`).

## The argument

The streams given out have the numbers of all feeds, each one once (`Inv`), and the only
active feed is that of the stream in progress (`OneFeed`). A frame gives out a stream exactly
when it opens a feed (`Opens`). Frames publish to the active feed only, so a feed that has
ended keeps its documents (`Hub.Past`).
-/

namespace ClusterLink

open Reply (Frame Header)
open Text

/-- The stream that a response gives out, with the outcome. -/
def Response.stream? : Response → Option (Stream × Status)
  | bucketStreaming stream _ status _ => some (stream, status)
  | _ => none

namespace Session

variable {s : Session} {i : Nat} {f : Feed}

/-! ### What frames do to the feeds -/

/-- The head of a streaming reply answers with a stream that has a new feed if it is a success, and
with one that never brings anything otherwise. -/
theorem openStream_cases {t : Ticket} {rest : List Ticket} (hqueue : s.queue = t :: rest)
    (code : UInt16) :
    Status.ofCode code = .success ∧ s.openStream code =
        (.ok (.bucketStreaming ⟨some s.hub.feeds.length⟩ s.host .success t), { s with
          outstanding := ⟨rest, some t⟩
          stream := some ⟨some s.hub.feeds.length, t, true⟩
          hub := (s.hub.start (Feed.ofCapacity s.settings.streamCapacity.toNat).park).2 }) ∨
      s.openStream code = (.ok (.bucketStreaming ⟨none⟩ s.host (Status.ofCode code) t), { s with
        outstanding := ⟨rest, some t⟩
        stream := some ⟨none, t, true⟩ }) := by
  have hcarry : s.outstanding.carry? = some (t, ⟨rest, some t⟩) := by
    simp only [Outstanding.carry?, hqueue]
  simp only [openStream, hcarry]
  cases Status.ofCode code with
  | success => exact .inl ⟨rfl, rfl⟩
  | notFound => exact .inr rfl
  | failure => exact .inr rfl

theorem length_feeds_endStream (s : Session) :
    s.endStream.hub.feeds.length = s.hub.feeds.length := by
  unfold endStream
  split
  · exact Hub.length_update _ _ _
  · rfl

theorem length_feeds_gather (s : Session) (bytes : Bytes) :
    (s.gather bytes).2.hub.feeds.length = s.hub.feeds.length := by
  cases hopen : s.assembly.isOpen with
  | false => rw [gather_of_not_isOpen hopen]
  | true =>
    obtain ⟨head, body, hassembly⟩ := Assembly.exists_of_isOpen hopen
    rw [(gather_of_gathering hassembly bytes).2.2, publish]
    split
    · exact Hub.length_update _ _ _
    · rfl

/-- The feed of the stream in progress has not ended. -/
theorem OneFeed.ne_of_past (hone : s.OneFeed) (hpast : s.hub.Past i f) {j : Nat}
    (hfeed : s.stream.bind (·.feed) = some j) : j ≠ i := by
  rintro rfl
  have hactive := (hone j).2 hfeed
  rw [hpast.isActive_eq] at hactive
  cases hactive

theorem OneFeed.past_endStream (hone : s.OneFeed) (hpast : s.hub.Past i f) :
    s.endStream.hub.Past i f := by
  cases hfeed : s.stream.bind (·.feed) with
  | none =>
    rw [Session.endStream, hfeed]
    exact hpast
  | some j =>
    rw [Session.endStream, hfeed]
    exact hpast.update_of_ne (hone.ne_of_past hpast hfeed) _

theorem OneFeed.past_start (hone : s.OneFeed) (hpast : s.hub.Past i f) (head : Header) :
    (s.start head).2.hub.Past i f := by
  cases hqueue : s.queue with
  | nil =>
    rw [start_of_queue_eq_nil hqueue]
    exact hpast
  | cons t rest =>
    cases hkind : t.request.kind.isStreaming with
    | false =>
      rw [start_of_ordinary hqueue hkind]
      have hone' : OneFeed { s with assembly := .start head } := hone
      unfold Session.yieldReply
      split
      · exact hpast
      · split
        · exact hpast
        · exact hone'.past_endStream hpast
    | true =>
      rw [start_of_streaming hqueue hkind]
      have hway : (s.makeWay head).hub.Past i f := by
        have hone' : OneFeed { s with assembly := .start head } := hone
        unfold makeWay
        split
        · exact hone'.past_endStream hpast
        · exact hpast
      obtain ⟨-, hopen⟩ | hopen :=
        openStream_cases ((s.queue_makeWay head).trans hqueue) head.code
      · rw [hopen]
        exact hway.start _
      · rw [hopen]
        exact hway

theorem OneFeed.past_gather (hone : s.OneFeed) (hpast : s.hub.Past i f) (bytes : Bytes) :
    (s.gather bytes).2.hub.Past i f := by
  cases hopen : s.assembly.isOpen with
  | false =>
    rw [gather_of_not_isOpen hopen]
    exact hpast
  | true =>
    obtain ⟨head, body, hassembly⟩ := Assembly.exists_of_isOpen hopen
    rw [(gather_of_gathering hassembly bytes).2.2, publish]
    split
    · rename_i j hfeed
      exact hpast.update_of_ne (hone.ne_of_past hpast hfeed) _
    · exact hpast

theorem OneFeed.past_finish (hone : s.OneFeed) (hpast : s.hub.Past i f) :
    s.finish.2.hub.Past i f := by
  cases howns : s.streamOwns with
  | true =>
    rw [finish_of_owns howns]
    exact hone.past_endStream hpast
  | false =>
    rw [finish_of_not_owns howns]
    split
    · exact hpast
    · split <;> exact hpast

/-- No frame brings a feed back that has ended, or publishes there. -/
theorem OneFeed.past_receive (hone : s.OneFeed) (hpast : s.hub.Past i f) (frame : Frame) :
    (s.receive frame).2.hub.Past i f := by
  have hkeeps := @receive_keeps s (fun s' => s'.OneFeed ∧ s'.hub.Past i f)
    (fun head h => ⟨h.1.start head, h.1.past_start h.2 head⟩)
    (fun bytes h => ⟨h.1.gather bytes, h.1.past_gather h.2 bytes⟩)
    (fun h => ⟨h.1.finish, h.1.past_finish h.2⟩) ⟨hone, hpast⟩ frame
  exact hkeeps.2

/-! ### Which frames give out a stream -/

/-- A frame gives out no stream and opens no feed; it may only end the stream in progress. -/
structure Spares (s : Session) (result : Except OutOfTurn (Option Response) × Session) : Prop where
  /-- No stream is given out. -/
  stream?_eq : ∀ response ∈ response? result.1, response.stream? = none
  /-- No feed is opened. -/
  length_eq : result.2.hub.feeds.length = s.hub.feeds.length
  /-- The stream in progress stays, or it ends. -/
  feed_eq : result.2.stream.bind (·.feed) = s.stream.bind (·.feed) ∨
    result.2.stream.bind (·.feed) = none

/-- What a frame does to streams. -/
inductive Opens (s : Session) : Except OutOfTurn (Option Response) × Session → Prop where
  /-- A feed is opened, and a stream given out for it. -/
  | opened {s' : Session} {t : Ticket} : s'.hub.feeds.length = s.hub.feeds.length + 1 →
      s'.stream.bind (·.feed) = some s.hub.feeds.length →
      Opens s (.ok (some (.bucketStreaming ⟨some s.hub.feeds.length⟩ s.host .success t)), s')
  /-- A stream is given out that has no feed. -/
  | declined {s' : Session} {t : Ticket} {status : Status} :
      s'.hub.feeds.length = s.hub.feeds.length → s'.stream.bind (·.feed) = none →
      Opens s (.ok (some (.bucketStreaming ⟨none⟩ s.host status t)), s')
  /-- No stream is given out. -/
  | spared {result : Except OutOfTurn (Option Response) × Session} : Spares s result →
      Opens s result

/-- Where there is no response no stream is given out. -/
theorem Spares.of_none {result : Except OutOfTurn (Option Response) × Session}
    (hnone : response? result.1 = none)
    (hlength : result.2.hub.feeds.length = s.hub.feeds.length)
    (hfeed : result.2.stream.bind (·.feed) = s.stream.bind (·.feed) ∨
      result.2.stream.bind (·.feed) = none) : Spares s result := by
  refine ⟨?_, hlength, hfeed⟩
  intro response hresponse
  rw [hnone] at hresponse
  cases hresponse

/-- The head of a streaming reply gives out a stream. -/
theorem opens_of_streaming {t : Ticket} {rest : List Ticket} (hqueue : s.queue = t :: rest)
    (hkind : t.request.kind.isStreaming = true) (head : Header) : Opens s (s.start head) := by
  have hlength := length_feeds_makeWay s head
  have hhost := host_makeWay s head
  rw [start_of_streaming hqueue hkind]
  obtain ⟨-, hopen⟩ | hopen := openStream_cases ((s.queue_makeWay head).trans hqueue) head.code
  · rw [hopen, hlength, hhost]
    refine .opened ?_ rfl
    show ((s.makeWay head).hub.feeds ++ [_]).length = _
    rw [List.length_append, hlength]
    rfl
  · rw [hopen, hhost]
    exact .declined hlength rfl

theorem spares_yieldReply (s : Session) : Spares s (.ok none, s.yieldReply) := by
  unfold yieldReply
  split
  · exact .of_none rfl rfl (.inl rfl)
  · rename_i stream hstream
    split
    · refine .of_none rfl rfl (.inl ?_)
      rw [hstream]
      rfl
    · exact .of_none rfl (length_feeds_endStream s) (.inr rfl)

theorem opens_start (s : Session) (head : Header) : Opens s (s.start head) := by
  cases hqueue : s.queue with
  | nil =>
    rw [start_of_queue_eq_nil hqueue]
    exact .spared (.of_none rfl rfl (.inl rfl))
  | cons t rest =>
    cases hkind : t.request.kind.isStreaming with
    | true => exact opens_of_streaming hqueue hkind head
    | false =>
      rw [start_of_ordinary hqueue hkind]
      have hyield := spares_yieldReply { s with assembly := .start head }
      exact .spared ⟨hyield.stream?_eq, hyield.length_eq, hyield.feed_eq⟩

theorem spares_finish (s : Session) : Spares s s.finish := by
  cases howns : s.streamOwns with
  | true =>
    rw [finish_of_owns howns]
    exact .of_none rfl (length_feeds_endStream s) (.inr rfl)
  | false =>
    rw [finish_of_not_owns howns]
    split
    · exact .of_none rfl rfl (.inl rfl)
    · split
      · exact .of_none rfl rfl (.inl rfl)
      · rename_i t rest _
        refine ⟨fun response hresponse => ?_, rfl, .inl rfl⟩
        dsimp only at hresponse
        split at hresponse
        · rename_i answer hof
          cases hresponse
          unfold Response.ofReply? at hof
          split at hof
          all_goals cases hof
          all_goals rfl
        · cases hresponse

theorem opens_receive (s : Session) (frame : Frame) : Opens s (s.receive frame) := by
  cases frame with
  | header head => exact opens_start s head
  | content bytes =>
    exact .spared (.of_none (response?_content s bytes) (length_feeds_gather s bytes)
      (.inl (feed_gather s bytes)))
  | last bytes =>
    cases bytes with
    | nil => exact .spared (spares_finish s)
    | cons b bytes =>
      have hlength := length_feeds_gather s (b :: bytes)
      have hfeed := feed_gather s (b :: bytes)
      obtain ⟨cause, -, hreceive⟩ | ⟨-, hreceive⟩ := s.receive_last_cases b bytes
      · rw [hreceive]
        exact .spared (.of_none rfl hlength (.inl hfeed))
      · obtain ⟨hnone, hlength', hfeed'⟩ := spares_finish (s.gather (b :: bytes)).2
        rw [hreceive]
        exact .spared ⟨hnone, hlength'.trans hlength, hfeed'.imp_left (·.trans hfeed)⟩

/-- After the head of a streaming reply the stream in progress has a new feed or none. -/
theorem feed_start_of_streaming {t : Ticket} {rest : List Ticket} (hqueue : s.queue = t :: rest)
    (hkind : t.request.kind.isStreaming = true) (head : Header) {i : Nat}
    (hfeed : (s.start head).2.stream.bind (·.feed) = some i) : i = s.hub.feeds.length := by
  rw [start_of_streaming hqueue hkind] at hfeed
  obtain ⟨-, hopen⟩ | hopen := openStream_cases ((s.queue_makeWay head).trans hqueue) head.code
  · rw [hopen] at hfeed
    cases hfeed
    exact length_feeds_makeWay s head
  · rw [hopen] at hfeed
    cases hfeed

/-! ### When streams end -/

/-- A last frame is refused because of its bytes: with them, too much is left of the body. -/
def Refuses (s : Session) (bytes : Bytes) : Prop :=
  bytes ≠ [] ∧ s.settings.maxBodySize.toNat < (s.leaves (s.assembly.body ++ bytes)).length

/-- An event with which every stream so far ends: the head of a streaming reply, the end of the
reply that opened the stream in progress, or closing. -/
def Ends (s : Session) : Event → Prop
  | .receive (.header _) =>
    ∃ t rest, s.outstanding.queue = t :: rest ∧ t.request.kind.isStreaming = true
  | .receive (.last bytes) => s.streamOwns = true ∧ ¬ s.Refuses bytes
  | .close => True
  | _ => False

/-- The end of a reply that a stream owns ends the stream, unless its bytes are refused. -/
theorem receive_last_of_owns (howns : s.streamOwns = true) (hopen : s.assembly.isOpen = true)
    {bytes : Bytes} (haccepted : ¬ s.Refuses bytes) :
    (s.receive (.last bytes)).1 = .ok none ∧ (s.receive (.last bytes)).2.stream = none := by
  cases bytes with
  | nil =>
    rw [receive, finish_of_owns howns]
    exact ⟨rfl, rfl⟩
  | cons b bytes =>
    obtain ⟨head, body, hassembly⟩ := Assembly.exists_of_isOpen hopen
    have hgathered := (gather_of_gathering hassembly (b :: bytes)).1
    have hle : (s.leaves (body ++ b :: bytes)).length ≤ s.settings.maxBodySize.toNat := by
      by_contra hlt
      refine haccepted ⟨List.cons_ne_nil _ _, ?_⟩
      rw [hassembly]
      exact Nat.not_le.1 hlt
    rw [verdict_of_le hle] at hgathered
    obtain ⟨cause, herror, -⟩ | ⟨-, hreceive⟩ := s.receive_last_cases b bytes
    · rw [hgathered] at herror
      cases herror
    · rw [hreceive, finish_of_owns ((streamOwns_gather s (b :: bytes)).trans howns)]
      exact ⟨rfl, rfl⟩

/-- A last frame whose bytes are refused ends nothing. -/
theorem receive_last_of_refuses (hopen : s.assembly.isOpen = true) {bytes : Bytes}
    (hrefuses : s.Refuses bytes) :
    (∃ cause, (s.receive (.last bytes)).1 = .error cause) ∧
      (s.receive (.last bytes)).2.isStreaming = s.isStreaming ∧
      (s.receive (.last bytes)).2.streamOwns = s.streamOwns := by
  obtain ⟨hne, hlt⟩ := hrefuses
  cases bytes with
  | nil => exact absurd rfl hne
  | cons b bytes =>
    obtain ⟨head, body, hassembly⟩ := Assembly.exists_of_isOpen hopen
    have hgathered := (gather_of_gathering hassembly (b :: bytes)).1
    have hbeyond : s.settings.maxBodySize.toNat < (s.leaves (body ++ b :: bytes)).length := by
      rw [hassembly] at hlt
      exact hlt
    rw [verdict_of_lt hbeyond] at hgathered
    obtain ⟨cause, -, hreceive⟩ | ⟨hok, -⟩ := s.receive_last_cases b bytes
    · rw [hreceive]
      exact ⟨⟨cause, rfl⟩, isStreaming_gather s _, streamOwns_gather s _⟩
    · rw [hgathered] at hok
      cases hok

/-! ### All events -/

/-- A stream owns the next end only while a reply is in progress. -/
def Owned (s : Session) : Prop :=
  s.streamOwns = true → s.assembly.isOpen = true

theorem Owned.receive (h : s.Owned) (frame : Frame) : (s.receive frame).2.Owned := by
  refine receive_keeps ?_ ?_ ?_ h frame
  · intro s head h
    cases hok : (s.start head).1.isOk with
    | true =>
      intro _
      rw [assembly_start hok]
      rfl
    | false =>
      rw [start_of_isOk_eq_false hok]
      exact h
  · intro s bytes h howns
    rw [streamOwns_gather] at howns
    obtain ⟨head, body, hassembly⟩ := Assembly.exists_of_isOpen (h howns)
    rw [(gather_of_gathering hassembly bytes).2.1]
    rfl
  · intro s h howns'
    cases howns : s.streamOwns with
    | true =>
      rw [finish_of_owns howns] at howns'
      cases howns'
    | false =>
      have hsame : s.finish.2.streamOwns = s.streamOwns := by
        rw [finish_of_not_owns howns]
        split
        · rfl
        · split <;> rfl
      rw [hsame, howns] at howns'
      cases howns'

namespace History

/-- The streams given out so far, in order, each with its outcome. -/
def streams (r : History) : List (Stream × Status) :=
  (r.responses.map (·.1)).filterMap Response.stream?

/-- The streams given out have the numbers of the feeds, and the last one is the stream in
progress. -/
structure Inv (r : History) : Prop where
  /-- Every feed has been given out once, in order. -/
  feeds_eq : r.streams.filterMap (·.1.feed) = List.range r.session.hub.feeds.length
  /-- The stream in progress has been given out last, and with success if it has a feed. -/
  last_eq : ∀ i, r.session.stream.bind (·.feed) = some i →
    r.streams.getLast? = some (⟨some i⟩, .success)
  /-- It owns the next end only while a reply is in progress. -/
  owned : r.session.Owned

variable {r : History}

theorem Inv.start (host : String) (settings : Settings) : (History.start host settings).Inv where
  feeds_eq := rfl
  last_eq := nofun
  owned := nofun

theorem streams_note (r : History) (frame : Frame)
    (result : Except OutOfTurn (Option Response) × Session) :
    (r.note frame result).streams =
      r.streams ++ (response? result.1).toList.filterMap Response.stream? := by
  rw [streams, responses_note, List.filterMap_append]
  rfl

theorem Inv.receive (h : r.Inv) (frame : Frame) : (r.act (.receive frame)).Inv := by
  have howned := h.owned.receive frame
  have hopens := opens_receive r.session frame
  show (r.note frame (r.session.receive frame)).Inv
  generalize r.session.receive frame = result at howned hopens
  have hsession : (r.note frame result).session = result.2 := session_note _ _ _
  have hstreams := streams_note r frame result
  cases hopens with
  | @opened s' t hlength hfeed =>
    refine ⟨?_, ?_, hsession ▸ howned⟩
    · rw [hstreams, hsession, hlength, List.range_succ, ← h.feeds_eq, List.filterMap_append]
      rfl
    · intro i hi
      rw [hsession, hfeed] at hi
      cases hi
      rw [hstreams]
      exact List.getLast?_concat
  | @declined s' t status hlength hfeed =>
    refine ⟨?_, ?_, hsession ▸ howned⟩
    · rw [hstreams, hsession, hlength, ← h.feeds_eq, List.filterMap_append]
      exact List.append_nil _
    · intro i hi
      rw [hsession, hfeed] at hi
      cases hi
  | spared hspares =>
    have hnone : (response? result.1).toList.filterMap Response.stream? = [] := by
      rw [List.filterMap_eq_nil_iff]
      intro response hresponse
      exact hspares.stream?_eq response (Option.mem_toList.1 hresponse)
    rw [hnone, List.append_nil] at hstreams
    refine ⟨?_, ?_, hsession ▸ howned⟩
    · rw [hstreams, hsession, hspares.length_eq, h.feeds_eq]
    · intro i hi
      rw [hsession] at hi
      rw [hstreams]
      rcases hspares.feed_eq with hsame | hgone
      · exact h.last_eq i (hsame.symm.trans hi)
      · rw [hgone] at hi
        cases hi

/-- What callers do with their streams opens no feed. -/
theorem Inv.of_hub (h : r.Inv) {hub : Hub}
    (hlength : hub.feeds.length = r.session.hub.feeds.length) :
    Inv { r with session := { r.session with hub := hub } } where
  feeds_eq := by
    show r.streams.filterMap (·.1.feed) = List.range hub.feeds.length
    rw [hlength, h.feeds_eq]
  last_eq := h.last_eq
  owned := h.owned

theorem Inv.act (h : r.Inv) (event : Event) : (r.act event).Inv := by
  cases event with
  | submit t => exact ⟨h.feeds_eq, h.last_eq, h.owned⟩
  | receive frame => exact h.receive frame
  | close =>
    refine ⟨?_, nofun, nofun⟩
    exact h.feeds_eq.trans (congrArg List.range (length_feeds_endStream r.session).symm)
  | drain => exact ⟨h.feeds_eq, h.last_eq, h.owned⟩
  | subscribe stream => exact h.of_hub (Hub.length_subscribe _ _)
  | unsubscribe sub => exact h.of_hub (Hub.length_unsubscribe _ _)
  | next sub => exact h.of_hub (Hub.length_next _ _)

theorem Inv.run (h : r.Inv) (events : List Event) : (r.run events).Inv := by
  induction events generalizing r with
  | nil => exact h
  | cons event events ih => exact ih (h.act event)

/-- A feed that has ended keeps its documents, whatever happens. -/
theorem past_act {i : Nat} {f : Feed} (hone : r.session.OneFeed) (hpast : r.session.hub.Past i f)
    (event : Event) : (r.act event).session.hub.Past i f := by
  cases event with
  | submit t => exact hpast
  | receive frame =>
    show (r.note frame _).session.hub.Past i f
    rw [session_note]
    exact hone.past_receive hpast frame
  | close => exact hone.past_endStream hpast
  | drain => exact hpast
  | subscribe stream => exact hpast.subscribe stream
  | unsubscribe sub => exact hpast.unsubscribe sub
  | next sub => exact hpast.next sub

theorem past_run {i : Nat} {f : Feed} (h : r.session.OneFeed ∧ r.session.Settled)
    (hpast : r.session.hub.Past i f) (events : List Event) :
    (r.run events).session.hub.Past i f := by
  induction events generalizing r with
  | nil => exact hpast
  | cons event events ih => exact ih (r.session_act event h) (past_act h.1 hpast event)

/-- The feed of a stream that has been given out is there. -/
theorem Inv.lt_of_mem (h : r.Inv) {a : Stream × Status} (ha : a ∈ r.streams) {i : Nat}
    (hfeed : a.1.feed = some i) : i < r.session.hub.feeds.length := by
  have hmem : i ∈ r.streams.filterMap (·.1.feed) := List.mem_filterMap.2 ⟨a, ha, hfeed⟩
  rw [h.feeds_eq] at hmem
  exact List.mem_range.1 hmem

/-- No feed has been given out twice. -/
theorem Inv.eq_of_feed (h : r.Inv) {m n : Nat} {a b : Stream × Status}
    (ha : r.streams[m]? = some a) (hb : r.streams[n]? = some b) {i : Nat} (hai : a.1.feed = some i)
    (hbi : b.1.feed = some i) : m = n := by
  have hdistinct : (r.streams.filterMap (·.1.feed)).Nodup := by
    rw [h.feeds_eq]
    exact List.nodup_range
  rw [List.Nodup, List.pairwise_filterMap, List.pairwise_iff_getElem] at hdistinct
  obtain ⟨hm, rfl⟩ := List.getElem?_eq_some_iff.1 ha
  obtain ⟨hn, rfl⟩ := List.getElem?_eq_some_iff.1 hb
  rcases Nat.lt_trichotomy m n with hlt | heq | hlt
  · exact absurd rfl (hdistinct m n hm hn hlt i hai i hbi)
  · exact heq
  · exact absurd rfl (hdistinct n m hn hm hlt i hbi i hai)

/-- A stream that is active is the one given out last, and the one in progress. -/
theorem Inv.active (h : r.Inv) (hone : r.session.OneFeed) {m : Nat} {a : Stream × Status}
    (ha : r.streams[m]? = some a) (hactive : r.session.hub.isActive a.1 = true) :
    m + 1 = r.streams.length ∧ a.2 = .success ∧ r.session.isStreaming = true := by
  obtain ⟨⟨_ | i⟩, status⟩ := a
  · cases hactive
  · have hfeed := (hone i).1 hactive
    have hlast := h.last_eq i hfeed
    rw [List.getLast?_eq_getElem?] at hlast
    have hm := h.eq_of_feed ha hlast rfl rfl
    rw [← hm, ha] at hlast
    have hlt := (List.getElem?_eq_some_iff.1 ha).1
    refine ⟨by omega, ?_, ?_⟩
    · cases hlast
      rfl
    · rw [isStreaming, hfeed]
      rfl

/-- While the session is streaming, a stream that has been given out is active. -/
theorem Inv.exists_active (h : r.Inv) (hone : r.session.OneFeed)
    (hstreaming : r.session.isStreaming = true) :
    ∃ a ∈ r.streams, r.session.hub.isActive a.1 = true := by
  obtain ⟨i, hfeed⟩ := Option.isSome_iff_exists.1 hstreaming
  exact ⟨_, List.mem_of_getLast? (h.last_eq i hfeed), (hone i).2 hfeed⟩

/-- With an event that ends streams all of them end. -/
theorem Inv.isActive_of_ends (h : r.Inv) (hone : r.session.OneFeed) {event : Event}
    (hends : r.session.Ends event) {a : Stream × Status} (ha : a ∈ r.streams) :
    (r.act event).session.hub.isActive a.1 = false := by
  cases event with
  | close => exact hone.close.isActive_eq_false rfl a.1
  | receive frame =>
    have hone' := hone.receive frame
    show (r.note frame _).session.hub.isActive a.1 = false
    rw [session_note]
    cases frame with
    | header head =>
      obtain ⟨t, rest, hqueue, hkind⟩ := hends
      obtain ⟨⟨_ | i⟩, status⟩ := a
      · rfl
      · by_contra hactive
        have hfeed := (hone' i).1 (Bool.not_eq_false _ ▸ hactive)
        have hnew := feed_start_of_streaming hqueue hkind head hfeed
        have hold := h.lt_of_mem ha rfl
        omega
    | last bytes =>
      obtain ⟨howns, haccepted⟩ := hends
      exact hone'.isActive_eq_false (receive_last_of_owns howns (h.owned howns) haccepted).2 a.1
    | content bytes => cases hends
  | submit t => cases hends
  | drain => cases hends
  | subscribe stream => cases hends
  | unsubscribe sub => cases hends
  | next sub => cases hends

/-- A stream has ended for good, whatever happens: it is not active again, and each subscription to
it gets what is ready for it now, and then the end. -/
structure Ended (r : History) (stream : Stream) : Prop where
  /-- It is inactive. -/
  isActive_eq : ∀ more, (r.run more).session.hub.isActive stream = false
  /-- Nothing comes but what is ready. -/
  takeReady_eq : ∀ i, stream.feed = some i → ∃ f, r.session.hub.feeds[i]? = some f ∧
    ∀ more receiver n, (f.ready receiver).length ≤ n →
      (r.run more).session.hub.takeReady ⟨some (i, receiver)⟩ n =
        (f.ready receiver, .ended, ⟨none⟩, (r.run more).session.hub.update i .detach)

/-- A stream that is not active has ended for good. -/
theorem Inv.ended (h : r.Inv) (hkept : r.session.OneFeed ∧ r.session.Settled)
    {a : Stream × Status} (ha : a ∈ r.streams) (hactive : r.session.hub.isActive a.1 = false) :
    r.Ended a.1 := by
  obtain ⟨⟨_ | i⟩, status⟩ := a
  · exact ⟨fun _ => rfl, nofun⟩
  · have hlt := h.lt_of_mem ha rfl
    have hfeed := List.getElem?_eq_getElem hlt
    have hinactive : (r.session.hub.feeds[i]).active = false := by
      rw [Hub.isActive, Option.bind_some, hfeed] at hactive
      exact hactive
    have hpast (more : List Event) := past_run hkept (.of_feed hfeed hinactive) more
    constructor
    · intro more
      exact (hpast more).isActive_eq
    · intro j hj
      cases hj
      exact ⟨_, hfeed, fun more receiver n hn => (hpast more).takeReady hn⟩

theorem prefix_streams_act (r : History) (event : Event) : r.streams <+: (r.act event).streams := by
  cases event with
  | receive frame =>
    show r.streams <+: (r.note frame _).streams
    rw [streams_note]
    exact List.prefix_append _ _
  | _ => exact List.prefix_rfl

/-- **The life of a stream**, whatever happens to a new session. Of all streams given out only the
last can be active, and then its request had success; it is active just while the session is
streaming. A stream that is not active has ended for good. With the head of a streaming reply, with
the end of the reply that opened the stream in progress, and when the session is closed, all streams
end. Only if the last frame of that reply has bytes that make the body too long is it refused, and
the stream goes on. -/
theorem run_lifecycle (host : String) (settings : Settings) (events : List Event) :
    let r := (History.start host settings).run events
    (∀ m a, r.streams[m]? = some a → r.session.hub.isActive a.1 = true →
        m + 1 = r.streams.length ∧ a.2 = .success) ∧
      ((∃ a ∈ r.streams, r.session.hub.isActive a.1 = true) ↔ r.session.isStreaming = true) ∧
      (∀ a ∈ r.streams, r.session.hub.isActive a.1 = false → r.Ended a.1) ∧
      (∀ event, r.session.Ends event → ∀ a ∈ r.streams, (r.act event).Ended a.1) ∧
      ∀ bytes, r.session.streamOwns = true → r.session.Refuses bytes →
        (∃ cause, (r.session.receive (.last bytes)).1 = .error cause) ∧
        (r.act (.receive (.last bytes))).session.isStreaming = r.session.isStreaming := by
  intro r
  have hkept : r.session.OneFeed ∧ r.session.Settled :=
    session_run _ events ⟨.new host settings, .of_not_isStreaming rfl⟩
  have hinv : r.Inv := (Inv.start host settings).run events
  refine ⟨?_, ⟨?_, hinv.exists_active hkept.1⟩, fun a ha => hinv.ended hkept ha, ?_, ?_⟩
  · intro m a ha hactive
    obtain ⟨hlast, hsuccess, -⟩ := hinv.active hkept.1 ha hactive
    exact ⟨hlast, hsuccess⟩
  · rintro ⟨a, ha, hactive⟩
    obtain ⟨m, hm⟩ := List.getElem?_of_mem ha
    exact (hinv.active hkept.1 hm hactive).2.2
  · intro event hends a ha
    have hkept' := r.session_act event hkept
    exact (hinv.act event).ended hkept' ((prefix_streams_act r event).subset ha)
      (hinv.isActive_of_ends hkept.1 hends ha)
  · intro bytes howns hrefuses
    obtain ⟨hfault, hstreaming, -⟩ := receive_last_of_refuses (hinv.owned howns) hrefuses
    refine ⟨hfault, ?_⟩
    show (r.note _ _).session.isStreaming = _
    rw [session_note]
    exact hstreaming

/-- With the end of the reply that opened the stream in progress every stream ends. -/
def RepliesEndStreams : Prop :=
  ∀ (host : String) (settings : Settings) (events : List Event) (bytes : Bytes),
    let r := (History.start host settings).run events
    r.session.streamOwns = true →
      ∀ a ∈ r.streams, (r.act (.receive (.last bytes))).session.hub.isActive a.1 = false

/-- A stream begins where four bytes of a body are the limit, and brings a document. -/
def openedEvents : List Event :=
  [.submit ⟨0, .bucketStreaming, "/s", "b", ""⟩, .receive (.header ⟨200, "OK", []⟩),
    .receive (.content [97, 10, 10, 10, 10])]

/-- What has come of it. -/
def opened : History where
  session :=
    { host := "h"
      settings := { maxBodySize := 4 }
      assembly := .gathering ⟨200, "OK", []⟩ []
      stream := some ⟨some 0, ⟨0, .bucketStreaming, "/s", "b", ""⟩, true⟩
      hub := ⟨[{ capacity := 64, kept := ["a"], total := 1, receivers := 1, parked := some 0 }]⟩ }
  submitted := [⟨0, .bucketStreaming, "/s", "b", ""⟩]
  heard := some ⟨200, "OK", []⟩
  responses := [(.bucketStreaming ⟨some 0⟩ "h" .success ⟨0, .bucketStreaming, "/s", "b", ""⟩,
    some ⟨200, "OK", []⟩)]

theorem run_openedEvents : (History.start "h" { maxBodySize := 4 }).run openedEvents = opened := by
  decide +kernel

/-- The last frame of the reply has five bytes that belong to no document yet. It is refused, and
the stream stays active. -/
theorem not_repliesEndStreams : ¬ RepliesEndStreams := by
  intro h
  have hall := h "h" { maxBodySize := 4 } openedEvents [97, 97, 97, 97, 97]
  rw [run_openedEvents] at hall
  have hactive : (opened.act (.receive (.last [97, 97, 97, 97, 97]))).session.hub.isActive
      ⟨some 0⟩ = true := by
    decide +kernel
  have hended := hall rfl (⟨some 0⟩, .success) List.mem_cons_self
  rw [hactive] at hended
  cases hended

/-- The last frame of the reply has no bytes: the stream ends, and after any more events its first
subscription gets the document and then the end. -/
theorem run_lifecycle_opened :
    (History.start "h" { maxBodySize := 4 }).run openedEvents = opened ∧
      opened.session.Ends (.receive (.last [])) ∧
      ∀ more, (((opened.act (.receive (.last []))).run more).session.hub.takeReady
        ⟨some (0, 0)⟩ 1).1 = ["a"] := by
  have hends : opened.session.Ends (.receive (.last [])) := ⟨rfl, fun hrefuses => hrefuses.1 rfl⟩
  obtain ⟨-, -, -, hevent, -⟩ := run_lifecycle "h" { maxBodySize := 4 } openedEvents
  rw [run_openedEvents] at hevent
  refine ⟨run_openedEvents, hends, fun more => ?_⟩
  obtain ⟨f, hfeed, hready⟩ :=
    (hevent _ hends (⟨some 0⟩, .success) List.mem_cons_self).takeReady_eq 0 rfl
  have hf : (opened.act (.receive (.last []))).session.hub.feeds[0]? = some
      { capacity := 64, kept := ["a"], total := 1, receivers := 1, parked := some 0,
        active := false } := by
    decide +kernel
  rw [hf] at hfeed
  cases hfeed
  rw [hready more 0 1 (Nat.le_refl _)]
  rfl

end History

end Session

end ClusterLink
