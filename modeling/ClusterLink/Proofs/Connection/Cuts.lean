import ClusterLink.Proofs.Connection.Turns
import ClusterLink.Proofs.Session.Documents

/-!
# How bytes are cut into reads

The bytes that come between two requests may be read in many small pieces or in few large
ones. Here it is shown that this makes no difference as long as there is no fault: if the
bytes are cut less finely, there is no fault either, every caller gets the same response, the
same documents are published, and the connection is the same afterwards (`run_recut`).

## The argument

What two reads bring, one read brings, up to one piece of a body that is cut once less
(`Framer.push_append_finer`). A session takes a piece of a body as it takes its parts
(`Session.gather_append`), so frames that are cut less finely do the same to a connection
(`takeAll_of_finer`). From two reads it goes on to any number of them, by induction on how
the reads have been cut (`Finer`).
-/

namespace ClusterLink

open Reply (Frame Framer)
open Text (Finer)

namespace Connection

/-- The documents that some frames publish, up to the first fault, each with the number of its
feed. -/
def publishes (c : Connection) (frames : List Frame) : List (Nat × String) :=
  (c.path frames).flatMap fun p => p.1.publishes p.2

variable {c c₁ : Connection} {a b : Bytes}

/-! ### Frames -/

theorem take_withFramer (c : Connection) (framer : Framer) (frame : Frame) :
    ({ c with framer := framer } : Connection).take frame =
      ((c.take frame).1, { (c.take frame).2 with framer := framer }) := by
  unfold take
  dsimp only
  rcases c.session.receive frame with ⟨_ | _ | response, s⟩
  · rfl
  · rfl
  · dsimp only
    cases c.callers <;> rfl

theorem takeAll_withFramer (c : Connection) (framer : Framer) (frames : List Frame) :
    ({ c with framer := framer } : Connection).takeAll frames =
      ((c.takeAll frames).1, (c.takeAll frames).2.1,
        { (c.takeAll frames).2.2 with framer := framer }) := by
  induction frames generalizing c with
  | nil => rfl
  | cons frame rest ih =>
    rw [takeAll, take_withFramer, takeAll]
    rcases c.take frame with ⟨cause | delivery, c'⟩
    · rfl
    · simp only [ih c']

theorem publishes_withFramer (c : Connection) (framer : Framer) (frames : List Frame) :
    ({ c with framer := framer } : Connection).publishes frames = c.publishes frames := by
  suffices hpath : ({ c with framer := framer } : Connection).path frames = c.path frames by
    rw [publishes, hpath, publishes]
  induction frames generalizing c with
  | nil => rfl
  | cons frame rest ih =>
    rw [path, take_withFramer, path]
    rcases c.take frame with ⟨cause | delivery, c'⟩
    · rfl
    · simp only [ih c']

theorem publishes_cons_of_ok {frame : Frame} {delivery : Option Delivery}
    (h : c.take frame = (.ok delivery, c₁)) (rest : List Frame) :
    c.publishes (frame :: rest) = c.session.publishes frame ++ c₁.publishes rest := by
  simp only [publishes, path, h, List.flatMap_cons]

theorem session_take (c : Connection) (frame : Frame) :
    (c.take frame).2.session = (c.session.receive frame).2 := by
  unfold take
  rcases c.session.receive frame with ⟨_ | _ | response, s⟩
  · rfl
  · rfl
  · dsimp only
    cases c.callers <;> rfl

/-- Frames without a fault lead to the others. -/
theorem takeAll_append {first : List Frame} {deliveries : List Delivery}
    (h : c.takeAll first = (deliveries, none, c₁)) (more : List Frame) :
    c.takeAll (first ++ more) = (deliveries ++ (c₁.takeAll more).1, (c₁.takeAll more).2) ∧
      c.publishes (first ++ more) = c.publishes first ++ c₁.publishes more := by
  induction first generalizing c deliveries with
  | nil =>
    cases h
    exact ⟨rfl, rfl⟩
  | cons frame rest ih =>
    rcases htake : c.take frame with ⟨cause | delivery, c'⟩
    · simp only [takeAll, htake] at h
      cases h
    · rcases hrest : c'.takeAll rest with ⟨others, fault, c''⟩
      simp only [takeAll, htake, hrest] at h
      cases h
      obtain ⟨hall, hpublishes⟩ := ih hrest
      constructor
      · rw [List.cons_append, takeAll, htake]
        simp only [hall, List.append_assoc]
      · rw [List.cons_append, publishes_cons_of_ok htake, publishes_cons_of_ok htake, hpublishes,
          List.append_assoc]

theorem take_content (c : Connection) (bytes : Bytes) :
    c.take (.content bytes) = ((c.session.gather bytes).1.map fun _ => none,
      { c with session := (c.session.gather bytes).2 }) := by
  rw [take, Session.receive]
  rcases c.session.gather bytes with ⟨_ | _, s⟩
  · rfl
  · rfl

/-- A piece of a body that is taken in two parts can be taken at once. -/
theorem take_content_append {delivery : Option Delivery}
    (h : c.take (.content a) = (.ok delivery, c₁)) (b : Bytes) :
    delivery = none ∧ c.take (.content (a ++ b)) = c₁.take (.content b) ∧
      c.session.published (a ++ b) = c.session.published a ++ c₁.session.published b := by
  rw [take_content] at h
  rcases hgather : c.session.gather a with ⟨_ | _, s⟩
  · rw [hgather] at h
    cases h
  · have happend := Session.gather_append (congrArg Prod.fst hgather) b
    have hpublished := c.session.published_append a b
    rw [hgather] at h happend hpublished
    cases h
    refine ⟨rfl, ?_, hpublished⟩
    rw [take_content, take_content, happend]

/-- Frames with bodies that are cut less finely do the same, as long as there is no fault. -/
theorem takeAll_of_finer {fine coarse : List Frame} (h : Finer Frame.content fine coarse)
    (hok : (c.takeAll fine).2.1 = none) :
    c.takeAll coarse = c.takeAll fine ∧ c.publishes coarse = c.publishes fine := by
  induction h generalizing c with
  | nil => exact ⟨rfl, rfl⟩
  | cons frame h ih =>
    rcases htake : c.take frame with ⟨cause | delivery, c'⟩
    · simp only [takeAll, htake] at hok
      cases hok
    · rw [takeAll_cons_of_ok htake] at hok
      obtain ⟨hall, hpublishes⟩ := ih hok
      constructor
      · simp only [takeAll, htake, hall]
      · rw [publishes_cons_of_ok htake, publishes_cons_of_ok htake, hpublishes]
  | @cut fine coarse b a h ih =>
    rcases htake : c.take (.content a) with ⟨cause | delivery, c'⟩
    · simp only [takeAll, htake] at hok
      cases hok
    · rw [takeAll_cons_of_ok htake] at hok
      obtain ⟨hall, hpublishes⟩ := ih hok
      obtain ⟨rfl, hjoined, hpublished⟩ := take_content_append htake b
      constructor
      · have hwhole : c.takeAll (.content (a ++ b) :: coarse) =
            c'.takeAll (.content b :: coarse) := by
          simp only [takeAll, hjoined]
        rw [hwhole, hall]
        simp only [takeAll, htake]
        rfl
      · rw [publishes_cons_of_ok htake, ← hpublishes]
        simp only [publishes, path, hjoined, List.flatMap_cons]
        rw [← List.append_assoc]
        exact congrArg (· ++ _) hpublished

/-! ### Reads -/

/-- The documents that one read publishes, each with the number of its feed. -/
def published (c : Connection) (data : Bytes) : List (Nat × String) :=
  match (c.framer.push data).1 with
  | .error _ => []
  | .ok frames => c.publishes frames

/-- What a read comes to that brings no fault: it becomes frames, and they are taken. -/
structure Reads (c : Connection) (data : Bytes) (deliveries : List Delivery)
    (log : List (Nat × String)) (c₁ : Connection) : Prop where
  /-- There is no fault. -/
  receive_eq : c.receive data = (deliveries, none, c₁)
  /-- These documents are published. -/
  published_eq : c.published data = log

theorem Reads.of_takeAll {data : Bytes} {frames : List Frame} {framer : Framer}
    {deliveries : List Delivery} {c' : Connection}
    (hpush : c.framer.push data = (.ok frames, framer))
    (hall : c.takeAll frames = (deliveries, none, c')) :
    c.Reads data deliveries (c.publishes frames) { c' with framer := framer } := by
  constructor
  · simp only [receive, hpush, takeAll_withFramer, hall, Option.map_none]
  · simp only [published, hpush]

theorem Reads.exists_takeAll {data : Bytes} {deliveries : List Delivery}
    {log : List (Nat × String)} (h : c.Reads data deliveries log c₁) :
    ∃ frames framer c', c.framer.push data = (.ok frames, framer) ∧
      c.takeAll frames = (deliveries, none, c') ∧ c.publishes frames = log ∧
      c₁ = { c' with framer := framer } := by
  obtain ⟨hreceive, hpublished⟩ := h
  rcases hpush : c.framer.push data with ⟨cause | frames, framer⟩
  · simp only [receive, hpush] at hreceive
    cases hreceive
  · rcases hall : c.takeAll frames with ⟨others, fault, c'⟩
    simp only [receive, hpush, takeAll_withFramer, hall] at hreceive
    simp only [published, hpush] at hpublished
    cases fault with
    | some cause => cases hreceive
    | none =>
      cases hreceive
      exact ⟨frames, framer, c', rfl, hall, hpublished, rfl⟩

/-- **What two reads bring, one read brings**, as long as there is no fault. -/
theorem Reads.append {c₂ : Connection} {first more : List Delivery}
    {log later : List (Nat × String)} (ha : c.Reads a first log c₁)
    (hb : c₁.Reads b more later c₂) :
    c.Reads (a ++ b) (first ++ more) (log ++ later) c₂ := by
  obtain ⟨frames, framer, c', hpush, hall, rfl, rfl⟩ := ha.exists_takeAll
  obtain ⟨others, framer', c'', hpush', hall', rfl, rfl⟩ := hb.exists_takeAll
  have hlater := publishes_withFramer c' framer others
  rw [takeAll_withFramer] at hall'
  obtain ⟨whole, hwhole, hfiner⟩ := Framer.push_append_finer hpush hpush'
  rcases hrest : c'.takeAll others with ⟨deliveries, fault, c₃⟩
  rw [hrest] at hall'
  cases hall'
  obtain ⟨hboth, hlog⟩ := takeAll_append hall others
  rw [hrest] at hboth
  obtain ⟨hsame, hlog'⟩ := takeAll_of_finer hfiner (by rw [hboth])
  have hread := Reads.of_takeAll hwhole (hsame.trans hboth)
  rw [hlater, ← hlog, ← hlog']
  exact hread

/-! ### All events -/

/-- A connection with all that it has brought. A fault ends it. -/
structure Transcript where
  /-- The connection. -/
  connection : Connection
  /-- The responses, each with the caller to whom it went. -/
  deliveries : List Delivery := []
  /-- The documents published, each with the number of its feed. -/
  published : List (Nat × String) := []
  /-- The fault that has ended it. -/
  fault : Option Fault := none
  deriving DecidableEq, Repr

namespace Transcript

/-- The transcript of a new connection. -/
def start (host : String) (settings : Settings) : Transcript where
  connection := .start host settings

/-- The transcript after one more event; nothing happens behind a fault. -/
def act (r : Transcript) (event : Event) : Transcript :=
  if r.fault.isSome then r
  else match event with
    | .submit t => { r with connection := (r.connection.submit t).2 }
    | .receive data =>
      { connection := (r.connection.receive data).2.2
        deliveries := r.deliveries ++ (r.connection.receive data).1
        published := r.published ++ r.connection.published data
        fault := (r.connection.receive data).2.1 }

/-- The transcript after some events. -/
def run (r : Transcript) (events : List Event) : Transcript :=
  events.foldl act r

variable {r : Transcript}

theorem run_cons (r : Transcript) (event : Event) (events : List Event) :
    r.run (event :: events) = (r.act event).run events := rfl

/-- A fault stays. -/
theorem fault_of_run (events : List Event) (h : (r.run events).fault = none) : r.fault = none := by
  induction events generalizing r with
  | nil => exact h
  | cons event events ih =>
    have hnext := ih h
    by_contra hfault
    have hsame : r.act event = r := if_pos (Option.isSome_iff_ne_none.2 hfault)
    rw [hsame] at hnext
    exact hfault hnext

/-- A read without a fault. -/
theorem act_receive {data : Bytes} {deliveries : List Delivery} {log : List (Nat × String)}
    {c : Connection} (hnone : r.fault = none) (h : r.connection.Reads data deliveries log c) :
    r.act (.receive data) =
      { connection := c
        deliveries := r.deliveries ++ deliveries
        published := r.published ++ log } := by
  have hlive : ¬ r.fault.isSome = true := by
    rw [hnone]
    exact Bool.false_ne_true
  rw [act, if_neg hlive]
  simp only [h.receive_eq, h.published_eq]

theorem reads_of_act {data : Bytes} (h : (r.act (.receive data)).fault = none) :
    r.fault = none ∧ ∃ deliveries log c, r.connection.Reads data deliveries log c := by
  have hnone : r.fault = none := fault_of_run [.receive data] h
  have hlive : ¬ r.fault.isSome = true := by
    rw [hnone]
    exact Bool.false_ne_true
  rw [act, if_neg hlive] at h
  rcases hreceive : r.connection.receive data with ⟨deliveries, fault, c⟩
  rw [hreceive] at h
  cases h
  exact ⟨hnone, deliveries, _, c, hreceive, rfl⟩

/-- Two reads without a fault may be one. -/
theorem act_act {a b : Bytes} (h : ((r.act (.receive a)).act (.receive b)).fault = none) :
    r.act (.receive (a ++ b)) = (r.act (.receive a)).act (.receive b) := by
  obtain ⟨hfirst, more, later, c₂, hb⟩ := reads_of_act h
  obtain ⟨hnone, first, log, c₁, ha⟩ := reads_of_act hfirst
  have hact := act_receive hnone ha
  rw [hact] at hb ⊢
  rw [act_receive rfl hb, act_receive hnone (ha.append hb), List.append_assoc, List.append_assoc]

/-- Reads that are cut less finely do the same, as long as there is no fault. -/
theorem run_of_finer {fine coarse : List Event} (h : Finer Event.receive fine coarse)
    (hok : (r.run fine).fault = none) : r.run coarse = r.run fine := by
  induction h generalizing r with
  | nil => rfl
  | cons event _ ih => exact ih hok
  | @cut fine coarse b a _ ih =>
    have hsame : (r.act (.receive a)).run (.receive b :: coarse) = (r.act (.receive a)).run fine :=
      ih hok
    have hboth : ((r.act (.receive a)).act (.receive b)).fault = none := by
      refine fault_of_run coarse ?_
      rw [← run_cons, hsame]
      exact hok
    rw [run_cons, act_act hboth, ← run_cons, hsame, run_cons]

end Transcript

/-! ### What is published -/

variable {settings : Settings} {log : List (Nat × String)}

theorem logged_takeAll (h : c.session.Logged settings log) (frames : List Frame) :
    (c.takeAll frames).2.2.session.Logged settings (log ++ c.publishes frames) := by
  induction frames generalizing c log with
  | nil =>
    show c.session.Logged settings (log ++ [])
    rw [List.append_nil]
    exact h
  | cons frame rest ih =>
    have hnext := h.receive frame
    rw [← session_take] at hnext
    rcases htake : c.take frame with ⟨cause | delivery, c'⟩
    · rw [htake] at hnext
      have hpublishes : c.publishes (frame :: rest) = c.session.publishes frame := by
        simp only [publishes, path, htake, List.flatMap_cons, List.flatMap_nil, List.append_nil]
      simp only [takeAll, htake, hpublishes]
      exact hnext
    · rw [htake] at hnext
      rw [takeAll_cons_of_ok htake, publishes_cons_of_ok htake, ← List.append_assoc]
      exact ih hnext

/-- Each feed is given the documents that a read publishes to it. -/
theorem logged_receive (h : c.session.Logged settings log) (data : Bytes) :
    (c.receive data).2.2.session.Logged settings (log ++ c.published data) := by
  rcases hpush : c.framer.push data with ⟨cause | frames, framer⟩
  · simp only [receive, published, hpush, List.append_nil]
    exact h
  · simp only [receive, published, hpush, takeAll_withFramer]
    exact logged_takeAll h frames

namespace Transcript

theorem logged_run {r : Transcript} (h : r.connection.session.Logged settings r.published)
    (events : List Event) :
    (r.run events).connection.session.Logged settings (r.run events).published := by
  induction events generalizing r with
  | nil => exact h
  | cons event events ih =>
    refine ih ?_
    unfold act
    split
    · exact h
    · cases event with
      | submit t => exact h.congr h.one rfl rfl
      | receive data => exact logged_receive h data

/-- **How bytes are cut into reads makes no difference.** If some bytes are cut into several reads
and there is no fault, then there is none if they are read at once, and everything is the same:
which response goes to which caller, which documents are published to which stream, in which order,
and the connection with all requests that wait, the stream in progress and the bytes that are not
yet frames. And what is noted as published is just what each feed has been given. -/
theorem run_recut (host : String) (settings : Settings) {fine coarse : List Event}
    (h : Finer Event.receive fine coarse) (hok : ((start host settings).run fine).fault = none) :
    (start host settings).run coarse = (start host settings).run fine ∧
      ∀ i (f : Feed), ((start host settings).run fine).connection.session.hub.feeds[i]? = some f →
        f.Delivers (Feed.ofCapacity settings.streamCapacity.toNat).capacity
          (Session.documentsOf i ((start host settings).run fine).published) (!f.active) := by
  refine ⟨run_of_finer h hok, ?_⟩
  have hstart : (start host settings).connection.session.Logged settings [] := by
    refine ⟨rfl, .new host settings, ?_, ?_⟩
    · rintro p ⟨⟩
    · rintro i f ⟨⟩
  exact (logged_run hstart fine).delivers

/-- A stream begins, and another request is sent. -/
def streamEvents : List Event :=
  [.submit ⟨0, .bucketStreaming, "/s", "b", ""⟩,
    .receive (Text.Utf8.encode "HTTP/1.1 200 OK\r\nContent-Length: 10\r\n\r\n".toList),
    .submit ⟨1, .bucketConfig, "/c", "b", ""⟩]

/-- Two documents, cut within the marks behind them. -/
def markPieces : List Bytes := [[97, 10, 10], [10, 10, 98, 10], [10, 10, 10]]

/-- The documents come in three reads or in one. -/
theorem run_recut_marks :
    Finer Event.receive (streamEvents ++ markPieces.map .receive)
        (streamEvents ++ [.receive markPieces.flatten]) ∧
      ((start "h" {}).run (streamEvents ++ markPieces.map .receive)).fault = none ∧
      ((start "h" {}).run (streamEvents ++ [.receive markPieces.flatten])).published =
        [(0, "a"), (0, "b")] := by
  have hfiner : Finer Event.receive (streamEvents ++ markPieces.map .receive)
      (streamEvents ++ [.receive markPieces.flatten]) := by
    have hpieces := Finer.flatten (List.cons_ne_nil [97, 10, 10] [[10, 10, 98, 10], [10, 10, 10]])
      (Finer.nil : Finer Event.receive [] [])
    rw [List.append_nil] at hpieces
    exact hpieces.append_left streamEvents
  have hok : ((start "h" {}).run (streamEvents ++ markPieces.map .receive)).fault = none := by
    decide +kernel
  refine ⟨hfiner, hok, ?_⟩
  rw [(run_recut "h" {} hfiner hok).1]
  decide +kernel

end Transcript

end Connection

end ClusterLink
