import ClusterLink.Proofs.Session.Draining
import ClusterLink.Proofs.Session.Lasting
import ClusterLink.Proofs.Session.Ordinary

/-!
# Bodies beyond the size limit

A piece of a body is held before it is measured. If it makes the body too long it is
refused, but it stays, and so does the reply: when that reply ends with no more bytes it
answers its request all the same. Here it is shown for every history that this is the
only way beyond the limit (`run_beyond_iff`).

## The argument

A `Gauge` notes what has come of the body of the reply in progress and whether the piece
that came last was refused. If a stream is open that publishes, it takes the documents out
of the body, and the rest is the reply's (`Intake.left`). The session holds just this rest
(`Measures`), so a piece is refused if and only if the rest is then too long.
-/

namespace ClusterLink

open Reply (Frame Header)
open Text

namespace Session

/-- What has come of the body of the reply in progress. -/
structure Intake where
  /-- All its bytes, refused or not. -/
  body : Bytes := []
  /-- Whether a stream takes its documents out of it. -/
  shared : Bool := false
  /-- Whether the piece that came last was refused. -/
  refused : Bool := false
  deriving DecidableEq, Repr

namespace Intake

/-- What is left of the body when the stream has taken its documents. -/
def left (k : Intake) : Bytes :=
  if k.shared then (Document.split k.body).2 else k.body

/-- A piece of the body comes, and is taken or refused. -/
def add (k : Intake) (bytes : Bytes) (isTaken : Bool) : Intake :=
  { k with body := k.body ++ bytes, refused := !isTaken }

/-- What has come after one more frame. A head in turn begins another reply. -/
def after (k : Intake) (frame : Frame) (result : Except OutOfTurn (Option Response) × Session) :
    Intake :=
  match frame with
  | .header _ => if result.1.isOk then { shared := result.2.isStreaming } else k
  | .content bytes => k.add bytes result.1.isOk
  | .last [] => k
  | .last (b :: bytes) => k.add (b :: bytes) result.1.isOk

/-- Of a body that goes on, what is left is what is left of the rest so far and the next piece. -/
theorem left_add (k : Intake) (bytes : Bytes) (isTaken : Bool) :
    (k.add bytes isTaken).left =
      if k.shared then (Document.split (k.left ++ bytes)).2 else k.left ++ bytes := by
  unfold left add
  cases k.shared with
  | false => rfl
  | true =>
    simp only [if_true]
    rw [Document.split_append]

end Intake

/-- A history in which it is noted how much has come of each body. -/
structure Gauge where
  /-- The history. -/
  history : History
  /-- What has come of the body of the reply in progress. -/
  intake : Intake := {}
  /-- The responses to which replies have come at their end, each with what had come of its body. -/
  answers : List (Intake × Response) := []
  deriving DecidableEq, Repr

namespace Gauge

/-- The gauge of a new session. -/
def start (host : String) (settings : Settings) : Gauge where
  history := .start host settings

/-- A frame comes, and it is noted what has come with it. -/
def note (g : Gauge) (frame : Frame) (result : Except OutOfTurn (Option Response) × Session) :
    Gauge :=
  let intake := g.intake.after frame result
  { history := g.history.note frame result
    intake := intake
    answers := g.answers ++
      if frame.isHeader then [] else (response? result.1).toList.map (intake, ·) }

/-- The gauge after one more event. -/
def act (g : Gauge) : Event → Gauge
  | .receive frame => g.note frame (g.history.session.receive frame)
  | event => { g with history := g.history.act event }

/-- The gauge after some events. -/
def run (g : Gauge) (events : List Event) : Gauge :=
  events.foldl act g

theorem history_act (g : Gauge) (event : Event) : (g.act event).history = g.history.act event := by
  cases event <;> rfl

/-- The gauge only notes what happens. -/
theorem history_run (g : Gauge) (events : List Event) :
    (g.run events).history = g.history.run events := by
  induction events generalizing g with
  | nil => rfl
  | cons event events ih =>
    show ((g.act event).run events).history = (g.history.act event).run events
    rw [ih, history_act]

end Gauge

/-! ### The settings stay -/

variable {s : Session} {k : Intake} {head : Header} {body : Bytes}

/-- After an end no reply is in progress that no stream owns. -/
theorem not_inReply_finish (s : Session) : ¬ s.finish.2.InReply := by
  have hclosed : s.finish.2.assembly.header? = none := by
    cases howns : s.streamOwns with
    | true =>
      rw [finish_of_owns howns]
      exact Assembly.header?_reset _
    | false =>
      rw [finish_of_not_owns howns]
      cases hassembly : s.assembly with
      | fresh => exact congrArg Assembly.header? hassembly
      | idle => exact congrArg Assembly.header? hassembly
      | gathering head body =>
        dsimp only [Assembly.finish?]
        split <;> rfl
  rintro ⟨hopen, -⟩
  rw [hclosed] at hopen
  cases hopen

/-! ### One frame -/

/-- The session holds what is left of the body that has come, and has refused the piece that came
last if that is too much. -/
structure Measures (k : Intake) (s : Session) : Prop where
  /-- A stream takes the documents if there is one that publishes. -/
  shared_eq : k.shared = s.isStreaming
  /-- The rest is held. -/
  body_eq : s.assembly.body = k.left
  /-- The rest is too long when a piece has just been refused, and only then. -/
  refused_iff : k.refused = true ↔ s.settings.maxBodySize.toNat < k.left.length

/-- A response that has been made of all that was left of a body. -/
structure Weighed (settings : Settings) (k : Intake) (response : Response) : Prop where
  /-- Too much was left if and only if the last piece was refused. -/
  beyond_iff : settings.maxBodySize.toNat < k.left.length ↔ k.refused = true
  /-- All that was left is in the response. -/
  body_eq : k.left ≠ [] → response.body? = some (String.ofList (Utf8.decodeLossy k.left))

/-- Nothing has come yet. -/
theorem Measures.of_body_eq_nil (h : s.assembly.body = []) :
    Measures { shared := s.isStreaming } s := by
  have hleft : Intake.left { shared := s.isStreaming } = [] := by
    unfold Intake.left
    split
    · rw [Document.split_of_cut?_eq_none (cut?_nil Document.mark_ne_nil)]
    · rfl
  constructor
  · rfl
  · rw [h, hleft]
  · rw [hleft]
    simp

theorem Measures.congr (h : Measures k s) {s' : Session} (hstream : s'.stream = s.stream)
    (hassembly : s'.assembly = s.assembly) (hsettings : s'.settings = s.settings) :
    Measures k s' := by
  constructor
  · rw [h.shared_eq, isStreaming, isStreaming, hstream]
  · rw [hassembly, h.body_eq]
  · rw [hsettings]
    exact h.refused_iff

theorem InReply.exists_gathering (h : s.InReply) :
    ∃ head, s.assembly = .gathering head s.assembly.body := by
  obtain ⟨head, body, hassembly⟩ := Assembly.exists_of_isOpen h.1
  rw [hassembly]
  exact ⟨head, rfl⟩

theorem Measures.leaves_append (h : Measures k s) (bytes : Bytes) (isTaken : Bool) :
    s.leaves (s.assembly.body ++ bytes) = (k.add bytes isTaken).left := by
  rw [leaves, k.left_add, h.shared_eq, h.body_eq]

/-- A piece of the body is held and measured with what was left before. -/
theorem Measures.gather (h : Measures k s) (hreply : s.InReply) (bytes : Bytes) :
    Measures (k.add bytes (s.gather bytes).1.isOk) (s.gather bytes).2 := by
  obtain ⟨head, hassembly⟩ := hreply.exists_gathering
  obtain ⟨hverdict, hheld, -⟩ := gather_of_gathering hassembly bytes
  have hleft := h.leaves_append bytes (s.gather bytes).1.isOk
  constructor
  · rw [isStreaming_gather]
    exact h.shared_eq
  · rw [hheld, ← hleft]
    rfl
  · rw [← hleft, settings_gather, ← isOk_verdict, ← hverdict]
    exact Bool.not_eq_true' _ ▸ Iff.rfl

/-- The head of a reply that begins leaves nothing of another. -/
theorem assembly_start (hok : (s.start head).1.isOk = true) :
    (s.start head).2.assembly = .start head := by
  cases hqueue : s.queue with
  | nil =>
    rw [start_of_queue_eq_nil hqueue] at hok
    cases hok
  | cons t rest =>
    cases hkind : t.request.kind.isStreaming with
    | false => rw [start_of_ordinary hqueue hkind, assembly_yieldReply]
    | true => rw [start_of_streaming hqueue hkind, assembly_openStream, assembly_makeWay]

/-- A head that is refused changes nothing. -/
theorem start_of_isOk_eq_false (hok : (s.start head).1.isOk = false) : (s.start head).2 = s := by
  cases hqueue : s.queue with
  | nil => rw [start_of_queue_eq_nil hqueue]
  | cons t rest =>
    cases hkind : t.request.kind.isStreaming with
    | false =>
      rw [start_of_ordinary hqueue hkind] at hok
      cases hok
    | true =>
      obtain ⟨response, s', hopen, -⟩ :=
        openStream_spec head ((s.queue_makeWay head).trans hqueue)
          (Request.Kind.eq_bucketStreaming hkind)
      rw [start_of_streaming hqueue hkind, hopen] at hok
      cases hok

theorem Measures.start (h : s.InReply → Measures k s) (head : Header)
    (hreply : (s.start head).2.InReply) :
    Measures (k.after (.header head) (s.start head)) (s.start head).2 := by
  cases hok : (s.start head).1.isOk with
  | true =>
    rw [Intake.after, if_pos hok]
    refine .of_body_eq_nil ?_
    rw [assembly_start hok]
    rfl
  | false =>
    rw [Intake.after, if_neg (by rw [hok]; exact Bool.false_ne_true)]
    rw [start_of_isOk_eq_false hok] at hreply ⊢
    exact h hreply

/-- A response at the end of a reply has been made of all that was held. -/
theorem Measures.finish (h : s.InReply → Measures k s) {response : Response}
    (hresponse : response ∈ response? s.finish.1) :
    Weighed s.settings k response ∧ response.kind ≠ .bucketStreaming := by
  cases howns : s.streamOwns with
  | true =>
    rw [finish_of_owns howns] at hresponse
    cases hresponse
  | false =>
    rw [finish_of_not_owns howns] at hresponse
    cases hassembly : s.assembly with
    | fresh =>
      rw [hassembly] at hresponse
      cases hresponse
    | idle =>
      rw [hassembly] at hresponse
      cases hresponse
    | gathering head body =>
      have hk := h ⟨by rw [hassembly]; rfl, howns⟩
      rw [hassembly] at hresponse
      cases hqueue : s.queue with
      | nil =>
        rw [hqueue] at hresponse
        cases hresponse
      | cons t rest =>
        rw [hqueue] at hresponse
        dsimp only [Assembly.finish?] at hresponse
        cases hof : Response.ofReply? t ⟨head, Assembly.textOf head body⟩ with
        | none =>
          rw [hof] at hresponse
          cases hresponse
        | some answer =>
          rw [hof] at hresponse
          cases hresponse
          have hbody := hk.body_eq
          rw [hassembly] at hbody
          refine ⟨⟨hk.refused_iff.symm, fun hne => ?_⟩, ?_⟩
          · rw [(Response.tells_of_ofReply? hof).body_eq, ← hbody, if_neg]
            · rfl
            · rwa [← hbody] at hne
          · intro hstreaming
            have hkind : t.request.kind = .bucketStreaming :=
              (Response.kind_of_ofReply? hof).symm.trans hstreaming
            simp only [Response.ofReply?, hkind] at hof
            cases hof

theorem isOk_map {α β : Type} (result : Except OutOfTurn α) (f : α → β) :
    (result.map f).isOk = result.isOk := by
  cases result <;> rfl

/-- Every frame leaves a reply in progress measured. -/
theorem Measures.receive (h : s.InReply → Measures k s) {frame : Frame}
    (hreply : (s.receive frame).2.InReply) :
    Measures (k.after frame (s.receive frame)) (s.receive frame).2 := by
  cases frame with
  | header head => exact Measures.start h head hreply
  | content bytes =>
    have hbefore : s.InReply := (gather_leaves s bytes).2.1 hreply
    have hgathered := (h hbefore).gather hbefore bytes
    show Measures (k.add bytes ((s.gather bytes).1.map fun _ => none).isOk) (s.gather bytes).2
    rwa [isOk_map]
  | last bytes =>
    cases bytes with
    | nil => exact absurd hreply (not_inReply_finish s)
    | cons b bytes =>
      have hsame := (gather_leaves s (b :: bytes)).2
      obtain ⟨cause, herror, hreceive⟩ | ⟨-, hreceive⟩ := s.receive_last_cases b bytes
      · rw [hreceive] at hreply ⊢
        have hbefore : s.InReply := hsame.1 hreply
        have hgathered := (h hbefore).gather hbefore (b :: bytes)
        rw [herror] at hgathered
        exact hgathered
      · rw [hreceive] at hreply
        exact absurd hreply (not_inReply_finish _)

/-- What a frame that is no head leads to has been made of all that was left, the bytes of the frame
included. -/
theorem Measures.weighed (h : s.InReply → Measures k s) {frame : Frame}
    (hframe : frame.isHeader = false) {response : Response}
    (hresponse : response ∈ response? (s.receive frame).1) :
    Weighed s.settings (k.after frame (s.receive frame)) response ∧
      response.kind ≠ .bucketStreaming := by
  cases frame with
  | header head => cases hframe
  | content bytes =>
    rw [response?_content] at hresponse
    cases hresponse
  | last bytes =>
    cases bytes with
    | nil => exact Measures.finish h hresponse
    | cons b bytes =>
      have hsame := (gather_leaves s (b :: bytes)).2
      obtain ⟨cause, -, hreceive⟩ | ⟨htaken, hreceive⟩ := s.receive_last_cases b bytes
      · rw [hreceive] at hresponse
        cases hresponse
      · rw [hreceive] at hresponse ⊢
        have hok : (s.gather (b :: bytes)).2.finish.1.isOk = true := by
          cases hfinish : (s.gather (b :: bytes)).2.finish.1 with
          | ok _ => rfl
          | error cause =>
            rw [hfinish] at hresponse
            cases hresponse
        rw [Intake.after, hok, ← settings_gather s (b :: bytes)]
        refine Measures.finish (fun hreply => ?_) hresponse
        have hbefore : s.InReply := hsame.1 hreply
        have hgathered := (h hbefore).gather hbefore (b :: bytes)
        rw [htaken] at hgathered
        exact hgathered

/-- A head answers with a stream, if it answers at all. -/
theorem kind_of_start {response : Response} (hresponse : response ∈ response? (s.start head).1) :
    response.kind = .bucketStreaming := by
  cases hqueue : s.queue with
  | nil =>
    rw [start_of_queue_eq_nil hqueue] at hresponse
    cases hresponse
  | cons t rest =>
    cases hkind : t.request.kind.isStreaming with
    | false =>
      rw [start_of_ordinary hqueue hkind] at hresponse
      cases hresponse
    | true =>
      obtain ⟨answer, s', hopen, -, -, hanswers⟩ :=
        openStream_spec head ((s.queue_makeWay head).trans hqueue)
          (Request.Kind.eq_bucketStreaming hkind)
      rw [start_of_streaming hqueue hkind, hopen] at hresponse
      cases hresponse
      exact hanswers.kind_eq.trans (Request.Kind.eq_bucketStreaming hkind)

/-- The end of a reply in progress answers the first request, an ordinary one. -/
theorem InReply.finish (h : s.InReply) {t : Ticket} {rest : List Ticket}
    (hqueue : s.outstanding.queue = t :: rest) (hkind : t.request.kind.isStreaming = false) :
    ∃ response, s.finish.1 = .ok (some response) := by
  obtain ⟨head, hassembly⟩ := h.exists_gathering
  have hheld : s = s.holding head s.assembly.body := by
    rw [holding, ← hassembly]
  obtain ⟨response, s', hfinish, -⟩ := finish_holding h.2 hqueue hkind head s.assembly.body
  exact ⟨response, by rw [hheld, hfinish]⟩

/-- How a reply in progress can end: with no more bytes always, even if its last piece was refused,
and with more bytes if then not too much is left. -/
theorem Measures.last_iff (h : Measures k s) (hreply : s.InReply) {t : Ticket} {rest : List Ticket}
    (hqueue : s.outstanding.queue = t :: rest) (hkind : t.request.kind.isStreaming = false)
    (tail : Bytes) :
    (∃ response, (s.receive (.last tail)).1 = .ok (some response)) ↔
      tail = [] ∨ (k.add tail true).left.length ≤ s.settings.maxBodySize.toNat := by
  cases tail with
  | nil => exact iff_of_true (hreply.finish hqueue hkind) (.inl rfl)
  | cons b tail =>
    obtain ⟨head, hassembly⟩ := hreply.exists_gathering
    have hverdict := (gather_of_gathering hassembly (b :: tail)).1
    rw [h.leaves_append (b :: tail) true] at hverdict
    have hrefused := isOk_verdict s (k.add (b :: tail) true).left.length
    rw [← hverdict] at hrefused
    obtain ⟨hsame, hstill⟩ := gather_leaves s (b :: tail)
    obtain ⟨cause, herror, hreceive⟩ | ⟨htaken, hreceive⟩ := s.receive_last_cases b tail
    · rw [herror] at hrefused
      rw [hreceive]
      refine iff_of_false (by rintro ⟨response, hresponse⟩; cases hresponse) ?_
      rintro (hnil | hle)
      · cases hnil
      · exact Nat.not_lt.2 hle (hrefused.1 rfl)
    · rw [htaken] at hrefused
      rw [hreceive]
      refine iff_of_true ((hstill.2 hreply).finish (hsame.trans hqueue) hkind) (.inr ?_)
      by_contra hlt
      cases hrefused.2 (Nat.not_le.1 hlt)

/-! ### All events -/

namespace Gauge

/-- What is noted of the reply in progress and of the responses is right. -/
structure Inv (settings : Settings) (g : Gauge) : Prop where
  /-- The settings stay. -/
  settings_eq : g.history.session.settings = settings
  /-- A reply in progress that no stream owns is measured. -/
  measures : g.history.session.InReply → Measures g.intake g.history.session
  /-- So is what the responses have been made of. -/
  weighed : ∀ a ∈ g.answers, Weighed settings a.1 a.2
  /-- No response but that of a stream is passed over. -/
  answers_eq : g.answers.map (·.2) =
    (g.history.responses.map (·.1)).filter (·.kind ≠ .bucketStreaming)

variable {settings : Settings} {g : Gauge}

theorem Inv.start (host : String) (settings : Settings) :
    (Gauge.start host settings).Inv settings where
  settings_eq := rfl
  measures h := by cases h.1
  weighed := by simp [Gauge.start]
  answers_eq := rfl

theorem Inv.receive (h : g.Inv settings) (frame : Frame) :
    (g.act (.receive frame)).Inv settings where
  settings_eq := by
    show (g.history.note frame _).session.settings = settings
    rw [History.session_note, (sameClient_receive _ frame).settings_eq, h.settings_eq]
  measures hreply := by
    have hsession : (g.history.act (.receive frame)).session =
        (g.history.session.receive frame).2 :=
      History.session_note _ _ _
    rw [history_act, hsession] at hreply ⊢
    exact Measures.receive h.measures hreply
  weighed a ha := by
    rcases List.mem_append.1 ha with ha | ha
    · exact h.weighed a ha
    · cases hframe : frame.isHeader with
      | true =>
        rw [hframe] at ha
        cases ha
      | false =>
        rw [hframe] at ha
        obtain ⟨response, hresponse, rfl⟩ := List.mem_map.1 ha
        rw [← h.settings_eq]
        exact (Measures.weighed h.measures hframe (Option.mem_toList.1 hresponse)).1
  answers_eq := by
    show (g.answers ++ _).map (·.2) = ((g.history.note frame _).responses.map (·.1)).filter _
    rw [History.responses_note, List.map_append, List.filter_append, h.answers_eq]
    congr 1
    cases hresponse : response? (g.history.session.receive frame).1 with
    | none => cases frame.isHeader <;> rfl
    | some response =>
      cases hframe : frame.isHeader with
      | true =>
        cases frame with
        | header head => simp [kind_of_start hresponse]
        | content bytes => cases hframe
        | last bytes => cases hframe
      | false => simp [(Measures.weighed h.measures hframe hresponse).2]

/-- Where no frame comes nothing has to be noted. -/
theorem Inv.congr (h : g.Inv settings) {r : History}
    (hstream : r.session.stream = g.history.session.stream)
    (hassembly : r.session.assembly = g.history.session.assembly)
    (hsettings : r.session.settings = g.history.session.settings)
    (hresponses : r.responses = g.history.responses) : Inv settings { g with history := r } where
  settings_eq := hsettings.trans h.settings_eq
  measures hreply := by
    refine (h.measures ?_).congr hstream hassembly hsettings
    unfold InReply streamOwns at hreply ⊢
    rwa [hassembly, hstream] at hreply
  weighed := h.weighed
  answers_eq := by
    show g.answers.map (·.2) = (r.responses.map (·.1)).filter _
    rw [hresponses, h.answers_eq]

theorem Inv.act (h : g.Inv settings) (event : Event) : (g.act event).Inv settings := by
  cases event with
  | submit t => exact h.congr rfl rfl rfl rfl
  | receive frame => exact h.receive frame
  | close =>
    refine ⟨h.settings_eq, fun hreply => ?_, h.weighed, h.answers_eq⟩
    cases (Assembly.header?_reset _ ▸ hreply.1 : (none : Option Header).isSome = true)
  | drain => exact h.congr rfl rfl rfl rfl
  | subscribe stream => exact h.congr rfl rfl rfl rfl
  | unsubscribe sub => exact h.congr rfl rfl rfl rfl
  | next sub => exact h.congr rfl rfl rfl rfl

theorem Inv.run (h : g.Inv settings) (events : List Event) : (g.run events).Inv settings := by
  induction events generalizing g with
  | nil => exact h
  | cons event events ih => exact ih (h.act event)

/-- **What responses are made of**, whatever happens to a new session. Every response at the end of
a reply has been made of all that was left of the body, and too much was left if and only if the
last piece of the body was refused. And however much is left of a reply in progress to an ordinary
request: it answers that request when it ends with no more bytes; with more bytes it does unless too
much is then left. -/
theorem run_beyond_iff (host : String) (settings : Settings) (events : List Event) :
    let r := (History.start host settings).run events
    let g := (start host settings).run events
    g.answers.map (·.2) = (r.responses.map (·.1)).filter (·.kind ≠ .bucketStreaming) ∧
      (∀ a ∈ g.answers,
        (settings.maxBodySize.toNat < a.1.left.length ↔ a.1.refused = true) ∧
        (a.1.left ≠ [] → a.2.body? = some (String.ofList (Utf8.decodeLossy a.1.left)))) ∧
      ∀ t rest, r.session.InReply → r.session.outstanding.queue = t :: rest →
        t.request.kind.isStreaming = false →
        (settings.maxBodySize.toNat < g.intake.left.length ↔ g.intake.refused = true) ∧
        ∀ tail, (∃ response, (r.session.receive (.last tail)).1 = .ok (some response)) ↔
          tail = [] ∨ (g.intake.add tail true).left.length ≤ settings.maxBodySize.toNat := by
  intro r g
  obtain ⟨hsettings, hmeasures, hweighed, hanswers⟩ := (Inv.start host settings).run events
  have hhistory : g.history = r := history_run _ _
  rw [show (start host settings).run events = g from rfl, hhistory] at hsettings hmeasures hanswers
  refine ⟨hanswers, ?_, ?_⟩
  · intro a ha
    exact ⟨(hweighed a ha).beyond_iff, (hweighed a ha).body_eq⟩
  · intro t rest hreply hqueue hkind
    have hmeasured := hmeasures hreply
    rw [← hsettings]
    exact ⟨hmeasured.refused_iff.symm, hmeasured.last_iff hreply hqueue hkind⟩

/-- No response comes from more bytes of a body than the limit, if nothing happens but that requests
are submitted and frames come. -/
def LimitHolds : Prop :=
  ∀ (host : String) (settings : Settings) (events : List Event),
    (∀ event ∈ events, (∃ t, event = .submit t) ∨ ∃ frame, event = .receive frame) →
    ∀ a ∈ ((start host settings).run events).answers, a.1.body.length ≤ settings.maxBodySize.toNat

/-- A request is submitted, and five bytes come where four are the limit. -/
def tooLong : List Event :=
  [.submit ⟨0, .bucketConfig, "/c", "b", ""⟩, .receive (.header ⟨200, "OK", []⟩),
    .receive (.content [97, 97, 97, 97, 97])]

theorem answers_tooLong :
    ((start "h" { maxBodySize := 4 }).run (tooLong ++ [.receive (.last [])])).answers =
      [({ body := [97, 97, 97, 97, 97], refused := true }, .bucketConfig "aaaaa" .success)] := by
  decide +kernel

/-- The refused bytes come in the response all the same. -/
theorem not_limitHolds : ¬ LimitHolds := by
  intro h
  have hall := h "h" { maxBodySize := 4 } (tooLong ++ [.receive (.last [])]) (by simp [tooLong])
  rw [answers_tooLong] at hall
  have hle : 5 ≤ 4 := hall _ List.mem_cons_self
  exact absurd hle (by decide)

/-- The session in which the five bytes have been refused. -/
def overfull : Session where
  host := "h"
  settings := { maxBodySize := 4 }
  assembly := .gathering ⟨200, "OK", []⟩ [97, 97, 97, 97, 97]
  outstanding := ⟨[⟨0, .bucketConfig, "/c", "b", ""⟩], none⟩

theorem session_tooLong :
    ((History.start "h" { maxBodySize := 4 }).run tooLong).session = overfull := by
  decide +kernel

/-- When five bytes have been refused, the reply may end with no more bytes, but not with one
more. -/
theorem run_beyond_iff_tooLong :
    overfull.InReply ∧ overfull.outstanding.queue = [⟨0, .bucketConfig, "/c", "b", ""⟩] ∧
      (∃ response, (overfull.receive (.last [])).1 = .ok (some response)) ∧
      ¬ ∃ response, (overfull.receive (.last [97])).1 = .ok (some response) := by
  have hreply : overfull.InReply := ⟨rfl, rfl⟩
  obtain ⟨-, -, hlast⟩ := run_beyond_iff "h" { maxBodySize := 4 } tooLong
  rw [session_tooLong] at hlast
  obtain ⟨-, hiff⟩ := hlast _ _ hreply rfl rfl
  refine ⟨hreply, rfl, (hiff []).2 (.inl rfl), fun hanswered => ?_⟩
  rcases (hiff [97]).1 hanswered with hnil | hle
  · cases hnil
  · have hleft : (((start "h" { maxBodySize := 4 }).run tooLong).intake.add [97] true).left =
        [97, 97, 97, 97, 97, 97] := by
      decide +kernel
    rw [hleft] at hle
    exact absurd hle (by decide)

end Gauge

end Session

end ClusterLink
