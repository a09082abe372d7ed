import ClusterLink.Proofs.Session.Gathering

/-!
# An ordinary reply from head to end

The reply to an ordinary request is gathered piece by piece, and its end answers the
request. Here it is shown for every session in which no stream publishes documents,
whatever has been received before: up to the size limit no frame but the last brings
anything, and the last brings a response that is made of just this head and just these
bytes; beyond the limit the first piece that passes it is refused (`receiveAll_ordinary`).

## The argument

The head leaves no stream and an empty body (`start_ordinary`). From then on the session
holds just the bytes that have come, and says of each piece only whether they are too
many (`gather_holding`).
-/

namespace ClusterLink

open Reply (Frame Header)
open Text

namespace Response

/-- A response that tells what a reply says that has this head and this body. -/
structure Tells (t : Ticket) (head : Header) (body : Bytes) (response : Response) : Prop where
  /-- It has the form of the request. -/
  kind_eq : response.kind = t.request.kind
  /-- Its text is that of the body, for which the reason stands in if it is empty. -/
  body_eq : response.body? =
    some (if body = [] then head.reason else String.ofList (Utf8.decodeLossy body))
  /-- It has the outcome that the head reports. -/
  status_eq : response.status = Status.ofCode head.code
  /-- A flush is done unless the head says that it is still going on. -/
  done_iff : ∀ done text status, response = .flush done text status →
    (done = true ↔ head.code ≠ 201)
  /-- It carries the request or none. -/
  ticket_eq : ∀ t' ∈ response.ticket?, t' = t

theorem body?_of_ofReply? {t : Ticket} {reply : Reply} {response : Response}
    (h : ofReply? t reply = some response) : response.body? = some reply.body := by
  unfold ofReply? at h
  split at h
  all_goals cases h
  all_goals rfl

theorem done_of_ofReply? {t : Ticket} {reply : Reply} {done : Bool} {text : String}
    {status : Status} (h : ofReply? t reply = some (.flush done text status)) :
    done = true ↔ reply.header.code ≠ 201 := by
  unfold ofReply? at h
  split at h
  all_goals cases h
  exact bne_iff_ne

/-- The end of a reply makes of its head and its body what the response tells. -/
theorem tells_of_ofReply? {t : Ticket} {head : Header} {body : Bytes} {response : Response}
    (h : ofReply? t ⟨head, Assembly.textOf head body⟩ = some response) :
    Tells t head body response := by
  have hanswers := answers_of_ofReply? h
  obtain ⟨_, hhead, hstatus⟩ := hanswers.status_eq
  cases hhead
  refine ⟨hanswers.kind_eq, ?_, hstatus, ?_, hanswers.ticket_eq⟩
  · rw [body?_of_ofReply? h]
    simp only [Assembly.textOf, List.isEmpty_iff]
  · rintro done text status rfl
    exact done_of_ofReply? h

end Response

namespace Session

/-- Takes some frames, whether they are out of turn or not, and gives the result of each. -/
def receiveAll (s : Session) : List Frame → List (Except OutOfTurn (Option Response)) × Session
  | [] => ([], s)
  | frame :: rest =>
    let (result, s) := s.receive frame
    let (results, s) := s.receiveAll rest
    (result :: results, s)

/-- The session with a reply in progress that has this head, and of which these bytes are held. -/
def holding (s : Session) (head : Header) (body : Bytes) : Session :=
  { s with assembly := .gathering head body }

/-- The frames of a reply. -/
def replyFrames (head : Header) (pieces : List Bytes) (tail : Bytes) : List Frame :=
  .header head :: (pieces.map .content ++ [.last tail])

variable {s : Session} {t : Ticket} {rest : List Ticket} {head : Header} {body : Bytes}

theorem receiveAll_cons (s : Session) (frame : Frame) (frames : List Frame) :
    s.receiveAll (frame :: frames) =
      ((s.receive frame).1 :: ((s.receive frame).2.receiveAll frames).1,
        ((s.receive frame).2.receiveAll frames).2) := rfl

theorem receiveAll_append (s : Session) (frames more : List Frame) :
    s.receiveAll (frames ++ more) =
      ((s.receiveAll frames).1 ++ ((s.receiveAll frames).2.receiveAll more).1,
        ((s.receiveAll frames).2.receiveAll more).2) := by
  induction frames generalizing s with
  | nil => rfl
  | cons frame frames ih =>
    rw [List.cons_append, receiveAll_cons, receiveAll_cons, ih, List.cons_append]

/-! ### One frame -/

/-- The head of an ordinary reply: a stream that publishes nothing ends, and no bytes are held. -/
theorem start_ordinary (hstream : s.isStreaming = false) (hqueue : s.outstanding.queue = t :: rest)
    (hkind : t.request.kind.isStreaming = false) (head : Header) :
    ∃ s' : Session, s.receive (.header head) = (.ok none, s'.holding head []) ∧
      s'.stream = none ∧ s'.outstanding.queue = t :: rest ∧ s'.hub = s.hub ∧
      s'.settings = s.settings := by
  have hstart : s.receive (.header head) =
      (.ok none, { s with assembly := .start head }.yieldReply) :=
    start_of_ordinary hqueue hkind head
  rw [hstart]
  cases hopen : s.stream with
  | none =>
    refine ⟨{ s with stream := none }, ?_, rfl, hqueue, rfl, rfl⟩
    simp only [yieldReply]
    rfl
  | some stream =>
    have hfeed : stream.feed = none := by
      rw [isStreaming, hopen, Option.bind_some] at hstream
      exact Option.isNone_iff_eq_none.1 (Option.isSome_eq_false_iff.1 hstream)
    refine ⟨{ s with stream := none, outstanding := s.outstanding.putDown },
      ?_, rfl, hqueue, rfl, rfl⟩
    simp only [yieldReply, endStream, hfeed, Option.isSome_none, Option.bind_some]
    rfl

/-- Where there is no stream, all that comes is held. -/
theorem gather_holding (hstream : s.stream = none) (bytes : Bytes) :
    (s.holding head body).gather bytes =
      (s.verdict (body ++ bytes).length, s.holding head (body ++ bytes)) := by
  simp only [gather, holding, Assembly.gather?, passOn, hstream]
  rfl

/-- A piece that passes the limit is refused. -/
theorem receive_content_of_lt (hstream : s.stream = none) {bytes : Bytes}
    (hlt : s.settings.maxBodySize.toNat < (body ++ bytes).length) :
    ((s.holding head body).receive (.content bytes)).1 =
      .error (.longBody (body ++ bytes).length s.settings.maxBodySize.toNat) := by
  simp only [receive, gather_holding hstream, verdict_of_lt hlt, Except.map]

/-- A last piece that passes the limit is refused as well. -/
theorem receive_last_of_lt (hstream : s.stream = none)
    (hle : body.length ≤ s.settings.maxBodySize.toNat) {tail : Bytes}
    (hlt : s.settings.maxBodySize.toNat < (body ++ tail).length) :
    ((s.holding head body).receive (.last tail)).1 =
      .error (.longBody (body ++ tail).length s.settings.maxBodySize.toNat) := by
  cases tail with
  | nil =>
    rw [List.append_nil] at hlt
    exact absurd hlt (Nat.not_lt.2 hle)
  | cons b tail =>
    simp only [receive, gather_holding hstream, verdict_of_lt hlt]

/-- Within the limit the last frame ends the reply, with all that is held and its own bytes. -/
theorem receive_last_of_le (hstream : s.stream = none) {tail : Bytes}
    (hle : (body ++ tail).length ≤ s.settings.maxBodySize.toNat) :
    (s.holding head body).receive (.last tail) = (s.holding head (body ++ tail)).finish := by
  cases tail with
  | nil => rw [List.append_nil, receive]
  | cons b tail =>
    simp only [receive, gather_holding hstream, verdict_of_le hle]

/-- The end of an ordinary reply answers the first request with all that is held. -/
theorem finish_holding (howns : s.streamOwns = false) (hqueue : s.outstanding.queue = t :: rest)
    (hkind : t.request.kind.isStreaming = false) (head : Header) (body : Bytes) :
    ∃ response s', (s.holding head body).finish = (.ok (some response), s') ∧
      response.Tells t head body ∧ s'.outstanding.queue = rest ∧ s'.hub = s.hub := by
  obtain ⟨response, hresponse⟩ := Response.isSome_ofReply? hkind ⟨head, Assembly.textOf head body⟩
  have hfinish := finish_of_not_owns (s := s.holding head body) howns
  simp only [holding, Assembly.finish?, queue, hqueue, hresponse] at hfinish
  exact ⟨response, _, hfinish, Response.tells_of_ofReply? hresponse, rfl, rfl⟩

/-! ### All frames -/

/-- Within the limit the pieces of a body bring nothing, and all of them are held. -/
theorem receiveAll_content (hstream : s.stream = none) {pieces : List Bytes}
    (hle : (body ++ pieces.flatten).length ≤ s.settings.maxBodySize.toNat) :
    (s.holding head body).receiveAll (pieces.map .content) =
      (List.replicate pieces.length (.ok none), s.holding head (body ++ pieces.flatten)) := by
  induction pieces generalizing body with
  | nil =>
    rw [List.flatten_nil, List.append_nil]
    rfl
  | cons piece pieces ih =>
    rw [List.flatten_cons, ← List.append_assoc] at hle ⊢
    have hpiece : (body ++ piece).length ≤ s.settings.maxBodySize.toNat := by
      rw [List.length_append] at hle
      omega
    have hreceive : (s.holding head body).receive (.content piece) =
        (.ok none, s.holding head (body ++ piece)) := by
      simp only [receive, gather_holding hstream, verdict_of_le hpiece, Except.map]
    rw [List.map_cons, receiveAll_cons, hreceive, ih hle]
    rfl

/-- What is said up to the frame behind some pieces that are within the limit. -/
theorem take_receiveAll (hstream : s.stream = none) {before : List Bytes}
    (hle : before.flatten.length ≤ s.settings.maxBodySize.toNat) (frame : Frame)
    (more : List Frame) :
    ((s.holding head []).receiveAll (before.map .content ++ frame :: more)).1.take
        (before.length + 1) =
      List.replicate before.length (.ok none) ++
        [((s.holding head before.flatten).receive frame).1] := by
  rw [receiveAll_append, receiveAll_content hstream hle, receiveAll_cons, List.nil_append]
  have hlength : (List.replicate before.length
      (.ok none : Except OutOfTurn (Option Response))).length = before.length :=
    List.length_replicate
  rw [List.take_append, hlength, Nat.add_sub_cancel_left,
    List.take_of_length_le (Nat.le_succ_of_le (Nat.le_of_eq hlength))]
  rfl

/-- Of pieces that are too long together, one is the first to pass the limit. -/
theorem exists_first_beyond {limit : Nat} {pieces : List Bytes}
    (h : limit < pieces.flatten.length) :
    ∃ before piece after, pieces = before ++ piece :: after ∧ before.flatten.length ≤ limit ∧
      limit < (before.flatten ++ piece).length := by
  induction pieces generalizing limit with
  | nil => exact absurd h (Nat.not_lt_zero _)
  | cons piece pieces ih =>
    by_cases hpiece : limit < piece.length
    · exact ⟨[], piece, pieces, rfl, Nat.zero_le _, hpiece⟩
    · rw [List.flatten_cons, List.length_append] at h
      have hrest : limit - piece.length < pieces.flatten.length := by
        omega
      obtain ⟨before, next, after, rfl, hbefore, hnext⟩ := ih hrest
      refine ⟨piece :: before, next, after, rfl, ?_, ?_⟩
      · rw [List.flatten_cons, List.length_append]
        omega
      · simp only [List.flatten_cons, List.length_append] at hnext ⊢
        omega

/-- A body that is too long is refused at the first piece that passes the limit, be it the last. -/
theorem refused_first (hstream : s.stream = none) {pieces : List Bytes} {tail : Bytes}
    (hlt : s.settings.maxBodySize.toNat < (pieces.flatten ++ tail).length) :
    ∃ (before : List Bytes) (piece : Bytes) (after : List Bytes),
      pieces ++ [tail] = before ++ piece :: after ∧
      before.flatten.length ≤ s.settings.maxBodySize.toNat ∧
      s.settings.maxBodySize.toNat < (before.flatten ++ piece).length ∧
      ((s.holding head []).receiveAll (pieces.map .content ++ [.last tail])).1.take
          (before.length + 1) =
        List.replicate before.length (.ok none) ++
          [.error (.longBody (before.flatten ++ piece).length s.settings.maxBodySize.toNat)] := by
  have hall : (pieces ++ [tail]).flatten = pieces.flatten ++ tail := by simp
  rw [← hall] at hlt
  obtain ⟨before, piece, after, hsplit, hle, hbeyond⟩ := exists_first_beyond hlt
  refine ⟨before, piece, after, hsplit, hle, hbeyond, ?_⟩
  obtain rfl | ⟨others, last, rfl⟩ := after.eq_nil_or_concat
  · -- the last piece is the first to pass the limit
    obtain ⟨rfl, hlast⟩ := List.append_inj' hsplit rfl
    cases hlast
    rw [take_receiveAll hstream hle, receive_last_of_lt hstream hle hbeyond]
  · rw [List.concat_eq_append, ← List.cons_append, ← List.append_assoc] at hsplit
    obtain ⟨rfl, hlast⟩ := List.append_inj' hsplit rfl
    rw [List.map_append, List.map_cons, List.append_assoc, List.cons_append,
      take_receiveAll hstream hle, receive_content_of_lt hstream hbeyond]

/-- **An ordinary reply from head to end**, in any session in which no stream publishes and an
ordinary request is first in the queue, whatever has come before. If its body is within the limit,
every frame but the last brings nothing, and the last brings one response, which tells what this
reply says and nothing else; only its request leaves the queue, and nothing is published. If the
body is too long, every frame brings nothing up to the first piece that passes the limit, and that
one is refused. -/
theorem receiveAll_ordinary (hstream : s.isStreaming = false)
    (hqueue : s.outstanding.queue = t :: rest) (hkind : t.request.kind.isStreaming = false)
    (head : Header) (pieces : List Bytes) (tail : Bytes) :
    ((pieces.flatten ++ tail).length ≤ s.settings.maxBodySize.toNat →
      ∃ response s', s.receiveAll (replyFrames head pieces tail) =
          (List.replicate (pieces.length + 1) (.ok none) ++ [.ok (some response)], s') ∧
        response.Tells t head (pieces.flatten ++ tail) ∧ s'.outstanding.queue = rest ∧
        s'.hub = s.hub) ∧
    (s.settings.maxBodySize.toNat < (pieces.flatten ++ tail).length →
      ∃ (before : List Bytes) (piece : Bytes) (after : List Bytes),
        pieces ++ [tail] = before ++ piece :: after ∧
        before.flatten.length ≤ s.settings.maxBodySize.toNat ∧
        s.settings.maxBodySize.toNat < (before.flatten ++ piece).length ∧
        (s.receiveAll (replyFrames head pieces tail)).1.take (before.length + 2) =
          List.replicate (before.length + 1) (.ok none) ++
            [.error
              (.longBody (before.flatten ++ piece).length s.settings.maxBodySize.toNat)]) := by
  obtain ⟨begun, hstart, hnone, hwaiting, hhub, hsettings⟩ :=
    start_ordinary hstream hqueue hkind head
  rw [replyFrames, receiveAll_cons, hstart, ← hsettings, ← hhub]
  constructor
  · intro hle
    have hpieces : ([] ++ pieces.flatten).length ≤ begun.settings.maxBodySize.toNat := by
      rw [List.length_append] at hle
      rw [List.nil_append]
      omega
    have howns : begun.streamOwns = false := by
      rw [streamOwns, hnone]
      rfl
    obtain ⟨response, s', hfinish, htells, hrest, hsame⟩ :=
      finish_holding howns hwaiting hkind head (pieces.flatten ++ tail)
    refine ⟨response, s', ?_, htells, hrest, hsame⟩
    rw [receiveAll_append, receiveAll_content hnone hpieces, List.nil_append, receiveAll_cons,
      receive_last_of_le hnone hle, hfinish]
    rfl
  · intro hlt
    obtain ⟨before, piece, after, hsplit, hle, hbeyond, htake⟩ := refused_first hnone hlt
    refine ⟨before, piece, after, hsplit, hle, hbeyond, ?_⟩
    rw [List.take_succ_cons, htake]
    rfl

/-- The reply to a streaming request is no success and brings two bytes; a flush and another request
wait. -/
def refusalEvents : List Event :=
  [.submit ⟨0, .bucketStreaming, "/s", "b", ""⟩, .submit ⟨1, .flush, "/f", "b", ""⟩,
    .receive (.header ⟨404, "Not Found", []⟩), .receive (.content [122, 122]),
    .submit ⟨2, .bucketConfig, "/c", "b", ""⟩]

/-- The session after that, which holds up to three bytes. -/
def afterRefusal : Session where
  host := "h"
  settings := { maxBodySize := 3 }
  assembly := .gathering ⟨404, "Not Found", []⟩ [122, 122]
  outstanding := ⟨[⟨1, .flush, "/f", "b", ""⟩, ⟨2, .bucketConfig, "/c", "b", ""⟩], none⟩
  stream := some ⟨none, ⟨0, .bucketStreaming, "/s", "b", ""⟩, true⟩

theorem session_refusalEvents :
    ((History.start "h" { maxBodySize := 3 }).run refusalEvents).session = afterRefusal := by
  decide +kernel

/-- The reply to the flush brings one character in two pieces, with an empty one between them; or
its last piece passes the limit. -/
theorem receiveAll_ordinary_flush :
    ((History.start "h" { maxBodySize := 3 }).run refusalEvents).session = afterRefusal ∧
      afterRefusal.isStreaming = false ∧
      afterRefusal.outstanding.queue =
        [⟨1, .flush, "/f", "b", ""⟩, ⟨2, .bucketConfig, "/c", "b", ""⟩] ∧
      (∃ response s', afterRefusal.receiveAll (replyFrames ⟨201, "", []⟩ [[195], []] [169]) =
          ([.ok none, .ok none, .ok none, .ok (some response)], s') ∧
        response.kind = .flush ∧ response.body? = some "é" ∧
        s'.outstanding.queue = [⟨2, .bucketConfig, "/c", "b", ""⟩]) ∧
      (∃ (before : List Bytes) (piece : Bytes) (after : List Bytes),
        [[97, 97], [98], [99, 99]] = before ++ piece :: after ∧ before.flatten.length ≤ 3 ∧
        3 < (before.flatten ++ piece).length ∧
        (afterRefusal.receiveAll (replyFrames ⟨201, "", []⟩ [[97, 97], [98]] [99, 99])).1.take
            (before.length + 2) =
          List.replicate (before.length + 1) (.ok none) ++
            [.error (.longBody (before.flatten ++ piece).length 3)]) := by
  have hquiet : afterRefusal.isStreaming = false := rfl
  have hqueue : afterRefusal.outstanding.queue =
      [⟨1, .flush, "/f", "b", ""⟩, ⟨2, .bucketConfig, "/c", "b", ""⟩] := rfl
  have htext : String.ofList (Utf8.decodeLossy [195, 169]) = "é" := by decide +kernel
  refine ⟨session_refusalEvents, hquiet, hqueue, ?_, ?_⟩
  · obtain ⟨response, s', hresults, htells, hrest, -⟩ :=
      (receiveAll_ordinary hquiet hqueue rfl ⟨201, "", []⟩ [[195], []] [169]).1 (by decide)
    refine ⟨response, s', hresults, htells.kind_eq, ?_, hrest⟩
    rw [htells.body_eq, if_neg (by decide), ← htext]
    rfl
  · exact (receiveAll_ordinary hquiet hqueue rfl ⟨201, "", []⟩ [[97, 97], [98]] [99, 99]).2
      (by decide)

end Session

end ClusterLink
