import ClusterLink.Proofs.Link.Lockstep
import ClusterLink.Proofs.Reply.Written

/-!
# Replies that are due

Of a session whose first requests are ordinary ones, and to which whole replies come,
it is known in advance what it will answer: the first reply to the first request, the
second to the second, and so on. `Session.Due` says, for a session in the middle of
this, which frames are still to come, up to where bodies are cut, and to which requests
and replies they belong. A frame leaves it due what is left (`Due.receive`), and so does
any number of them (`Matched.pays`).
-/

namespace ClusterLink

open Reply (Frame Header Written)

/-- A reply as it is when all of it has come. -/
def Reply.Written.reply (w : Written) : Reply :=
  ⟨w.header, Assembly.textOf w.header w.body.data⟩

/-- The response with which a reply answers a request. -/
def Answered (p : Ticket × Written) (response : Response) : Prop :=
  Response.ofReply? p.1 p.2.reply = some response

namespace Session

/-- The requests are ordinary ones, and no body is longer than the limit. -/
def Fair (limit : Nat) (due : List (Ticket × Written)) : Prop :=
  ∀ p ∈ due, p.1.request.kind.isStreaming = false ∧ p.2.body.data.length ≤ limit

instance (limit : Nat) (due : List (Ticket × Written)) : Decidable (Fair limit due) :=
  inferInstanceAs (Decidable (∀ p ∈ due, _))

/-- What is to come before the end of a reply is the rest of its body in one piece, or nothing. -/
def Rest (rest : Bytes) (frames tail : List Frame) : Prop :=
  frames = .content rest :: .last [] :: tail ∨ rest = [] ∧ frames = .last [] :: tail

/-- The frames that are to come, with each body in one piece, and what they belong to. -/
inductive Due (s : Session) : List Frame → List (Ticket × Written) → Prop where
  /-- Whole replies. -/
  | between {due : List (Ticket × Written)} : s.stream = none → due.map (·.1) <+: s.queue →
      Fair s.settings.maxBodySize.toNat due → Due s (due.flatMap (·.2.frames)) due
  /-- The rest of a reply and whole ones behind it. -/
  | within {t : Ticket} {w : Written} {due : List (Ticket × Written)} {body rest : Bytes}
      {frames : List Frame} : s.stream = none → t :: due.map (·.1) <+: s.queue →
      Fair s.settings.maxBodySize.toNat ((t, w) :: due) → s.assembly = .gathering w.header body →
      w.body.data = body ++ rest → Rest rest frames (due.flatMap (·.2.frames)) →
      Due s frames ((t, w) :: due)

/-- A frame answers the first request that is due, or none yet. -/
inductive Pays (s : Session) (frame : Frame) (rest : List Frame) (due : List (Ticket × Written)) :
    Prop where
  /-- There is no response yet. -/
  | silent {s' : Session} : s.receive frame = (.ok none, s') → s'.Due rest due →
      Pays s frame rest due
  /-- The first request is answered. -/
  | answer {s' : Session} {p : Ticket × Written} {more : List (Ticket × Written)}
      {response : Response} : due = p :: more → s.receive frame = (.ok (some response), s') →
      Answered p response → s'.Due rest more → Pays s frame rest due

variable {s : Session} {frames rest : List Frame} {due : List (Ticket × Written)}

/-- A request behind the others changes nothing that is due. -/
theorem Due.submit (h : s.Due frames due) (t : Ticket) : (s.submit t).2.Due frames due := by
  cases h with
  | between hstream hqueue hfair =>
    exact .between hstream (hqueue.trans (List.prefix_append _ [t])) hfair
  | within hstream hqueue hfair hassembly hdata hrest =>
    exact .within hstream (hqueue.trans (List.prefix_append _ [t])) hfair hassembly hdata hrest

/-- What callers do with streams changes nothing that is due. -/
theorem Due.of_hub (h : s.Due frames due) (hub : Hub) :
    Due { s with hub := hub } frames due := by
  cases h with
  | between hstream hqueue hfair => exact .between hstream hqueue hfair
  | within hstream hqueue hfair hassembly hdata hrest =>
    exact .within hstream hqueue hfair hassembly hdata hrest

/-- Where frames are to come, something is due. -/
theorem Due.ne_nil (h : s.Due frames due) (hframes : frames ≠ []) : due ≠ [] := by
  cases h with
  | between =>
    rintro rfl
    exact hframes rfl
  | within => exact List.cons_ne_nil _ _

/-- The first reply that is due begins. -/
theorem Due.start {head : Header} (h : s.Due (.header head :: rest) due) :
    s.Pays (.header head) rest due := by
  generalize hframes : Frame.header head :: rest = frames at h
  cases h with
  | @between due hstream hqueue hfair =>
    rcases due with _ | ⟨⟨t, w⟩, due⟩
    · cases hframes
    rw [List.flatMap_cons, Reply.Written.frames, List.cons_append] at hframes
    obtain ⟨hhead, rfl⟩ := List.cons.inj hframes
    cases hhead
    have hkind := (hfair (t, w) List.mem_cons_self).1
    obtain ⟨later, hlater⟩ := hqueue
    have hstart := start_of_ordinary hlater.symm hkind w.header
    have hyield : ({ s with assembly := .start w.header } : Session).yieldReply =
        { s with assembly := .start w.header } := by
      simp only [yieldReply, hstream]
    rw [hyield] at hstart
    refine .silent hstart (.within hstream ⟨later, hlater⟩ hfair rfl (List.nil_append _).symm ?_)
    by_cases hempty : w.body.data = []
    · exact .inr ⟨hempty, by rw [if_pos hempty]; rfl⟩
    · exact .inl (by rw [if_neg hempty]; rfl)
  | within _ _ _ _ _ hrest =>
    subst hframes
    rcases hrest with hrest | ⟨-, hrest⟩
    · cases hrest
    · cases hrest

/-- A piece in front of what is to come makes it begin with a piece. -/
theorem glue_content_eq (bytes : Bytes) (rest : List Frame) :
    ∃ first more, (Frame.content bytes).glue rest = .content first :: more := by
  rcases rest with _ | ⟨header | next | next, more⟩
  · exact ⟨_, _, rfl⟩
  · exact ⟨_, _, rfl⟩
  · exact ⟨_, _, rfl⟩
  · exact ⟨_, _, rfl⟩

/-- The rest of a body begins with the piece that comes next. -/
theorem Rest.of_glue {bytes left : Bytes} {tail : List Frame}
    (h : Rest left ((Frame.content bytes).glue rest) tail) :
    ∃ more, left = bytes ++ more ∧ Rest more rest tail := by
  rcases h with h | ⟨-, h⟩
  · rcases rest with _ | ⟨header | next | next, more⟩
    · cases h
    · cases h
    · cases h
      exact ⟨next, rfl, .inl rfl⟩
    · cases h
      exact ⟨[], (List.append_nil _).symm, .inr ⟨rfl, rfl⟩⟩
  · obtain ⟨first, more, hglue⟩ := glue_content_eq bytes rest
    rw [hglue] at h
    cases h

/-- A piece of a body comes where the rest of the body is to come. -/
theorem Due.gather {bytes : Bytes} (h : s.Due ((Frame.content bytes).glue rest) due) :
    s.Pays (.content bytes) rest due := by
  obtain ⟨first, more, hglue⟩ := glue_content_eq bytes rest
  generalize hframes : (Frame.content bytes).glue rest = frames at h
  cases h with
  | @between due _ _ _ =>
    rw [hglue] at hframes
    rcases due with _ | ⟨⟨t, w⟩, due⟩
    · cases hframes
    · cases hframes
  | @within t w due body left _ hstream hqueue hfair hassembly hdata hrest =>
    subst hframes
    obtain ⟨left', rfl, hrest'⟩ := hrest.of_glue
    have hlimit := (hfair (t, w) List.mem_cons_self).2
    have hlength : ¬ s.settings.maxBodySize.toNat < (body ++ bytes).length := by
      simp only [hdata, List.length_append] at hlimit ⊢
      omega
    have hgather : s.gather bytes =
        (.ok (), { s with assembly := .gathering w.header (body ++ bytes) }) := by
      simp only [Session.gather, hassembly, Assembly.gather?, passOn, hstream]
      exact Prod.ext (if_neg hlength) rfl
    have hreceive : s.receive (.content bytes) =
        (.ok none, { s with assembly := .gathering w.header (body ++ bytes) }) := by
      simp only [receive, hgather, Except.map]
    refine .silent hreceive (.within hstream hqueue hfair rfl ?_ hrest')
    rw [hdata, List.append_assoc]

/-- A reply ends where nothing else of it is to come. -/
theorem Due.finish {bytes : Bytes} (h : s.Due (.last bytes :: rest) due) :
    s.Pays (.last bytes) rest due := by
  generalize hframes : Frame.last bytes :: rest = frames at h
  cases h with
  | @between due _ _ _ =>
    rcases due with _ | ⟨⟨t, w⟩, due⟩
    · cases hframes
    · cases hframes
  | @within t w due body left _ hstream hqueue hfair hassembly hdata hrest =>
    subst hframes
    rcases hrest with hrest | ⟨rfl, hrest⟩
    · cases hrest
    obtain ⟨hlast, rfl⟩ := List.cons.inj hrest
    cases hlast
    obtain ⟨hordinary, hfair'⟩ := List.forall_mem_cons.1 hfair
    have hnot : s.streamOwns = false := by
      rw [streamOwns, hstream]
      rfl
    have hbody : body = w.body.data := by rw [hdata, List.append_nil]
    obtain ⟨response, hresponse⟩ := Response.isSome_ofReply? hordinary.1 w.reply
    have hfinish := finish_of_not_owns hnot
    obtain ⟨later, hlater⟩ := hqueue
    simp only [hassembly, Assembly.finish?, ← hlater, List.cons_append, hbody] at hfinish
    rw [show Response.ofReply? t ⟨w.header, Assembly.textOf w.header w.body.data⟩ = some response
      from hresponse] at hfinish
    exact .answer rfl hfinish hresponse (.between hstream ⟨later, rfl⟩ hfair')

/-- A frame leaves due what is left. -/
theorem Due.receive {frame : Frame} (h : s.Due (frame.glue rest) due) : s.Pays frame rest due := by
  cases frame with
  | header head => exact h.start
  | content bytes => exact h.gather
  | last bytes => exact h.finish

/-- Where nothing is to come, nothing is due. -/
theorem Due.eq_nil (h : s.Due [] due) : due = [] := by
  generalize hframes : ([] : List Frame) = frames at h
  cases h with
  | between =>
    rcases due with _ | ⟨p, due⟩
    · rfl
    · cases hframes
  | within _ _ _ _ _ hrest =>
    subst hframes
    rcases hrest with hrest | ⟨-, hrest⟩
    · cases hrest
    · cases hrest

end Session

namespace Connection

/-- Frames at the front of those to come answer the first requests that are due, whatever comes
behind them. -/
theorem Matched.pays {c : Connection} {frames rest : List Frame} {due : List (Ticket × Written)}
    (h : c.Matched) (hdue : c.session.Due (Frame.merge (frames ++ rest)) due) :
    ∃ done left responses, due = done ++ left ∧ List.Forall₂ Answered done responses ∧
      (c.takeAll frames).2.1 = none ∧
      (c.takeAll frames).2.2.session.Due (Frame.merge rest) left ∧
      ∀ more, c.session.respond (frames ++ more) =
        responses ++ (c.takeAll frames).2.2.session.respond more := by
  induction frames generalizing c due with
  | nil => exact ⟨[], due, [], rfl, .nil, rfl, hdue, fun _ => rfl⟩
  | cons frame frames ih =>
    -- the frame is taken without a fault, and the others leave due what is left
    cases hdue.receive with
    | silent hpays hdue' =>
      cases h.take frame with
      | fault hreceive => cases hpays.symm.trans hreceive
      | answer hreceive => cases hpays.symm.trans hreceive
      | @silent c' hreceive htake _ hmatched =>
        cases hpays.symm.trans hreceive
        obtain ⟨done, left, responses, hsplit, hdone, hfault, hleft, hrespond⟩ := ih hmatched hdue'
        rw [takeAll_cons_of_ok htake]
        refine ⟨done, left, responses, hsplit, hdone, hfault, hleft, fun more => ?_⟩
        simp only [List.cons_append, Session.respond, hreceive, hrespond more]
        rfl
    | @answer s' p due' response hcons hpays hanswered hdue' =>
      cases h.take frame with
      | fault hreceive => cases hpays.symm.trans hreceive
      | silent hreceive => cases hpays.symm.trans hreceive
      | @answer t _ c' hreceive htake _ _ hmatched =>
        cases hpays.symm.trans hreceive
        obtain ⟨done, left, responses, rfl, hdone, hfault, hleft, hrespond⟩ := ih hmatched hdue'
        rw [takeAll_cons_of_ok htake]
        refine ⟨p :: done, left, response :: responses, hcons, .cons hanswered hdone, hfault, hleft,
          fun more => ?_⟩
        simp only [List.cons_append, Session.respond, hreceive, hrespond more]
        rfl

end Connection

end ClusterLink
