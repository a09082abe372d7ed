import ClusterLink.Proofs.Session.BodyLimit
import ClusterLink.Proofs.Session.Carrying
import Mathlib.Data.List.Infix

/-!
# Streams within the size limit

The pieces of a body that a stream publishes are measured like any other, but only what is left
behind the last complete document counts. Here it is shown for every stream in progress which
ways to cut the body into pieces are refused (`run_accepts_iff`).

Documents within the limit are published whatever the pieces are, but not every way to cut them
is accepted: a piece may end inside the mark behind a document, and then what has come of the
mark is counted with the document. So a document of the length of the limit is refused if its
mark comes in two pieces (`not_streamsAccepted`).

## The argument

What is left after some pieces is what is left of all of them together (`Publishing.left`), so
the answer to a piece depends only on the beginning of the body that has come with it
(`Publishing.answer_eq`). The beginning of a body of documents leaves the beginning of one of
them and its mark.
-/

namespace ClusterLink

open Reply (Frame Header)
open Text

namespace Session

variable {s : Session} {i : Nat} {body : Bytes}

/-- No piece of a body is refused. -/
def Accepts (s : Session) (pieces : List Bytes) : Prop :=
  ∀ first piece, first ++ [piece] <+: pieces →
    ((s.gatherAll first).receive (.content piece)).1 = .ok none

theorem settings_gatherAll (s : Session) (pieces : List Bytes) :
    (s.gatherAll pieces).settings = s.settings := by
  induction pieces generalizing s with
  | nil => rfl
  | cons piece pieces ih => exact (ih _).trans (settings_gather s piece)

/-- What is left after some pieces is what is left of all of them together. -/
theorem Publishing.left (h : s.Publishing i body) (hbody : cut? Document.mark body = none)
    (pieces : List Bytes) :
    (s.gatherAll pieces).Publishing i (Document.split (body ++ pieces.flatten)).2 := by
  induction pieces generalizing s body with
  | nil =>
    rw [List.flatten_nil, List.append_nil, Document.split_of_cut?_eq_none hbody]
    exact h
  | cons piece pieces ih =>
    have hrest := ih (h.gather piece).1 (Document.cut?_split _)
    rw [List.flatten_cons, ← List.append_assoc, Document.split_append]
    exact hrest

/-- The answer to a piece: what is left of the body that has come with it is measured. -/
theorem Publishing.answer_eq (h : s.Publishing i body) (hbody : cut? Document.mark body = none)
    (first : List Bytes) (piece : Bytes) :
    ((s.gatherAll first).receive (.content piece)).1 =
      (s.verdict (Document.split (body ++ (first ++ [piece]).flatten)).2.length).map
        fun _ => none := by
  obtain ⟨hfeed, head, hassembly⟩ := h.left hbody first
  have hstreaming : (s.gatherAll first).isStreaming = true := by
    rw [isStreaming, hfeed]
    rfl
  have hgathered := (gather_of_gathering hassembly piece).1
  rw [leaves, if_pos hstreaming, verdict, settings_gatherAll] at hgathered
  rw [List.flatten_append, List.flatten_singleton, ← List.append_assoc,
    Document.split_append (body ++ first.flatten)]
  exact congrArg (Except.map _) hgathered

/-- Pieces are accepted if no beginning of them leaves too much. -/
theorem Publishing.accepts_iff (h : s.Publishing i body) (hbody : cut? Document.mark body = none)
    (pieces : List Bytes) :
    s.Accepts pieces ↔ ∀ first, first ≠ [] → first <+: pieces →
      (Document.split (body ++ first.flatten)).2.length ≤ s.settings.maxBodySize.toNat := by
  constructor
  · intro haccepts first hne hpre
    obtain ⟨before, piece, rfl⟩ := List.eq_nil_or_concat first |>.resolve_left hne
    rw [List.concat_eq_append] at hpre ⊢
    refine Nat.not_lt.1 fun hlong => ?_
    have hanswer := haccepts before piece hpre
    rw [h.answer_eq hbody, verdict_of_lt hlong] at hanswer
    cases hanswer
  · intro hshort first piece hpre
    rw [h.answer_eq hbody, verdict_of_le (hshort _ (by simp) hpre)]
    rfl

namespace History

theorem settings_act (r : History) (event : Event) :
    (r.act event).session.settings = r.session.settings := by
  cases event with
  | receive frame =>
    show (r.note frame _).session.settings = _
    rw [session_note]
    exact (sameClient_receive _ frame).settings_eq
  | _ => rfl

theorem settings_run (r : History) (events : List Event) :
    (r.run events).session.settings = r.session.settings := by
  induction events generalizing r with
  | nil => rfl
  | cons event events ih => exact (ih _).trans (r.settings_act event)

/-- **Which pieces of a stream are accepted**, whenever a stream is in progress. Pieces are accepted
if and only if no beginning of them leaves more than the limit behind the last complete document.
If the body consists of documents within the limit, these are published; and the pieces are accepted
if and only if none ends inside the mark behind a document that is longer than the limit together
with what has come of its mark. -/
theorem run_accepts_iff (host : String) (settings : Settings) (events : List Event) {s : Session}
    (hs : ((start host settings).run events).session = s) (hstreaming : s.isStreaming = true)
    (hopen : s.assembly.isOpen = true) (pieces : List Bytes) :
    let limit := settings.maxBodySize.toNat
    (s.Accepts pieces ↔ ∀ first, first ≠ [] → first <+: pieces →
      (Document.split (s.assembly.body ++ first.flatten)).2.length ≤ limit) ∧
    ∀ records, (∀ record ∈ records, Document.IsRecord record ∧ record.length ≤ limit) →
      s.assembly.body ++ pieces.flatten = Document.join records →
        (∃ i, s.stream.bind (·.feed) = some i ∧ (s.gatherAll pieces).hub =
          s.hub.update i (Feed.publishAll (records.map Document.ofBytes))) ∧
        (s.Accepts pieces ↔ ∀ first, first ≠ [] → first <+: pieces →
          ¬ Document.EndsInMark limit records (s.assembly.body ++ first.flatten)) := by
  intro limit
  obtain ⟨-, hsettled⟩ := session_run (start host settings) events
    ⟨.new host settings, .of_not_isStreaming rfl⟩
  have hsettings := settings_run (start host settings) events
  rw [hs] at hsettled hsettings
  obtain ⟨i, hfeed⟩ := Option.isSome_iff_exists.1 hstreaming
  obtain ⟨head, body, hassembly⟩ := Assembly.exists_of_isOpen hopen
  have hbody : s.assembly.body = body := by
    rw [hassembly]
    rfl
  have hpublishing : s.Publishing i s.assembly.body := ⟨hfeed, head, by rw [hbody, hassembly]⟩
  have haccepts := hpublishing.accepts_iff (hsettled hstreaming) pieces
  rw [hsettings] at haccepts
  refine ⟨haccepts, fun records hrecords hwhole => ⟨⟨i, hfeed, ?_⟩, haccepts.trans ?_⟩⟩
  · rw [hpublishing.gatherAll (hsettled hstreaming), hwhole,
      Document.split_join fun record hrecord => (hrecords record hrecord).1]
  · refine forall_congr' fun first => imp_congr_right fun _ => imp_congr_right fun hpre => ?_
    have hbeginning : s.assembly.body ++ first.flatten <+: Document.join records := by
      rw [← hwhole]
      exact (List.prefix_append_right_inj _).2 hpre.flatten
    rw [← Document.lt_length_split_iff hrecords hbeginning, Nat.not_lt]
    rfl

/-- A document of the length of the limit is accepted if its mark comes in one piece. -/
theorem run_accepts_iff_carrying :
    ((start "h" { maxBodySize := 4 }).run carryingEvents).session = carrying ∧
      carrying.isStreaming = true ∧ carrying.assembly.isOpen = true ∧
      carrying.Accepts [[97, 97, 97], [97, 10, 10, 10, 10]] ∧
      (carrying.gatherAll [[97, 97, 97], [97, 10, 10, 10, 10]]).hub =
        carrying.hub.update 0 (Feed.publishAll ["aaaa"]) := by
  obtain ⟨haccepts, hrecords⟩ := run_accepts_iff "h" { maxBodySize := 4 } carryingEvents
    session_carryingEvents rfl rfl [[97, 97, 97], [97, 10, 10, 10, 10]]
  have hrecord : ∀ record ∈ [[97, 97, 97, 97]], Document.IsRecord record ∧ record.length ≤ 4 := by
    rintro _ (_ | ⟨_, ⟨⟩⟩)
    exact ⟨rfl, by decide⟩
  obtain ⟨⟨i, hfeed, hhub⟩, -⟩ := hrecords [[97, 97, 97, 97]] hrecord rfl
  cases hfeed
  have hdocuments : [[97, 97, 97, 97]].map Document.ofBytes = ["aaaa"] := by
    decide +kernel
  rw [hdocuments] at hhub
  have hleft : Document.split [97, 97, 97] = ([], [97, 97, 97]) := by
    decide +kernel
  have hnone : Document.split [97, 97, 97, 97, 10, 10, 10, 10] = (["aaaa"], []) := by
    decide +kernel
  refine ⟨session_carryingEvents, rfl, rfl, haccepts.2 fun first hne hpre => ?_, hhub⟩
  obtain rfl | ⟨later, rfl, hlater⟩ := List.prefix_cons_iff.1 hpre
  · exact absurd rfl hne
  · obtain rfl | ⟨last, rfl, hlast⟩ := List.prefix_cons_iff.1 hlater
    · show (Document.split [97, 97, 97]).2.length ≤ 4
      rw [hleft]
      decide
    · obtain rfl := List.prefix_nil.1 hlast
      show (Document.split [97, 97, 97, 97, 10, 10, 10, 10]).2.length ≤ 4
      rw [hnone]
      decide

/-- The limit refuses no stream of documents within it. -/
def StreamsAccepted : Prop :=
  ∀ (host : String) (settings : Settings) (events : List Event) (records pieces : List Bytes),
    let s := ((start host settings).run events).session
    s.isStreaming = true → s.assembly.isOpen = true → s.assembly.body = [] →
      (∀ record ∈ records, record.length ≤ settings.maxBodySize.toNat) →
        pieces.flatten = Document.join records → s.Accepts pieces

/-- A document of the length of the limit is refused if its mark comes in two pieces. -/
theorem not_streamsAccepted : ¬ StreamsAccepted := by
  intro h
  have haccepts := h "h" { maxBodySize := 4 } carryingEvents [[97, 97, 97, 97]]
    [[97, 97, 97, 97, 10], [10, 10, 10]]
  rw [session_carryingEvents] at haccepts
  have haccepts := haccepts rfl rfl rfl (by decide) rfl
  have hanswer := haccepts [] [97, 97, 97, 97, 10] ⟨[[10, 10, 10]], rfl⟩
  have hrefused : (carrying.receive (.content [97, 97, 97, 97, 10])).1 =
      .error (.longBody 5 4) := by
    decide +kernel
  rw [show carrying.gatherAll [] = carrying from rfl, hrefused] at hanswer
  cases hanswer

end History

end Session

end ClusterLink
