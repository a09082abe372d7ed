import ClusterLink.Proofs.Reply.Segments
import Mathlib.Data.List.Basic

/-!
# How long a part may be

Header blocks, the lines that tell the sizes of chunks, and the lines behind the
last chunk end with a mark, and a limit is set to their length. A framer knows
the length of such a part only when the mark has come; until then it counts the
bytes that it has, those of an unfinished mark included. Here it is shown which
parts it refuses as too long, for every limit and wherever the bytes are cut
(`lengthDecides_iff`).

## The argument

A framer in a part waits until the mark is there (`step_of_cut?_eq_none`) or
until there are too many bytes, so what becomes of the part is its first step
that is not to wait (`settle`). The pieces on the way there either complete the
mark or leave it unfinished with more bytes than the limit, which is `Overruns`.
A header block is measured once more when it is complete; the other parts are
not.
-/

namespace ClusterLink

open Text

/-- Whether a part was refused as too long. -/
def Malformed.isTooLong : Malformed → Bool
  | endless _ _ => true
  | longBlock _ _ => true
  | _ => false

namespace Reply

theorem Extent.isTooLong_of_foldlM {fields : Fields} {e : Extent} {cause : Malformed}
    (h : fields.foldlM Extent.after e = .error cause) : cause.isTooLong = false := by
  induction fields generalizing e with
  | nil => cases h
  | cons field fields ih =>
    rw [List.foldlM_cons] at h
    cases hafter : e.after field with
    | ok e' =>
      rw [hafter] at h
      exact ih h
    | error cause' =>
      rw [hafter] at h
      cases h
      unfold Extent.after at hafter
      split at hafter
      · cases hafter
      · split at hafter
        · split at hafter
          · cases hafter
          · cases hafter
            rfl
        · cases hafter

/-- What is wrong with a header block is never its length. -/
theorem isTooLong_of_headerOfBlock {block : Bytes} {cause : Malformed}
    (h : headerOfBlock block = .error cause) : cause.isTooLong = false := by
  have hlines (status : List Char) (lines : List (List Char))
      (h : headerOfLines status lines = .error cause) : cause.isTooLong = false := by
    unfold headerOfLines at h
    split at h
    · cases h
      rfl
    · cases hextent : Extent.ofFields (lines.filterMap field?) with
      | ok extent => simp [hextent, Except.map] at h
      | error cause' =>
        simp only [hextent, Except.map, Except.error.injEq] at h
        subst h
        exact Extent.isTooLong_of_foldlM hextent
  unfold headerOfBlock at h
  split at h
  · cases h
    rfl
  · split at h
    · exact hlines _ _ h
    · exact hlines _ _ h

/-- What is wrong with a complete line in front of a chunk is never its length. -/
theorem isTooLong_of_chunkSizeOfLine {line : Bytes} {cause : Malformed}
    (h : chunkSizeOfLine line = .error cause) : cause.isTooLong = false := by
  unfold chunkSizeOfLine at h
  split at h
  · cases h
    rfl
  · dsimp only at h
    split at h
    · cases h
    · cases h
      rfl

/-- The part that is read in a phase and ends with a mark, and the mark. -/
def Phase.part? : Phase → Option (Part × Bytes)
  | header => some (.headerBlock, blockEnd)
  | size => some (.chunkSizeLine, lineEnd)
  | trailer => some (.trailerLine, lineEnd)
  | _ => none

namespace Framer

/-! ## What becomes of a part -/

/-- Whether a step refuses a part as too long. -/
def Step.isRefusal : Step → Bool
  | fail cause _ => cause.isTooLong
  | _ => false

/-- The first step that is not to wait, as pieces of more bytes come, and the pieces that have not
come by then. -/
def settle (f : Framer) : List Bytes → Step × List Bytes
  | [] => (f.step, [])
  | piece :: rest =>
    match f.step with
    | .wait => (f.extend piece).settle rest
    | taken => (taken, piece :: rest)

/-- Whether the part that a framer is in is refused as too long, as pieces of more bytes come. -/
def refuses (f : Framer) (pieces : List Bytes) : Bool :=
  (f.settle pieces).1.isRefusal

/-- What becomes of the bytes that a framer has and of pieces of more bytes. -/
def drainAll (f : Framer) (pieces : List Bytes) : Except Malformed (List Frame) × Framer :=
  match f.drain with
  | (.error cause, g) => (.error cause, g)
  | (.ok frames, g) => ((g.pushAll pieces).1.map (frames ++ ·), (g.pushAll pieces).2)

variable {f g : Framer} {kind : Part} {mark part rest : Bytes} {pieces : List Bytes}

theorem pushAll_cons (f : Framer) (piece : Bytes) (pieces : List Bytes) :
    f.pushAll (piece :: pieces) = (f.extend piece).drainAll pieces := by
  rcases hdrain : (f.extend piece).drain with ⟨_ | _, _⟩
  · simp only [pushAll, push_eq_drain, drainAll, hdrain]
  · simp only [pushAll, push_eq_drain, drainAll, hdrain]

theorem settle_of_ne_wait (h : f.step ≠ .wait) (pieces : List Bytes) :
    f.settle pieces = (f.step, pieces) := by
  cases pieces with
  | nil => rfl
  | cons piece pieces =>
    rw [settle]
    split
    · rename_i hwait
      exact absurd hwait h
    · rfl

theorem settle_cons_of_wait (h : f.step = .wait) (piece : Bytes) (pieces : List Bytes) :
    f.settle (piece :: pieces) = (f.extend piece).settle pieces := by
  rw [settle, h]

/-- A part is refused with all that would have come behind it. -/
theorem drainAll_of_settle_eq_fail {cause : Malformed} {left : List Bytes}
    (h : f.settle pieces = (.fail cause g, left)) : f.drainAll pieces = (.error cause, g) := by
  induction pieces generalizing f with
  | nil =>
    simp only [settle, Prod.mk.injEq] at h
    rw [drainAll, drain_of_fail h.1]
  | cons piece pieces ih =>
    by_cases hwait : f.step = .wait
    · rw [settle_cons_of_wait hwait] at h
      rw [drainAll, drain_of_wait hwait]
      simp only [List.nil_append, pushAll_cons, ih h]
      rfl
    · rw [settle_of_ne_wait hwait] at h
      simp only [Prod.mk.injEq] at h
      rw [drainAll, drain_of_fail h.1]

/-! ## Steps inside a part and at its end -/

/-- As long as the mark has not come, only the number of bytes counts. -/
theorem step_of_cut?_eq_none (hpart : f.phase.part? = some (kind, mark))
    (h : cut? mark f.buffer = none) : f.step = f.await kind := by
  unfold step
  cases hphase : f.phase
  all_goals
    rw [hphase] at hpart
    cases hpart
  all_goals simp only [h]

/-- When the mark has come, the part is through unless it is a header block that is too long. -/
theorem step_of_cut?_eq_some (hpart : f.phase.part? = some (kind, mark))
    (h : cut? mark f.buffer = some (part, rest)) :
    f.step ≠ .wait ∧ (f.step.isRefusal = true ↔ f.phase = .header ∧ f.limit < part.length) := by
  unfold step
  cases hphase : f.phase
  all_goals
    rw [hphase] at hpart
    cases hpart
  case header =>
    simp only [h]
    split
    · rename_i hlong
      exact ⟨nofun, fun _ => ⟨trivial, hlong⟩, fun _ => rfl⟩
    · rename_i hshort
      refine ⟨?_, fun hrefusal => ?_, fun hlong => absurd hlong.2 hshort⟩
      · split <;> exact nofun
      · split at hrefusal
        · rename_i cause hcause
          rw [Step.isRefusal, isTooLong_of_headerOfBlock hcause] at hrefusal
          cases hrefusal
        · cases hrefusal
  case size =>
    simp only [h]
    refine ⟨?_, fun hrefusal => ?_, fun hlong => nomatch hlong.1⟩
    · split <;> exact nofun
    · split at hrefusal
      · rename_i cause hcause
        rw [Step.isRefusal, isTooLong_of_chunkSizeOfLine hcause] at hrefusal
        cases hrefusal
      · cases hrefusal
      · cases hrefusal
  case trailer =>
    simp only [h]
    refine ⟨?_, fun hrefusal => ?_, fun hlong => nomatch hlong.1⟩
    · split <;> simp_all
    · split at hrefusal <;> simp_all [Step.isRefusal]

/-- Some of the pieces bring more bytes than the limit and yet end before the first `size` bytes. -/
def Overruns (f : Framer) (pieces : List Bytes) (size : Nat) : Prop :=
  ∃ come, come <+: pieces ∧ f.limit < (f.extend come.flatten).buffer.length ∧
    (f.extend come.flatten).buffer.length < size

theorem not_overruns_of_le {size : Nat} (h : size ≤ f.buffer.length) :
    ¬ f.Overruns pieces size := by
  rintro ⟨come, -, -, hsize⟩
  simp only [extend, List.length_append] at hsize
  omega

/-- A piece that comes in time overruns nothing by itself. -/
theorem overruns_cons_iff {piece : Bytes} {size : Nat} (h : f.buffer.length ≤ f.limit) :
    f.Overruns (piece :: pieces) size ↔ (f.extend piece).Overruns pieces size := by
  constructor
  · rintro ⟨come, hcome, hlimit, hsize⟩
    rcases List.prefix_cons_iff.1 hcome with rfl | ⟨come', rfl, hcome'⟩
    · simp only [List.flatten_nil, extend_nil] at hlimit
      omega
    · rw [List.flatten_cons, ← extend_extend] at hlimit hsize
      exact ⟨come', hcome', hlimit, hsize⟩
  · rintro ⟨come, hcome, hlimit, hsize⟩
    refine ⟨piece :: come, (List.prefix_cons_inj piece).2 hcome, ?_⟩
    rw [List.flatten_cons, ← extend_extend]
    exact ⟨hlimit, hsize⟩

/-- When the mark has come already, nothing is overrun. -/
theorem refuses_iff_of_cut? (hpart : f.phase.part? = some (kind, mark))
    (h : cut? mark f.buffer = some (part, rest)) (pieces : List Bytes) :
    f.refuses pieces = true ↔
      f.phase = .header ∧ f.limit < part.length ∨
        f.Overruns pieces (part.length + mark.length) := by
  obtain ⟨hwait, hrefusal⟩ := step_of_cut?_eq_some hpart h
  have hlen := congrArg List.length (eq_append_of_cut? h)
  simp only [List.length_append] at hlen
  have hnot : ¬ f.Overruns pieces (part.length + mark.length) := not_overruns_of_le (by omega)
  rw [refuses, settle_of_ne_wait hwait, hrefusal, or_iff_left hnot]

/-- A part is refused if it is overrun, and a header block also if it is too long. -/
theorem refuses_iff (hpart : f.phase.part? = some (kind, mark))
    (hcut : cut? mark (f.extend pieces.flatten).buffer = some (part, rest)) :
    f.refuses pieces = true ↔
      f.phase = .header ∧ f.limit < part.length ∨
        f.Overruns pieces (part.length + mark.length) := by
  induction pieces generalizing f with
  | nil =>
    rw [List.flatten_nil, extend_nil] at hcut
    exact refuses_iff_of_cut? hpart hcut []
  | cons piece pieces ih =>
    cases hbuffer : cut? mark f.buffer with
    | some cut =>
      obtain ⟨part', left⟩ := cut
      have hsame := (cut?_append hbuffer (piece :: pieces).flatten).symm.trans hcut
      cases hsame
      exact refuses_iff_of_cut? hpart hbuffer _
    | none =>
      have hstep := step_of_cut?_eq_none hpart hbuffer
      rw [await] at hstep
      split at hstep
      · -- too many bytes have come already
        rename_i hlimit
        have hwait : f.step ≠ .wait := by
          rw [hstep]
          exact nofun
        rw [refuses, settle_of_ne_wait hwait, hstep]
        have hover : f.Overruns (piece :: pieces) (part.length + mark.length) := by
          refine ⟨[], List.nil_prefix, ?_⟩
          rw [List.flatten_nil, extend_nil]
          exact ⟨hlimit, length_lt_of_cut?_eq_none hcut hbuffer⟩
        exact iff_of_true rfl (.inr hover)
      · rename_i hlimit
        rw [refuses, settle_cons_of_wait hstep, ← refuses, overruns_cons_iff (Nat.not_lt.1 hlimit)]
        rw [List.flatten_cons, ← extend_extend] at hcut
        exact ih (f := f.extend piece) hpart hcut

/-- **When the length of a part decides whether it is refused.** A part is refused exactly if it is
overrun, or is a header block that is longer than the limit. So length decides, wherever the bytes
are cut, exactly if no part within the limit is overrun and, for parts that are not measured at
their end, every longer one is. A refusal ends the push that brings it. -/
theorem lengthDecides_iff (hpart : f.phase.part? = some (kind, mark))
    (hcut : cut? mark (f.extend pieces.flatten).buffer = some (part, rest)) :
    (f.refuses pieces = true ↔ f.phase = .header ∧ f.limit < part.length ∨
        f.Overruns pieces (part.length + mark.length)) ∧
      ((f.refuses pieces = true ↔ f.limit < part.length) ↔
        (f.Overruns pieces (part.length + mark.length) → f.limit < part.length) ∧
          (f.phase ≠ .header → f.limit < part.length →
            f.Overruns pieces (part.length + mark.length))) ∧
      (f.refuses pieces = true →
        ∃ cause g, cause.isTooLong = true ∧ f.drainAll pieces = (.error cause, g)) := by
  have hrefuses := refuses_iff hpart hcut
  refine ⟨hrefuses, ?_, fun h => ?_⟩
  · rw [hrefuses]
    by_cases hheader : f.phase = .header
    · simp only [hheader, true_and, ne_eq, not_true, false_implies, and_true, or_iff_left_iff_imp]
    · simp only [hheader, false_and, false_or, ne_eq, not_false_iff, true_implies,
        iff_iff_implies_and_implies]
  · rcases hsettle : f.settle pieces with ⟨step, left⟩
    rw [refuses, hsettle] at h
    cases step with
    | fail cause g => exact ⟨cause, g, h, drainAll_of_settle_eq_fail hsettle⟩
    | emit frame g => cases h
    | move g => cases h
    | wait => cases h

/-- The size of a chunk, told with two zeros too many for the limit, passes when it comes at once
with its mark, and is refused when the mark comes behind it. -/
theorem lengthDecides_iff_size :
    let f : Framer := { limit := 2, phase := .size }
    f.phase.part? = some (.chunkSizeLine, lineEnd) ∧
      cut? lineEnd (f.extend [[48, 48, 53], [13, 10]].flatten).buffer = some ([48, 48, 53], []) ∧
      f.refuses [[48, 48, 53, 13, 10]] = false ∧
      ∃ cause g, cause.isTooLong = true ∧
        f.drainAll [[48, 48, 53], [13, 10]] = (.error cause, g) := by
  intro f
  have hpart : f.phase.part? = some (.chunkSizeLine, lineEnd) := rfl
  have hcut : cut? lineEnd (f.extend [[48, 48, 53], [13, 10]].flatten).buffer =
      some ([48, 48, 53], []) := rfl
  obtain ⟨hrefuses, -, hends⟩ := lengthDecides_iff hpart hcut
  have hover : f.Overruns [[48, 48, 53], [13, 10]] 5 :=
    ⟨[[48, 48, 53]], ⟨[[13, 10]], rfl⟩, by decide, by decide⟩
  have hwhole : Framer.refuses { limit := 2, phase := .size } [[48, 48, 53, 13, 10]] = false := by
    decide +kernel
  exact ⟨hpart, hcut, hwhole, hends (hrefuses.2 (.inr hover))⟩

/-- A new framer takes in a header block that comes at once. -/
theorem step_extend_block {limit : Nat} {block : Bytes} {head : Header} {extent : Extent}
    (hcut : cut? blockEnd (block ++ blockEnd) = some (block, [])) (hlen : block.length ≤ limit)
    (hhead : headerOfBlock block = .ok (head, extent)) :
    (extend { limit := limit } (block ++ blockEnd)).step =
      .emit (.header head) { limit := limit, phase := .ofExtent extent } := by
  simp only [step, extend, List.nil_append, hcut, Nat.not_lt.2 hlen, if_false, hhead]

/-- The length of a part alone does not decide. A header block that is just as long as the limit is
taken in when it comes at once, and refused when its mark is cut; a line with more zeros than the
limit tells the size of a chunk. -/
theorem not_lengthDecides :
    (Utf8.encode "HTTP/1.1 200 OK".toList).length = 15 ∧
      (({ limit := 15 } : Framer).push (Utf8.encode "HTTP/1.1 200 OK".toList ++ blockEnd)).1 =
        .ok [.header ⟨200, "OK", []⟩, .last []] ∧
      (({ limit := 15 } : Framer).pushAll
          [Utf8.encode "HTTP/1.1 200 OK".toList ++ [13], [10, 13, 10]]).1 =
        .error (.endless .headerBlock 15) ∧
      (({ limit := 50 } : Framer).pushAll
          [Utf8.encode "HTTP/1.1 200 OK\r\nTransfer-Encoding: chunked".toList ++ blockEnd,
            List.replicate 51 48 ++ lineEnd ++ lineEnd]).1 =
        .ok [.header ⟨200, "OK", [("Transfer-Encoding", "chunked")]⟩, .last []] := by
  have hlast (limit : Nat) : ({ limit := limit, phase := .last } : Framer).drain =
      (.ok [.last []], { limit := limit }) := by
    rw [drain_of_emit (show Framer.step _ = .emit (.last []) { limit := limit } from rfl),
      drain_of_wait rfl]
    rfl
  have hplain : headerOfBlock (Utf8.encode "HTTP/1.1 200 OK".toList) =
      .ok (⟨200, "OK", []⟩, .empty) := by
    decide +kernel
  have hchunked : headerOfBlock
      (Utf8.encode "HTTP/1.1 200 OK\r\nTransfer-Encoding: chunked".toList) =
        .ok (⟨200, "OK", [("Transfer-Encoding", "chunked")]⟩, .chunked) := by
    decide +kernel
  refine ⟨by decide +kernel, ?_, ?_, ?_⟩
  · rw [push_eq_drain,
      drain_of_emit (step_extend_block (by decide +kernel) (by decide +kernel) hplain),
      Phase.ofExtent, hlast]
    rfl
  · have hpush : ({ limit := 15 } : Framer).push (Utf8.encode "HTTP/1.1 200 OK".toList ++ [13]) =
        (.error (.endless .headerBlock 15),
          { limit := 15, buffer := Utf8.encode "HTTP/1.1 200 OK".toList ++ [13] }) :=
      drain_of_fail rfl
    rw [pushAll, hpush]
  · have hsize : (extend { limit := 50, phase := .size }
        (List.replicate 51 48 ++ lineEnd ++ lineEnd)).step =
        .move { limit := 50, phase := .trailer, buffer := lineEnd } := by
      have hcut : cut? lineEnd (List.replicate 51 48 ++ lineEnd ++ lineEnd) =
          some (List.replicate 51 48, lineEnd) := by
        decide +kernel
      have hzero : chunkSizeOfLine (List.replicate 51 48) = .ok 0 := by
        decide +kernel
      simp only [step, extend, List.nil_append, hcut, hzero]
    have htrailer : ({ limit := 50, phase := .trailer, buffer := lineEnd } : Framer).step =
        .move { limit := 50, phase := .last } := rfl
    rw [pushAll, push_eq_drain,
      drain_of_emit (step_extend_block (by decide +kernel) (by decide +kernel) hchunked),
      Phase.ofExtent, drain_of_wait rfl]
    simp only [Except.map, pushAll]
    rw [push_eq_drain, drain_of_move hsize, drain_of_move htrailer, hlast]
    rfl

end Framer

end Reply

end ClusterLink
