import ClusterLink.Proofs.Reply.Segments

/-!
# What lies ahead of a framer

`Ahead limit phase bytes frames` describes, without a framer, the byte strings
that well-formed replies leave to be read in some phase, and the frames that they
stand for. A framer whose buffered bytes and bytes to come together lie ahead of
its phase is *on track*. It stays on track with every step, and it neither fails
nor hands on anything but these frames, wherever the bytes to come are cut
(`OnTrack.pushAll`).
-/

namespace ClusterLink.Reply

open Text

/-- A part that ends at the first place where its mark stands, well before the limit. -/
structure EndsAt (limit : Nat) (mark part : Bytes) : Prop where
  /-- The mark stands behind the part and not before. -/
  cut_eq : cut? mark (part ++ mark) = some (part, [])
  /-- There is room for the part and for four more bytes. -/
  fits : part.length + 4 ≤ limit

/-- The phase after a line that tells the size of a chunk. -/
def afterSize : Nat → Phase
  | 0 => .trailer
  | n + 1 => .chunk (n + 1)

/-- The phase after a line behind the last chunk. -/
def afterTrailer : Bytes → Phase
  | [] => .last
  | _ :: _ => .trailer

/-- The byte strings that whole replies leave to be read in a phase, and their frames. -/
inductive Ahead (limit : Nat) : Phase → Bytes → List Frame → Prop where
  /-- No more replies. -/
  | done : Ahead limit .header [] []
  /-- A header block and what it announces. -/
  | header {block rest : Bytes} {head : Header} {extent : Extent} {frames : List Frame} :
      EndsAt limit blockEnd block → headerOfBlock block = .ok (head, extent) →
      Ahead limit (.ofExtent extent) rest frames →
      Ahead limit .header (block ++ (blockEnd ++ rest)) (.header head :: frames)
  /-- The rest of a body of known length. -/
  | fixed {data rest : Bytes} {frames : List Frame} : data ≠ [] → Ahead limit .last rest frames →
      Ahead limit (.fixed data.length) (data ++ rest) (.content data :: frames)
  /-- The size of a chunk. -/
  | size {line rest : Bytes} {n : Nat} {frames : List Frame} :
      EndsAt limit lineEnd line → chunkSizeOfLine line = .ok n →
      Ahead limit (afterSize n) rest frames → Ahead limit .size (line ++ (lineEnd ++ rest)) frames
  /-- The rest of a chunk. -/
  | chunk {data rest : Bytes} {frames : List Frame} : data ≠ [] →
      Ahead limit .chunkEnd rest frames →
      Ahead limit (.chunk data.length) (data ++ rest) (.content data :: frames)
  /-- The line end behind a chunk. -/
  | chunkEnd {rest : Bytes} {frames : List Frame} : Ahead limit .size rest frames →
      Ahead limit .chunkEnd (lineEnd ++ rest) frames
  /-- A line behind the last chunk. -/
  | trailer {line rest : Bytes} {frames : List Frame} : EndsAt limit lineEnd line →
      Ahead limit (afterTrailer line) rest frames →
      Ahead limit .trailer (line ++ (lineEnd ++ rest)) frames
  /-- The end of a reply. -/
  | last {rest : Bytes} {frames : List Frame} : Ahead limit .header rest frames →
      Ahead limit .last rest (.last [] :: frames)

/-- The bytes that a framer has and those to come lie ahead of it. -/
structure OnTrack (limit : Nat) (f : Framer) (coming : Bytes) (frames : List Frame) : Prop where
  /-- The framer has the limit for which the parts are short enough. -/
  limit_eq : f.limit = limit
  /-- What is buffered comes first. -/
  ahead : Ahead limit f.phase (f.buffer ++ coming) frames

/-- Of bytes that begin with a part and its mark, either the whole part has come, or it is not
cut and not too long. -/
theorem EndsAt.cut_or {limit : Nat} {mark part buffer coming rest : Bytes}
    (h : EndsAt limit mark part) (hm : mark.length ≤ 4)
    (he : buffer ++ coming = part ++ (mark ++ rest)) :
    (∃ left, cut? mark buffer = some (part, left) ∧ left ++ coming = rest) ∨
      cut? mark buffer = none ∧ buffer.length ≤ limit ∧ coming ≠ [] := by
  rw [← List.append_assoc] at he
  rcases List.append_eq_append_iff.1 he with ⟨missing, hpart, rfl⟩ | ⟨left, rfl, rfl⟩
  · by_cases hmissing : missing = []
    · subst hmissing
      rw [List.append_nil] at hpart
      exact .inl ⟨[], by rw [← hpart, h.cut_eq], rfl⟩
    · refine .inr ⟨cut?_eq_none_of_append h.cut_eq hpart.symm hmissing, ?_, by simp [hmissing]⟩
      have hlen := congrArg List.length hpart
      have hfits := h.fits
      simp only [List.length_append] at hlen
      omega
  · exact .inl ⟨left, cut?_append h.cut_eq left, rfl⟩

namespace OnTrack

variable {limit : Nat} {f g : Framer} {coming : Bytes} {frames : List Frame}

/-- What a framer on track does next: it waits, and everything has been handed on if nothing is to
come, or it takes a step and stays on track. -/
inductive Next (limit : Nat) (f : Framer) (coming : Bytes) (frames : List Frame) : Prop where
  /-- The framer waits. -/
  | wait : f.step = .wait → (coming = [] → f.isIdle = true ∧ frames = []) →
      Next limit f coming frames
  /-- The framer moves on. -/
  | move {g : Framer} : f.step = .move g → OnTrack limit g coming frames →
      Next limit f coming frames
  /-- The framer hands on a frame, or the beginning of one. -/
  | emit {g : Framer} {frame : Frame} {rest : List Frame} : f.step = .emit frame g →
      OnTrack limit g coming rest → Frame.merge frames = frame.glue (Frame.merge rest) →
      Next limit f coming frames

theorem await_eq_wait {part : Part} (h : f.buffer.length ≤ f.limit) : f.await part = .wait := by
  rw [Framer.await, if_neg (by omega)]

/-- A framer in a body hands on what has come of it. -/
theorem next_of_takeBody {data rest : Bytes} {next : Nat → Phase} (hl : f.limit = limit)
    (hstep : f.step = f.takeBody data.length next) (hdata : data ≠ [])
    (hb : f.buffer ++ coming = data ++ rest) (h0 : Ahead limit (next 0) rest frames)
    (hn : ∀ left : Bytes, left ≠ [] → Ahead limit (next left.length) (left ++ rest)
      (.content left :: frames)) :
    Next limit f coming (.content data :: frames) := by
  by_cases hbuffer : f.buffer = []
  · refine .wait (by rw [hstep, Framer.takeBody, if_pos (by simp [hbuffer])]) fun hcoming => ?_
    rw [hbuffer, hcoming] at hb
    exact absurd (List.append_eq_nil_iff.1 hb.symm).1 hdata
  · have hne : ¬ f.buffer.isEmpty = true := by simp [hbuffer]
    rw [Framer.takeBody, if_neg hne] at hstep
    have hbody (hle : data.length ≤ f.buffer.length)
        (hb' : f.buffer.drop data.length ++ coming = rest)
        (htake : f.buffer.take data.length = data) :
        Next limit f coming (.content data :: frames) := by
      rw [htake, show data.length - f.buffer.length = 0 by omega] at hstep
      have htrack : OnTrack limit ⟨f.limit, f.buffer.drop data.length, next 0⟩ coming frames :=
        ⟨hl, by simpa only [hb'] using h0⟩
      exact .emit hstep htrack rfl
    rcases List.append_eq_append_iff.1 hb with ⟨left, rfl, rfl⟩ | ⟨left, hbuffer', rfl⟩
    · by_cases hleft : left = []
      · subst hleft
        exact hbody (by simp) (by simp) (by simp)
      · -- only a part of the body has come
        rw [List.take_of_length_le (by simp), List.drop_of_length_le (by simp),
          List.length_append, Nat.add_sub_cancel_left] at hstep
        have htrack : OnTrack limit ⟨f.limit, [], next left.length⟩ (left ++ rest)
            (.content left :: frames) := ⟨hl, hn left hleft⟩
        exact .emit hstep htrack (Frame.glue_content_glue _ _ _).symm
    · exact hbody (by simp [hbuffer']) (by simp [hbuffer']) (by simp [hbuffer'])

/-- A framer on track waits or takes a step that keeps it on track; it never fails. -/
theorem next (h : OnTrack limit f coming frames) : Next limit f coming frames := by
  obtain ⟨hl, h⟩ := h
  generalize hp : f.phase = phase at h
  generalize hb : f.buffer ++ coming = bytes at h
  cases h with
  | done =>
    obtain ⟨hbuffer, rfl⟩ := List.append_eq_nil_iff.1 hb
    refine .wait ?_ fun _ => ⟨by simp [Framer.isIdle, hp, hbuffer], rfl⟩
    simp [Framer.step, hp, hbuffer, cut?_nil (show blockEnd ≠ [] by decide), Framer.await]
  | header hblock hhead hahead =>
    rcases hblock.cut_or (by decide) hb with ⟨left, hcut, rfl⟩ | ⟨hcut, hlen, hcoming⟩
    · have hfits := hblock.fits
      refine .emit (g := { f with buffer := left, phase := _ }) ?_ ⟨hl, hahead⟩
        (Frame.merge_cons _ _)
      simp only [Framer.step, hp, hcut, hhead]
      rw [if_neg (by omega)]
      rfl
    · refine .wait ?_ fun h => absurd h hcoming
      simp only [Framer.step, hp, hcut]
      exact await_eq_wait (by omega)
  | fixed hdata hahead =>
    refine next_of_takeBody hl (Framer.step_of_fixed hp) hdata hb hahead fun left hleft => ?_
    rw [Framer.afterFixed_length hleft]
    exact .fixed hleft hahead
  | size hline hsize hahead =>
    rcases hline.cut_or (by decide) hb with ⟨left, hcut, rfl⟩ | ⟨hcut, hlen, hcoming⟩
    · refine .move (g := { f with buffer := left, phase := _ }) ?_ ⟨hl, hahead⟩
      simp only [Framer.step, hp, hcut, hsize]
      split <;> simp_all [afterSize]
    · refine .wait ?_ fun h => absurd h hcoming
      simp only [Framer.step, hp, hcut]
      exact await_eq_wait (by omega)
  | chunk hdata hahead =>
    refine next_of_takeBody hl (Framer.step_of_chunk hp) hdata hb hahead fun left hleft => ?_
    rw [Framer.afterChunk_length hleft]
    exact .chunk hleft hahead
  | chunkEnd hahead =>
    rcases hbuffer : f.buffer with _ | ⟨a, _ | ⟨b, left⟩⟩
    · refine .wait (by simp only [Framer.step, hp, hbuffer]) fun hcoming => ?_
      simp [hbuffer, hcoming, lineEnd] at hb
    · refine .wait (by simp only [Framer.step, hp, hbuffer]) fun hcoming => ?_
      simp [hbuffer, hcoming, lineEnd] at hb
    · rw [hbuffer] at hb
      simp only [List.cons_append, lineEnd, List.nil_append, List.cons.injEq] at hb
      obtain ⟨rfl, rfl, rfl⟩ := hb
      refine .move (g := { f with buffer := left, phase := .size }) ?_ ⟨hl, hahead⟩
      simp only [Framer.step, hp, hbuffer, lineEnd, if_true]
  | trailer hline hahead =>
    rcases hline.cut_or (by decide) hb with ⟨left, hcut, rfl⟩ | ⟨hcut, hlen, hcoming⟩
    · refine .move (g := { f with buffer := left, phase := _ }) ?_ ⟨hl, hahead⟩
      simp only [Framer.step, hp, hcut]
      split <;> simp_all [afterTrailer]
    · refine .wait ?_ fun h => absurd h hcoming
      simp only [Framer.step, hp, hcut]
      exact await_eq_wait (by omega)
  | last hahead =>
    refine .emit (g := { f with phase := .header }) ?_ ⟨hl, by rwa [← hb] at hahead⟩
      (Frame.merge_cons _ _)
    simp only [Framer.step, hp]

/-- A framer on track drains without a fault, hands on the first of the frames, stays on track and
waits. -/
theorem drain (h : OnTrack limit f coming frames) :
    ∃ first f' rest, f.drain = (.ok first, f') ∧ f'.step = .wait ∧
      OnTrack limit f' coming rest ∧ Frame.merge frames = Frame.merge (first ++ rest) := by
  induction hm : f.measure using Nat.strongRecOn generalizing f frames with
  | ind m ih =>
    subst hm
    cases h.next with
    | wait hs _ => exact ⟨[], f, frames, Framer.drain_of_wait hs, hs, h, rfl⟩
    | move hs hg =>
      obtain ⟨first, f', rest, hd, hf'⟩ :=
        ih _ (Framer.measure_lt_of_next? (by rw [hs]; rfl)) hg rfl
      exact ⟨first, f', rest, by rw [Framer.drain_of_move hs, hd], hf'⟩
    | @emit g frame more hs hg hmerge =>
      obtain ⟨first, f', rest, hd, hwait, htrack, hmerge'⟩ :=
        ih _ (Framer.measure_lt_of_next? (by rw [hs]; rfl)) hg rfl
      refine ⟨frame :: first, f', rest, by rw [Framer.drain_of_emit hs, hd]; rfl, hwait, htrack, ?_⟩
      rw [hmerge, hmerge', List.cons_append, Frame.merge_cons]

/-- Bytes that lie ahead of a framer are taken in without a fault however they are cut, become just
the frames for which they stand, and leave nothing behind. -/
theorem pushAll {pieces : List Bytes} (hwait : f.step = .wait)
    (h : OnTrack limit f pieces.flatten frames) :
    ∃ all f', f.pushAll pieces = (.ok all, f') ∧ f'.isIdle = true ∧
      Frame.merge all = Frame.merge frames := by
  induction pieces generalizing f frames with
  | nil =>
    cases h.next with
    | wait _ hend =>
      obtain ⟨hidle, rfl⟩ := hend rfl
      exact ⟨[], f, rfl, hidle, rfl⟩
    | move hs _ => cases hwait.symm.trans hs
    | emit hs _ _ => cases hwait.symm.trans hs
  | cons piece pieces ih =>
    have hextend : OnTrack limit (f.extend piece) pieces.flatten frames :=
      ⟨h.limit_eq, by simpa [Framer.extend] using h.ahead⟩
    obtain ⟨first, g, rest, hd, hg, htrack, hmerge⟩ := hextend.drain
    obtain ⟨all, f', hall, hidle, hmerge'⟩ := ih hg htrack
    refine ⟨first ++ all, f', ?_, hidle, ?_⟩
    · rw [Framer.pushAll, Framer.push_eq_drain, hd]
      simp only [hall, Except.map]
    · rw [hmerge, Frame.merge_append_congr first hmerge']

end OnTrack

end ClusterLink.Reply
