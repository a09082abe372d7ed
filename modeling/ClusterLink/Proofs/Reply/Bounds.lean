import ClusterLink.Proofs.Reply.Resting
import ClusterLink.Proofs.Text.Occurrence

/-!
# Bounds of a push

A push takes steps until one waits or fails, and each step takes bytes out of the buffer
by their number. Here it is shown that this comes to an end, that no step takes more than
there is, and how many frames a push can bring (`Framer.guardedPush_eq`).

## The model

`step` cuts lists and so cannot go wrong. `guardedStep` does the same with positions and
lengths: it looks for a mark by its place in the buffer, splits bytes off, skips them and
subtracts from a count, and stops with a `Slip` where a number does not fit what it is
applied to. The two loops of a push are written out with the number of their rounds, one
that goes on to the next frame (`extract`) and one that gathers the frames (`extractAll`),
and stop with a `Slip` too if the rounds do not suffice. A push without a `Slip` has kept
to all bounds.

## The argument

For a step the places and lengths are those of the parts that `cut?` finds
(`find?_eq_map_cut?`). For the loops every round lowers the measure by which `drain`
ends. The frames are counted against `due`, the bytes that are buffered and the end of
the reply that has begun: a head and a piece of a body use up bytes, an end uses up what
the head before it has added.
-/

namespace ClusterLink.Reply

open Text

/-- How a guarded push can slip. -/
inductive Slip where
  /-- More bytes are split off than there are. -/
  | split
  /-- More bytes are skipped than there are. -/
  | skip
  /-- More is subtracted from a count than it has. -/
  | below
  /-- There are more rounds than were allowed. -/
  | rounds
  deriving DecidableEq, Repr

namespace Slip

/-- Splits the first `n` bytes off. -/
def splitTo (n : Nat) (buffer : Bytes) : Except Slip (Bytes × Bytes) :=
  if n ≤ buffer.length then .ok (buffer.take n, buffer.drop n) else .error split

/-- Skips `n` bytes. -/
def advance (n : Nat) (buffer : Bytes) : Except Slip Bytes :=
  if n ≤ buffer.length then .ok (buffer.drop n) else .error skip

/-- Counts down by `n`. -/
def countDown (count n : Nat) : Except Slip Nat :=
  if n ≤ count then .ok (count - n) else .error below

/-- The first place at which the bytes of the mark stand. -/
def find? (mark buffer : Bytes) : Option Nat :=
  (List.range buffer.length).find? fun n => (buffer.drop n).take mark.length == mark

variable {mark buffer before after : Bytes} {n count : Nat}

theorem splitTo_append (before after : Bytes) :
    splitTo before.length (before ++ after) = .ok (before, after) := by
  rw [splitTo, if_pos (by simp), List.take_left, List.drop_left]

theorem splitTo_of_le (h : n ≤ buffer.length) :
    splitTo n buffer = .ok (buffer.take n, buffer.drop n) :=
  if_pos h

theorem advance_append (before after : Bytes) :
    advance before.length (before ++ after) = .ok after := by
  rw [advance, if_pos (by simp), List.drop_left]

theorem countDown_of_le (h : n ≤ count) : countDown count n = .ok (count - n) :=
  if_pos h

/-- A mark is found where the buffer is cut. -/
theorem find?_eq_map_cut? (hm : mark ≠ []) :
    find? mark buffer = (cut? mark buffer).map (·.1.length) := by
  have hhere {n : Nat} : ((buffer.drop n).take mark.length == mark) = true ↔
      mark <+: buffer.drop n := by
    rw [beq_iff_eq, List.prefix_iff_eq_take, eq_comm]
  cases hcut : cut? mark buffer with
  | none =>
    rw [find?, Option.map_none, List.find?_eq_none]
    intro n _ hn
    exact cut?_eq_none_iff.1 hcut ((hhere.1 hn).isInfix.trans (List.drop_suffix n buffer).isInfix)
  | some cut =>
    obtain ⟨before, after⟩ := cut
    obtain ⟨hbuffer, hfirst⟩ := cut?_eq_some_iff.1 hcut
    have hlen := congrArg List.length hbuffer
    have hpos := List.length_pos_iff.2 hm
    simp only [List.length_append] at hlen
    have hlt : before.length < buffer.length := by omega
    rw [find?, Option.map_some, List.find?_range_eq_some]
    refine ⟨hhere.2 hfirst.here, List.mem_range.2 hlt, fun i hi => ?_⟩
    rw [Bool.not_eq_true', Bool.eq_false_iff]
    exact mt hhere.1 (hfirst.not_before i hi)

end Slip

namespace Framer

open Slip

/-- A step by places and lengths. -/
def guardedStep (f : Framer) : Except Slip Step :=
  match f.phase with
  | .header =>
    match find? blockEnd f.buffer with
    | none => pure (f.await .headerBlock)
    | some stop =>
      if f.limit < stop then pure (.fail (.longBlock stop f.limit) f)
      else do
        let (front, rest) ← splitTo (stop + 4) f.buffer
        let (block, _) ← splitTo stop front
        match headerOfBlock block with
        | .error cause => pure (.fail cause { f with buffer := rest })
        | .ok (head, extent) =>
          pure (.emit (.header head) { f with buffer := rest, phase := .ofExtent extent })
  | .fixed left => guardedTake left afterFixed
  | .size =>
    match find? lineEnd f.buffer with
    | none => pure (f.await .chunkSizeLine)
    | some stop => do
      let (line, rest) ← splitTo stop f.buffer
      let rest ← advance 2 rest
      match chunkSizeOfLine line with
      | .error cause => pure (.fail cause { f with buffer := rest })
      | .ok n => pure (.move { f with buffer := rest, phase := afterSize n })
  | .chunk left => guardedTake left afterChunk
  | .chunkEnd =>
    if f.buffer.length < 2 then pure .wait
    else do
      let (front, _) ← splitTo 2 f.buffer
      if front = lineEnd then
        let rest ← advance 2 f.buffer
        pure (.move { f with buffer := rest, phase := .size })
      else pure (.fail .chunkEnd f)
  | .trailer =>
    match find? lineEnd f.buffer with
    | none => pure (f.await .trailerLine)
    | some stop => do
      let rest ← advance (stop + 2) f.buffer
      pure (.move { f with buffer := rest, phase := if stop = 0 then .last else .trailer })
  | .last => pure (.emit (.last []) { f with phase := .header })
where
  /-- Splits body bytes off and counts them. -/
  guardedTake (left : Nat) (next : Nat → Phase) : Except Slip Step :=
    if f.buffer.isEmpty then pure .wait
    else do
      let (piece, rest) ← splitTo (min left f.buffer.length) f.buffer
      let left ← countDown left (min left f.buffer.length)
      pure (.emit (.content piece) { f with buffer := rest, phase := next left })

/-- Steps up to the next frame, in so many rounds. -/
def extract : Nat → Framer → Except Slip (Except Malformed (Option Frame) × Framer)
  | 0, _ => .error .rounds
  | n + 1, f => do
    match ← f.guardedStep with
    | .emit frame next => pure (.ok (some frame), next)
    | .move next => extract n next
    | .wait => pure (.ok none, f)
    | .fail cause next => pure (.error cause, next)

/-- Gathers frames, in so many rounds with so many rounds for each. -/
def extractAll (rounds : Nat) : Nat → Framer → Except Slip (Except Malformed (List Frame) × Framer)
  | 0, _ => .error .rounds
  | n + 1, f => do
    match ← extract rounds f with
    | (.ok (some frame), next) =>
      let (more, last) ← extractAll rounds n next
      pure (more.map (frame :: ·), last)
    | (.ok none, next) => pure (.ok [], next)
    | (.error cause, next) => pure (.error cause, next)

/-- A push whose loops have so many rounds. -/
def guardedPush (rounds : Nat) (f : Framer) (data : Bytes) :
    Except Slip (Except Malformed (List Frame) × Framer) :=
  extractAll rounds rounds (f.extend data)

variable {f g : Framer} {frames : List Frame}

/-! ## A step keeps to its bounds -/

theorem ok_bind {α β : Type} (a : α) (k : α → Except Slip β) : (Except.ok a >>= k) = k a := rfl

/-- No more is split off a body than there is, or counted than is to come. -/
theorem guardedTake_eq (f : Framer) (left : Nat) (next : Nat → Phase) :
    guardedStep.guardedTake f left next = .ok (f.takeBody left next) := by
  have hleft : left - min left f.buffer.length = left - f.buffer.length := by omega
  rw [guardedStep.guardedTake, takeBody]
  split
  · rfl
  · simp only [splitTo_of_le (Nat.min_le_right _ _), countDown_of_le (Nat.min_le_left _ _), ok_bind]
    rw [← List.take_eq_take_min, ← List.drop_eq_drop_min, hleft]
    rfl

/-- **No step slips.** -/
theorem guardedStep_eq (f : Framer) : f.guardedStep = .ok f.step := by
  have hblock : blockEnd ≠ [] := List.cons_ne_nil _ _
  have hline : lineEnd ≠ [] := List.cons_ne_nil _ _
  cases hphase : f.phase with
  | header =>
    simp only [guardedStep, step, hphase, find?_eq_map_cut? hblock]
    cases hcut : cut? blockEnd f.buffer with
    | none => rfl
    | some cut =>
      obtain ⟨block, rest⟩ := cut
      simp only [Option.map_some]
      split
      · rfl
      · have hfront := splitTo_append (block ++ blockEnd) rest
        rw [← eq_append_of_cut? hcut, List.length_append] at hfront
        rw [show block.length + 4 = block.length + blockEnd.length from rfl, hfront, ok_bind]
        simp only [splitTo_append, ok_bind]
        cases headerOfBlock block <;> rfl
  | fixed left =>
    rw [step_of_fixed hphase, guardedStep, hphase]
    exact guardedTake_eq f left afterFixed
  | size =>
    simp only [guardedStep, step, hphase, find?_eq_map_cut? hline]
    cases hcut : cut? lineEnd f.buffer with
    | none => rfl
    | some cut =>
      obtain ⟨line, rest⟩ := cut
      have hsplit := splitTo_append line (lineEnd ++ rest)
      rw [← List.append_assoc, ← eq_append_of_cut? hcut] at hsplit
      simp only [Option.map_some, hsplit, ok_bind]
      rw [show 2 = lineEnd.length from rfl, advance_append, ok_bind]
      cases chunkSizeOfLine line with
      | error cause => rfl
      | ok n => cases n <;> rfl
  | chunk left =>
    rw [step_of_chunk hphase, guardedStep, hphase]
    exact guardedTake_eq f left afterChunk
  | chunkEnd =>
    simp only [guardedStep, step, hphase]
    rcases hbuffer : f.buffer with _ | ⟨a, _ | ⟨b, rest⟩⟩
    · rfl
    · rfl
    · have hsplit := splitTo_append [a, b] rest
      have hskip := advance_append [a, b] rest
      simp only [List.length_cons, List.length_nil, List.cons_append, List.nil_append]
        at hsplit hskip
      simp only [List.length_cons, hsplit, hskip, ok_bind]
      by_cases hend : [a, b] = lineEnd
      · rw [if_neg (by omega), if_pos hend, if_pos hend]
        rfl
      · rw [if_neg (by omega), if_neg hend, if_neg hend]
        rfl
  | trailer =>
    simp only [guardedStep, step, hphase, find?_eq_map_cut? hline]
    cases hcut : cut? lineEnd f.buffer with
    | none => rfl
    | some cut =>
      obtain ⟨line, rest⟩ := cut
      have hskip := advance_append (line ++ lineEnd) rest
      rw [← eq_append_of_cut? hcut, List.length_append] at hskip
      simp only [Option.map_some]
      rw [show line.length + 2 = line.length + lineEnd.length from rfl, hskip, ok_bind]
      cases line <;> rfl
  | last => rw [guardedStep, step, hphase]; rfl

/-! ## The rounds suffice -/

/-- What becomes of the steps up to the next frame, and of all steps. -/
inductive Extracts (f : Framer) : Except Malformed (Option Frame) → Framer → Prop where
  /-- There is a frame, and less to do. -/
  | frame {frame : Frame} {g : Framer} : g.measure < f.measure →
      f.drain = (g.drain.1.map (frame :: ·), g.drain.2) → Extracts f (.ok (some frame)) g
  /-- There is none. -/
  | done {g : Framer} : f.drain = (.ok [], g) → Extracts f (.ok none) g
  /-- A step fails. -/
  | failed {cause : Malformed} {g : Framer} : f.drain = (.error cause, g) →
      Extracts f (.error cause) g

/-- More rounds than the measure lead to the next frame. -/
theorem extracts_of_lt {n : Nat} (h : f.measure < n) :
    ∃ result g, extract n f = .ok (result, g) ∧ f.Extracts result g := by
  induction n generalizing f with
  | zero => exact absurd h (Nat.not_lt_zero _)
  | succ n ih =>
    rw [extract, guardedStep_eq, ok_bind]
    cases hs : f.step with
    | wait => exact ⟨_, _, rfl, .done (drain_of_wait hs)⟩
    | fail cause g => exact ⟨_, _, rfl, .failed (drain_of_fail hs)⟩
    | emit frame g =>
      exact ⟨_, _, rfl, .frame (measure_lt_of_next? (by rw [hs]; rfl)) (drain_of_emit hs)⟩
    | move g =>
      have hlt := measure_lt_of_next? (f := f) (g := g) (by rw [hs]; rfl)
      obtain ⟨result, g', hextract, hresult⟩ := ih (show g.measure < n by omega)
      refine ⟨result, g', hextract, ?_⟩
      have hdrain := drain_of_move hs
      cases hresult with
      | frame hless hg => exact .frame (hless.trans hlt) (hdrain.trans hg)
      | done hg => exact .done (hdrain.trans hg)
      | failed hg => exact .failed (hdrain.trans hg)

/-- More rounds than the measure, and as many for each frame, lead to the end. -/
theorem extractAll_eq {rounds n : Nat} (hrounds : f.measure < rounds) (hn : f.measure < n) :
    extractAll rounds n f = .ok f.drain := by
  induction n generalizing f with
  | zero => exact absurd hn (Nat.not_lt_zero _)
  | succ n ih =>
    obtain ⟨result, g, hextract, hresult⟩ := extracts_of_lt hrounds
    rw [extractAll, hextract, ok_bind]
    cases hresult with
    | frame hless hdrain =>
      have hrest := ih (hless.trans hrounds) (show g.measure < n by omega)
      simp only [hdrain, hrest, ok_bind]
      rfl
    | done hdrain =>
      rw [hdrain]
      rfl
    | failed hdrain =>
      rw [hdrain]
      rfl

theorem measure_extend_lt (f : Framer) (data : Bytes) :
    (f.extend data).measure < 2 * (f.buffer.length + data.length) + 3 := by
  have hweight := weight_le f.phase
  simp only [measure, extend, List.length_append]
  omega

/-! ## How many frames there can be -/

/-- The bytes that are buffered, and the end of the reply that has begun. -/
def due (f : Framer) : Nat :=
  f.buffer.length + if f.phase.isBegun then 1 else 0

theorem due_of_begun (h : f.phase.isBegun = true) : f.due = f.buffer.length + 1 := by
  rw [due, if_pos h]

theorem due_of_not_begun (h : f.phase.isBegun = false) : f.due = f.buffer.length := by
  rw [due, h]
  rfl

theorem due_le (f : Framer) : f.due ≤ f.buffer.length + 1 := by
  unfold due
  split <;> omega

/-- A frame uses up at least one of what is due. -/
theorem due_lt_of_emit {frame : Frame} (hcounts : f.phase.Counts) (h : f.step = .emit frame g) :
    g.due < f.due := by
  have hdoes := f.does_step
  rw [h] at hdoes
  cases hdoes with
  | @header block rest _ _ hphase hcut =>
    have hlen := congrArg List.length (eq_append_of_cut? hcut)
    simp only [List.length_append, blockEnd, List.length_cons, List.length_nil] at hlen
    rw [due_of_begun (isBegun_ofExtent _), due_of_not_begun (by rw [hphase]; rfl)]
    show rest.length + 1 < f.buffer.length
    omega
  | fixed hphase hbuffer =>
    have hpos := List.length_pos_iff.2 hbuffer
    rw [hphase] at hcounts
    have hleft := hcounts.1
    rw [due_of_begun (isBegun_afterFixed _), due_of_begun (by rw [hphase]; rfl), List.length_drop]
    omega
  | chunk hphase hbuffer =>
    have hpos := List.length_pos_iff.2 hbuffer
    rw [hphase] at hcounts
    have hleft := hcounts.1
    rw [due_of_begun (isBegun_afterChunk _), due_of_begun (by rw [hphase]; rfl), List.length_drop]
    omega
  | last hphase =>
    rw [due_of_not_begun rfl, due_of_begun (by rw [hphase]; rfl)]
    exact Nat.lt_succ_self _

/-- Moving on in silence adds nothing to what is due. -/
theorem due_le_of_move (h : f.step = .move g) : g.due ≤ f.due := by
  have hbegun := isBegun_of_move h
  have hdoes := f.does_step
  rw [h] at hdoes
  have hlen : g.buffer.length ≤ f.buffer.length := by
    cases hdoes with
    | size _ hcut => exact (length_lt_of_cut? (List.cons_ne_nil _ _) hcut).le
    | chunkEnd _ hbuffer => simp [hbuffer]
    | trailer _ hcut => exact (length_lt_of_cut? (List.cons_ne_nil _ _) hcut).le
  rw [due, due, hbegun]
  exact Nat.add_le_add_right hlen _

/-- There are no more frames than are due. -/
theorem Drains.length_le_due (h : f.Drains frames g) (hcounts : f.phase.Counts) :
    frames.length ≤ f.due := by
  induction h with
  | wait => exact Nat.zero_le _
  | move hs _ ih =>
    have hnext := (keeps_of_next? hcounts (by rw [hs]; rfl)).2
    exact (ih hnext).trans (due_le_of_move hs)
  | emit hs _ ih =>
    have hrest := ih (keeps_of_next? hcounts (by rw [hs]; rfl)).2
    have hlt := due_lt_of_emit hcounts hs
    rw [List.length_cons]
    omega

/-- **A push comes to its end within its bounds**, whatever has been done with the framer before.
No step slips, the rounds suffice, bytes that are still to come can be counted in 64 bits, and
there is at most one frame more than there are bytes. -/
theorem guardedPush_eq (limit : Nat) (uses : List Use) (data : Bytes) :
    let f := useAll { limit := limit } uses
    guardedPush (2 * (f.buffer.length + data.length) + 3) f data = .ok (f.push data) ∧
      (f.push data).2.phase.Counts ∧
      ∀ frames, (f.push data).1 = .ok frames →
        frames.length ≤ f.buffer.length + data.length + 1 := by
  intro f
  have hsound : f.Sound limit := sound_useAll limit uses
  have hmeasure := measure_extend_lt f data
  refine ⟨extractAll_eq hmeasure hmeasure, (hsound.use (.push data)).counts,
    fun frames hframes => ?_⟩
  have hdrains := drains_of_fst_eq_ok (f.extend data) frames hframes
  have hdue := hdrains.length_le_due hsound.counts
  have hle := due_le (f.extend data)
  simp only [extend, List.length_append] at hle
  exact hdue.trans hle

/-- Two bytes come of a body that is as long as can be told. -/
theorem guardedPush_eq_longest :
    let uses := [Use.push (Utf8.encode
      "HTTP/1.1 200 OK\r\nContent-Length: 18446744073709551615\r\n\r\n".toList)]
    let g : Framer := { limit := 64, phase := .fixed (2 ^ 64 - 3) }
    (useAll { limit := 64 } uses).push [97, 98] = (.ok [.content [97, 98]], g) ∧
      guardedPush 7 (useAll { limit := 64 } uses) [97, 98] = .ok (.ok [.content [97, 98]], g) ∧
      [Frame.content [97, 98]].length ≤ 3 := by
  intro uses g
  have hcut : cut? blockEnd (Utf8.encode
      "HTTP/1.1 200 OK\r\nContent-Length: 18446744073709551615\r\n\r\n".toList) =
      some (Utf8.encode "HTTP/1.1 200 OK\r\nContent-Length: 18446744073709551615".toList, []) := by
    decide +kernel
  have hblock : headerOfBlock (Utf8.encode
      "HTTP/1.1 200 OK\r\nContent-Length: 18446744073709551615".toList) =
      .ok (⟨200, "OK", [("Content-Length", "18446744073709551615")]⟩, .length (2 ^ 64 - 1)) := by
    decide +kernel
  have hhead : (extend { limit := 64 } (Utf8.encode
      "HTTP/1.1 200 OK\r\nContent-Length: 18446744073709551615\r\n\r\n".toList)).step =
      .emit (.header ⟨200, "OK", [("Content-Length", "18446744073709551615")]⟩)
        { limit := 64, phase := .fixed (2 ^ 64 - 1) } := by
    simp only [step, extend, List.nil_append, hcut, hblock]
    rfl
  have huses : useAll { limit := 64 } uses = { limit := 64, phase := .fixed (2 ^ 64 - 1) } := by
    show (drain (extend { limit := 64 } _)).2 = _
    rw [drain_of_emit hhead, drain_of_wait rfl]
  have hpush : (useAll { limit := 64 } uses).push [97, 98] = (.ok [.content [97, 98]], g) := by
    have hbody : ({ limit := 64, buffer := [97, 98], phase := .fixed (2 ^ 64 - 1) } : Framer).step =
        .emit (.content [97, 98]) g := rfl
    rw [huses, push_eq_drain]
    show drain { limit := 64, buffer := [97, 98], phase := .fixed (2 ^ 64 - 1) } = _
    rw [drain_of_emit hbody, drain_of_wait (show g.step = .wait from rfl)]
    rfl
  obtain ⟨hguarded, -, hframes⟩ := guardedPush_eq 64 uses [97, 98]
  have hlength := hframes _ (congrArg Prod.fst hpush)
  rw [hpush] at hguarded
  rw [huses] at hguarded hlength
  exact ⟨hpush, huses ▸ hguarded, hlength⟩

end Framer

end ClusterLink.Reply
