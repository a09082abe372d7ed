import ClusterLink.Reply.HeaderBlock

/-!
# From bytes to frames

A `Framer` gathers the bytes of a connection as they come, in pieces of any
size, and cuts them into frames as soon as it can. It accepts one reply after
another.

## The model

`step` looks at the phase and the buffered bytes and either emits a frame,
moves on in silence, waits for more bytes, or fails. `push` appends bytes and
takes steps until one waits or fails. A failure keeps the framer as the failing
step left it, so later bytes are read from there; the frames of the push that
failed are not returned.

Body bytes are handed on at once. Everything that ends with a mark is kept until
the mark has come, and `limit` bounds how long it may be without one.
-/

namespace ClusterLink.Reply

open Text

/-- What a framer expects next. -/
inductive Phase where
  /-- The header block of a reply. -/
  | header
  /-- `left` more bytes of a body of known length. -/
  | fixed (left : Nat)
  /-- The line that gives the size of a chunk. -/
  | size
  /-- `left` more bytes of a chunk. -/
  | chunk (left : Nat)
  /-- The line end behind a chunk. -/
  | chunkEnd
  /-- The lines behind the last chunk, up to an empty one. -/
  | trailer
  /-- Nothing: the reply is complete. -/
  | last
  deriving DecidableEq, Repr

/-- The phase in which a body begins. -/
def Phase.ofExtent : Extent → Phase
  | .length 0 => last
  | .length (n + 1) => fixed (n + 1)
  | .chunked => size
  | .empty => last

/-- The bytes of a connection that are not yet frames. -/
structure Framer where
  /-- The greatest length of a part that ends with a mark. -/
  limit : Nat
  /-- The bytes that have come and are not yet used. -/
  buffer : Bytes := []
  /-- What is expected next. -/
  phase : Phase := .header
  deriving DecidableEq, Repr

namespace Framer

/-- What one step comes to. -/
inductive Step where
  /-- A frame is complete. -/
  | emit (frame : Frame) (next : Framer)
  /-- Something is used up that is no frame. -/
  | move (next : Framer)
  /-- More bytes are needed. -/
  | wait
  /-- The bytes are no reply. -/
  | fail (cause : Malformed) (next : Framer)

/-- Waits for the end of a part, which must not be too long in coming. -/
def await (f : Framer) (part : Part) : Step :=
  if f.limit < f.buffer.length then .fail (.endless part f.limit) f else .wait

/-- Hands on body bytes, at most `left`; the phase after them depends on how many stay away. -/
def takeBody (f : Framer) (left : Nat) (next : Nat → Phase) : Step :=
  if f.buffer.isEmpty then .wait
  else
    .emit (.content (f.buffer.take left))
      { f with buffer := f.buffer.drop left, phase := next (left - f.buffer.length) }

/-- What a framer does next. -/
def step (f : Framer) : Step :=
  match f.phase with
  | .header =>
    match cut? blockEnd f.buffer with
    | none => f.await .headerBlock
    | some (block, rest) =>
      if f.limit < block.length then .fail (.longBlock block.length f.limit) f
      else
        match headerOfBlock block with
        | .error cause => .fail cause { f with buffer := rest }
        | .ok (header, extent) =>
          .emit (.header header) { f with buffer := rest, phase := .ofExtent extent }
  | .fixed left => f.takeBody left fun | 0 => .last | n + 1 => .fixed (n + 1)
  | .size =>
    match cut? lineEnd f.buffer with
    | none => f.await .chunkSizeLine
    | some (line, rest) =>
      match chunkSizeOfLine line with
      | .error cause => .fail cause { f with buffer := rest }
      | .ok 0 => .move { f with buffer := rest, phase := .trailer }
      | .ok (n + 1) => .move { f with buffer := rest, phase := .chunk (n + 1) }
  | .chunk left => f.takeBody left fun | 0 => .chunkEnd | n + 1 => .chunk (n + 1)
  | .chunkEnd =>
    match f.buffer with
    | a :: b :: rest =>
      if [a, b] = lineEnd then .move { f with buffer := rest, phase := .size }
      else .fail .chunkEnd f
    | _ => .wait
  | .trailer =>
    match cut? lineEnd f.buffer with
    | none => f.await .trailerLine
    | some ([], rest) => .move { f with buffer := rest, phase := .last }
    | some (_ :: _, rest) => .move { f with buffer := rest }
  | .last => .emit (.last []) { f with phase := .header }

/-- How far a phase is from waiting, apart from the bytes that it uses. -/
def weight : Phase → Nat
  | .fixed _ => 2
  | .chunk _ => 1
  | .last => 1
  | _ => 0

/-- What every step uses up. -/
def measure (f : Framer) : Nat :=
  2 * f.buffer.length + weight f.phase

/-- What a step leads to, if there is more to do. -/
def Step.next? : Step → Option Framer
  | .emit _ next => some next
  | .move next => some next
  | .wait => none
  | .fail _ _ => none

theorem weight_le (p : Phase) : weight p ≤ 2 := by
  cases p <;> simp [weight]

theorem next?_await (f : Framer) (part : Part) : (f.await part).next? = none := by
  unfold await
  split <;> rfl

/-- Handing on body bytes uses up the framer's measure. -/
theorem measure_takeBody_lt {f g : Framer} {left w : Nat} {next : Nat → Phase}
    (hw : weight f.phase = w + 1) (h0 : weight (next 0) ≤ w)
    (hn : ∀ n, weight (next n) ≤ w + 1) (h : (f.takeBody left next).next? = some g) :
    g.measure < f.measure := by
  unfold takeBody at h
  split at h
  · simp [Step.next?] at h
  · rename_i hb
    simp only [Step.next?, Option.some.injEq] at h
    subst h
    have hpos : 0 < f.buffer.length :=
      List.length_pos_iff.2 (by simpa using hb)
    simp only [measure, List.length_drop, hw]
    by_cases hl : left = 0
    · subst hl
      simp only [Nat.zero_sub]
      omega
    · have := hn (left - f.buffer.length)
      omega

theorem measure_lt_of_next? {f g : Framer} (h : f.step.next? = some g) :
    g.measure < f.measure := by
  unfold step at h
  split at h
  · rename_i hp
    split at h
    · simp [next?_await] at h
    · rename_i block rest hc
      have hlen := length_lt_of_cut? (by decide) hc
      have hcut := congrArg List.length (eq_append_of_cut? hc)
      simp only [List.length_append, blockEnd, List.length_cons, List.length_nil] at hcut
      split at h
      · simp [Step.next?] at h
      · split at h
        · simp [Step.next?] at h
        · rename_i header extent _
          simp only [Step.next?, Option.some.injEq] at h
          subst h
          have := weight_le (.ofExtent extent)
          simp only [measure, hp, weight] at *
          omega
  · rename_i left hp
    refine measure_takeBody_lt (w := 1) (by rw [hp]; rfl) (by simp [weight]) ?_ h
    intro n
    cases n <;> simp [weight]
  · rename_i hp
    split at h
    · simp [next?_await] at h
    · rename_i line rest hc
      have hcut := congrArg List.length (eq_append_of_cut? hc)
      simp only [List.length_append, lineEnd, List.length_cons, List.length_nil] at hcut
      split at h
      · simp [Step.next?] at h
      · simp only [Step.next?, Option.some.injEq] at h
        subst h
        simp only [measure, hp, weight]
        omega
      · simp only [Step.next?, Option.some.injEq] at h
        subst h
        simp only [measure, hp, weight]
        omega
  · rename_i left hp
    refine measure_takeBody_lt (w := 0) (by rw [hp]; rfl) (by simp [weight]) ?_ h
    intro n
    cases n <;> simp [weight]
  · rename_i hp
    split at h
    · rename_i a b rest hb
      split at h
      · simp only [Step.next?, Option.some.injEq] at h
        subst h
        simp only [measure, hp, hb, weight, List.length_cons]
        omega
      · simp [Step.next?] at h
    · simp [Step.next?] at h
  · rename_i hp
    split at h
    · simp [next?_await] at h
    · rename_i rest hc
      have hcut := congrArg List.length (eq_append_of_cut? hc)
      simp only [List.length_append, lineEnd, List.length_cons, List.length_nil] at hcut
      simp only [Step.next?, Option.some.injEq] at h
      subst h
      simp only [measure, hp, weight]
      omega
    · rename_i x line rest hc
      have hcut := congrArg List.length (eq_append_of_cut? hc)
      simp only [List.length_append, lineEnd, List.length_cons, List.length_nil] at hcut
      simp only [Step.next?, Option.some.injEq] at h
      subst h
      simp only [measure, hp, weight]
      omega
  · rename_i hp
    simp only [Step.next?, Option.some.injEq] at h
    subst h
    simp [measure, hp, weight]

/-- Takes steps until one waits or fails, with the frames already emitted, last one first. -/
def drainOnto (acc : List Frame) (f : Framer) : Except Malformed (List Frame) × Framer :=
  match h : f.step with
  | .wait => (.ok acc.reverse, f)
  | .fail cause next => (.error cause, next)
  | .move next =>
    have : next.measure < f.measure := measure_lt_of_next? (by rw [h]; rfl)
    drainOnto acc next
  | .emit frame next =>
    have : next.measure < f.measure := measure_lt_of_next? (by rw [h]; rfl)
    drainOnto (frame :: acc) next
termination_by f.measure

/-- Takes steps until one waits or fails. -/
def drain (f : Framer) : Except Malformed (List Frame) × Framer :=
  drainOnto [] f

/-- The frames that become complete with more bytes, or why there are none. -/
def push (f : Framer) (data : Bytes) : Except Malformed (List Frame) × Framer :=
  drain { f with buffer := f.buffer ++ data }

/-- Forgets everything that has come. -/
def clear (f : Framer) : Framer :=
  { limit := f.limit }

/-- Whether nothing of a reply has come. -/
def isIdle (f : Framer) : Bool :=
  f.phase == .header && f.buffer.isEmpty

/-! ## Draining by steps -/

/-- Frames already emitted stay in front. -/
theorem drainOnto_eq (acc : List Frame) (f : Framer) :
    drainOnto acc f = ((drain f).1.map (acc.reverse ++ ·), (drain f).2) := by
  unfold drain
  induction hn : f.measure using Nat.strongRecOn generalizing acc f with
  | ind n ih =>
    subst hn
    rw [drainOnto, drainOnto.eq_def [] f]
    split
    · simp [Except.map]
    · simp [Except.map]
    · rename_i next h
      have hlt := measure_lt_of_next? (f := f) (g := next) (by rw [h]; rfl)
      simpa using ih _ hlt acc next rfl
    · rename_i frame next h
      have hlt := measure_lt_of_next? (f := f) (g := next) (by rw [h]; rfl)
      rw [ih _ hlt (frame :: acc) next rfl, ih _ hlt [frame] next rfl]
      cases (drainOnto [] next).1 <;> simp [Except.map]

/-- Draining takes the first step and drains what it leads to. -/
theorem drain_eq (f : Framer) :
    f.drain = match f.step with
      | .wait => (.ok [], f)
      | .fail cause next => (.error cause, next)
      | .move next => next.drain
      | .emit frame next => (next.drain.1.map (frame :: ·), next.drain.2) := by
  rw [drain, drainOnto]
  split <;> rename_i h <;> simp only [h]
  · rfl
  · rfl
  · rw [drainOnto_eq]
    rfl

end Framer

end ClusterLink.Reply
