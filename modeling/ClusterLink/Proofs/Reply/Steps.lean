import ClusterLink.Proofs.Reply.Ahead
import ClusterLink.Proofs.Reply.Limit

/-!
# What a framer does next

`Framer.Does f step` lists, phase by phase, what a framer can find in its buffer and
what it then does. It is just what `step` computes (`does_step`), and it is what
proofs about all steps go by.

The first of these proofs is here: a framer hands on frames in turn, the head of a
reply, pieces of its body and its end, and begins no reply before the last one has
ended (`inTurn_of_drain`).
-/

namespace ClusterLink.Reply

open Text

namespace Framer

/-- What a framer finds, and what it then does. -/
inductive Does (f : Framer) : Step → Prop where
  /-- A header block, within the limit, that tells how the body ends. -/
  | header {block rest : Bytes} {head : Header} {extent : Extent} : f.phase = .header →
      cut? blockEnd f.buffer = some (block, rest) → block.length ≤ f.limit →
      headerOfBlock block = .ok (head, extent) →
      Does f (.emit (.header head) { f with buffer := rest, phase := .ofExtent extent })
  /-- A part of a body of known length. -/
  | fixed {left : Nat} : f.phase = .fixed left → f.buffer ≠ [] →
      Does f (.emit (.content (f.buffer.take left))
        { f with buffer := f.buffer.drop left, phase := afterFixed (left - f.buffer.length) })
  /-- A line that tells the size of a chunk. -/
  | size {line rest : Bytes} {n : Nat} : f.phase = .size →
      cut? lineEnd f.buffer = some (line, rest) → chunkSizeOfLine line = .ok n →
      Does f (.move { f with buffer := rest, phase := afterSize n })
  /-- A part of a chunk. -/
  | chunk {left : Nat} : f.phase = .chunk left → f.buffer ≠ [] →
      Does f (.emit (.content (f.buffer.take left))
        { f with buffer := f.buffer.drop left, phase := afterChunk (left - f.buffer.length) })
  /-- The line end behind a chunk. -/
  | chunkEnd {rest : Bytes} : f.phase = .chunkEnd → f.buffer = lineEnd ++ rest →
      Does f (.move { f with buffer := rest, phase := .size })
  /-- A line behind the last chunk. -/
  | trailer {line rest : Bytes} : f.phase = .trailer →
      cut? lineEnd f.buffer = some (line, rest) →
      Does f (.move { f with buffer := rest, phase := afterTrailer line })
  /-- Nothing is left of the reply. -/
  | last : f.phase = .last → Does f (.emit (.last []) { f with phase := .header })
  /-- The beginning of a part that ends with a mark. -/
  | awaitMark {part : Part} {mark : Bytes} : f.phase.part? = some (part, mark) →
      cut? mark f.buffer = none → f.buffer.length ≤ f.limit → Does f .wait
  /-- Nothing of the body. -/
  | awaitBody {left : Nat} : f.phase = .fixed left ∨ f.phase = .chunk left → f.buffer = [] →
      Does f .wait
  /-- Less than a line end behind a chunk. -/
  | awaitEnd : f.phase = .chunkEnd → f.buffer.length < 2 → Does f .wait
  /-- More bytes than the limit, and the mark of the part is not among them. -/
  | endless {part : Part} {mark : Bytes} : f.phase.part? = some (part, mark) →
      cut? mark f.buffer = none → f.limit < f.buffer.length →
      Does f (.fail (.endless part f.limit) f)
  /-- A header block that is too long. -/
  | longBlock {block rest : Bytes} : f.phase = .header →
      cut? blockEnd f.buffer = some (block, rest) → f.limit < block.length →
      Does f (.fail (.longBlock block.length f.limit) f)
  /-- A header block that cannot be read. -/
  | badBlock {block rest : Bytes} {cause : Malformed} : f.phase = .header →
      cut? blockEnd f.buffer = some (block, rest) → headerOfBlock block = .error cause →
      Does f (.fail cause { f with buffer := rest })
  /-- A line that tells no size. -/
  | badSize {line rest : Bytes} {cause : Malformed} : f.phase = .size →
      cut? lineEnd f.buffer = some (line, rest) → chunkSizeOfLine line = .error cause →
      Does f (.fail cause { f with buffer := rest })
  /-- Something else than the line end behind a chunk. -/
  | badEnd : f.phase = .chunkEnd → Does f (.fail .chunkEnd f)

theorem Does.await {f : Framer} {part : Part} {mark : Bytes}
    (hpart : f.phase.part? = some (part, mark)) (hcut : cut? mark f.buffer = none) :
    f.Does (f.await part) := by
  unfold Framer.await
  split
  · rename_i hlong
    exact .endless hpart hcut hlong
  · rename_i hshort
    exact .awaitMark hpart hcut (Nat.not_lt.1 hshort)

/-- A framer in a body waits if nothing has come, and hands on what has come if something has. -/
theorem takeBody_cases (f : Framer) (left : Nat) (next : Nat → Phase) :
    f.buffer = [] ∧ f.takeBody left next = .wait ∨
      f.buffer ≠ [] ∧ f.takeBody left next = .emit (.content (f.buffer.take left))
        { f with buffer := f.buffer.drop left, phase := next (left - f.buffer.length) } := by
  rw [takeBody]
  by_cases h : f.buffer = []
  · exact .inl ⟨h, if_pos (by simp [h])⟩
  · exact .inr ⟨h, if_neg (by simp [h])⟩

/-- Every step is one of those listed. -/
theorem does_step (f : Framer) : f.Does f.step := by
  obtain ⟨limit, buffer, phase⟩ := f
  cases phase with
  | header =>
    simp only [step]
    split
    · exact .await rfl ‹_›
    · rename_i block rest hcut
      split
      · exact .longBlock rfl hcut ‹_›
      · rename_i hlimit
        split
        · exact .badBlock rfl hcut ‹_›
        · exact .header rfl hcut (Nat.not_lt.1 hlimit) ‹_›
  | fixed left =>
    rw [step_of_fixed rfl]
    rcases takeBody_cases ⟨limit, buffer, .fixed left⟩ left afterFixed with
      ⟨hbuffer, htake⟩ | ⟨hbuffer, htake⟩
    · rw [htake]
      exact .awaitBody (.inl rfl) hbuffer
    · rw [htake]
      exact .fixed rfl hbuffer
  | size =>
    simp only [step]
    split
    · exact .await rfl ‹_›
    · rename_i line rest hcut
      split
      · exact .badSize rfl hcut ‹_›
      · exact .size (n := 0) rfl hcut ‹_›
      · rename_i n _
        exact .size (n := n + 1) rfl hcut ‹_›
  | chunk left =>
    rw [step_of_chunk rfl]
    rcases takeBody_cases ⟨limit, buffer, .chunk left⟩ left afterChunk with
      ⟨hbuffer, htake⟩ | ⟨hbuffer, htake⟩
    · rw [htake]
      exact .awaitBody (.inr rfl) hbuffer
    · rw [htake]
      exact .chunk rfl hbuffer
  | chunkEnd =>
    simp only [step]
    split
    · rename_i a b rest
      split
      · rename_i hend
        exact .chunkEnd rfl (congrArg (· ++ rest) hend)
      · exact .badEnd rfl
    · rename_i hshort
      refine .awaitEnd rfl ?_
      rcases buffer with _ | ⟨a, _ | ⟨b, rest⟩⟩
      · exact Nat.succ_pos 1
      · exact Nat.lt_succ_self 1
      · exact absurd rfl (hshort a b rest)
  | trailer =>
    simp only [step]
    split
    · exact .await rfl ‹_›
    · exact @Does.trailer _ [] _ rfl ‹_›
    · exact @Does.trailer _ (_ :: _) _ rfl ‹_›
  | last =>
    simp only [step]
    exact .last rfl

/-! ## Frames in turn -/

end Framer

/-- Whether a reply has begun when a phase is reached. -/
def Phase.isBegun : Phase → Bool
  | header => false
  | _ => true

/-- A frame takes its turn, between two points at which a reply has begun or has not. -/
inductive Frame.Turns : Bool → Frame → Bool → Prop where
  /-- A reply begins. -/
  | header {head : Header} : Turns false (.header head) true
  /-- It goes on. -/
  | content {bytes : Bytes} : Turns true (.content bytes) true
  /-- It ends. -/
  | last : Turns true (.last []) false

/-- Frames take their turns one after another. -/
inductive InTurn : Bool → List Frame → Bool → Prop where
  /-- There are none. -/
  | nil {begun : Bool} : InTurn begun [] begun
  /-- One comes in front of others. -/
  | cons {begun next done : Bool} {frame : Frame} {rest : List Frame} :
      frame.Turns begun next → InTurn next rest done → InTurn begun (frame :: rest) done

namespace Framer

variable {f g : Framer} {frame : Frame} {frames : List Frame}

@[simp] theorem isBegun_ofExtent (extent : Extent) : (Phase.ofExtent extent).isBegun = true := by
  cases extent with
  | length n => cases n <;> rfl
  | chunked => rfl
  | empty => rfl

@[simp] theorem isBegun_afterFixed (n : Nat) : (afterFixed n).isBegun = true := by
  cases n <;> rfl

@[simp] theorem isBegun_afterChunk (n : Nat) : (afterChunk n).isBegun = true := by
  cases n <;> rfl

@[simp] theorem isBegun_afterSize (n : Nat) : (afterSize n).isBegun = true := by
  cases n <;> rfl

@[simp] theorem isBegun_afterTrailer (line : Bytes) : (afterTrailer line).isBegun = true := by
  cases line <;> rfl

/-- A frame that is handed on takes its turn. -/
theorem turns_of_emit (h : f.step = .emit frame g) :
    frame.Turns f.phase.isBegun g.phase.isBegun := by
  have hdoes := f.does_step
  rw [h] at hdoes
  cases hdoes with
  | header hphase =>
    rw [hphase, isBegun_ofExtent]
    exact .header
  | fixed hphase =>
    rw [hphase, isBegun_afterFixed]
    exact .content
  | chunk hphase =>
    rw [hphase, isBegun_afterChunk]
    exact .content
  | last hphase =>
    rw [hphase]
    exact .last

/-- Moving on in silence neither begins a reply nor ends one. -/
theorem isBegun_of_move (h : f.step = .move g) : g.phase.isBegun = f.phase.isBegun := by
  have hdoes := f.does_step
  rw [h] at hdoes
  cases hdoes with
  | size hphase =>
    rw [hphase]
    exact isBegun_afterSize _
  | chunkEnd hphase =>
    rw [hphase]
    rfl
  | trailer hphase =>
    rw [hphase]
    exact isBegun_afterTrailer _

/-- The frames that a framer hands on are in turn. -/
theorem inTurn_of_drain (h : f.drain = (.ok frames, g)) :
    InTurn f.phase.isBegun frames g.phase.isBegun := by
  replace h := drains_of_drain h
  induction h with
  | wait => exact .nil
  | move hs _ ih => rwa [isBegun_of_move hs] at ih
  | emit hs _ ih => exact .cons (turns_of_emit hs) ih

end Framer

end ClusterLink.Reply
