import ClusterLink.Proofs.Text.Cut
import ClusterLink.Proofs.Text.Finer
import ClusterLink.Reply.Framer

/-!
# Replies in pieces

The network cuts the bytes of a connection where it likes. Here it is shown that
this decides nothing but where the bodies are cut: bytes that a framer takes in
several pushes it takes in one, it ends in the same state, and the frames are the
same up to the places where a body was cut (`push_flatten`).

## The argument

Both runs take the same steps on the bytes before the first cut (`Drains`), because what
is appended moves no mark (`step_extend_of_move`, `step_extend_of_emit`). The only
difference arises where the cut falls into a body: the framer that sees more bytes
hands on in one piece what the other hands on in two, so its frames are cut less finely
(`Finer`). `Frame.merge` forgets that.
-/

namespace ClusterLink.Reply

open Text

namespace Frame

/-- A frame in front of others; a piece of a body is joined to the piece behind it. -/
def glue : Frame → List Frame → List Frame
  | content a, content b :: rest => content (a ++ b) :: rest
  | frame, rest => frame :: rest

/-- Frames with each run of neighbouring pieces of a body joined to one piece. -/
def merge (frames : List Frame) : List Frame :=
  frames.foldr glue []

@[simp] theorem merge_nil : merge [] = [] := rfl

@[simp] theorem merge_cons (frame : Frame) (rest : List Frame) :
    merge (frame :: rest) = frame.glue (merge rest) := rfl

/-- Two pieces in front count as one. -/
theorem glue_content_glue (a b : Bytes) (rest : List Frame) :
    (content a).glue ((content b).glue rest) = (content (a ++ b)).glue rest := by
  cases rest with
  | nil => rfl
  | cons frame rest => cases frame <;> simp [glue]

/-- Frames that merge alike still do so behind others. -/
theorem merge_append_congr {rest rest' : List Frame} (frames : List Frame)
    (h : merge rest = merge rest') : merge (frames ++ rest) = merge (frames ++ rest') := by
  rw [merge, merge, List.foldr_append, List.foldr_append]
  exact congrArg (frames.foldr glue) h

/-- Joining the pieces forgets where they were cut. -/
theorem merge_eq_of_finer {fine coarse : List Frame} (h : Finer content fine coarse) :
    merge coarse = merge fine := by
  induction h with
  | nil => rfl
  | cons frame _ ih => rw [merge_cons, merge_cons, ih]
  | cut a _ ih =>
    rw [merge_cons] at ih
    rw [merge_cons, merge_cons, ← ih, glue_content_glue]

end Frame

namespace Framer

/-- More bytes come. -/
def extend (f : Framer) (data : Bytes) : Framer :=
  { f with buffer := f.buffer ++ data }

/-- The frames that become complete with some pieces of more bytes, or why there are none. -/
def pushAll (f : Framer) : List Bytes → Except Malformed (List Frame) × Framer
  | [] => (.ok [], f)
  | piece :: rest =>
    match f.push piece with
    | (.error cause, f) => (.error cause, f)
    | (.ok frames, f) => ((f.pushAll rest).1.map (frames ++ ·), (f.pushAll rest).2)

@[simp] theorem extend_nil (f : Framer) : f.extend [] = f := by
  simp [extend]

theorem extend_extend (f : Framer) (a b : Bytes) : (f.extend a).extend b = f.extend (a ++ b) := by
  simp [extend]

theorem push_eq_drain (f : Framer) (data : Bytes) : f.push data = (f.extend data).drain := rfl

/-- Pieces are taken in one after another. -/
theorem pushAll_cons_eq_ok {f f' : Framer} {piece : Bytes} {rest : List Bytes}
    {frames : List Frame} (h : f.pushAll (piece :: rest) = (.ok frames, f')) :
    ∃ first g more, f.push piece = (.ok first, g) ∧ g.pushAll rest = (.ok more, f') ∧
      frames = first ++ more := by
  rw [pushAll] at h
  rcases hp : f.push piece with ⟨cause | first, g⟩
  · simp [hp] at h
  · rw [hp] at h
    rcases hr : g.pushAll rest with ⟨cause | more, g'⟩
    · simp [hr, Except.map] at h
    · simp only [hr, Except.map, Prod.mk.injEq, Except.ok.injEq] at h
      obtain ⟨rfl, rfl⟩ := h
      exact ⟨first, g, more, rfl, hr, rfl⟩

/-! ## A step on more bytes -/

/-- The phase after a part of a body of known length, by what is left of it. -/
def afterFixed : Nat → Phase
  | 0 => .last
  | n + 1 => .fixed (n + 1)

/-- The phase after a part of a chunk, by what is left of it. -/
def afterChunk : Nat → Phase
  | 0 => .chunkEnd
  | n + 1 => .chunk (n + 1)

theorem afterFixed_length {left : Bytes} (h : left ≠ []) :
    afterFixed left.length = .fixed left.length := by
  cases left with
  | nil => exact absurd rfl h
  | cons b left => rfl

theorem afterChunk_length {left : Bytes} (h : left ≠ []) :
    afterChunk left.length = .chunk left.length := by
  cases left with
  | nil => exact absurd rfl h
  | cons b left => rfl

theorem step_of_fixed {f : Framer} {left : Nat} (h : f.phase = .fixed left) :
    f.step = f.takeBody left afterFixed := by
  simp only [step, h]
  rfl

theorem step_of_chunk {f : Framer} {left : Nat} (h : f.phase = .chunk left) :
    f.step = f.takeBody left afterChunk := by
  simp only [step, h]
  rfl

theorem await_ne_move (f g : Framer) (part : Part) : f.await part ≠ .move g := by
  unfold await
  split <;> simp

theorem await_ne_emit (f g : Framer) (part : Part) (frame : Frame) :
    f.await part ≠ .emit frame g := by
  unfold await
  split <;> simp

/-- What moves on in silence does so on more bytes too. -/
theorem step_extend_of_move {f g : Framer} (h : f.step = .move g) (data : Bytes) :
    (f.extend data).step = .move (g.extend data) := by
  unfold step at h ⊢
  cases hp : f.phase with
  | header =>
    simp only [hp] at h
    split at h
    · exact absurd h (await_ne_move _ _ _)
    · split at h
      · cases h
      · split at h <;> cases h
  | fixed left =>
    simp only [hp, takeBody] at h
    split at h <;> cases h
  | size =>
    simp only [hp] at h
    split at h
    · exact absurd h (await_ne_move _ _ _)
    · rename_i line rest hc
      simp only [extend, hp, cut?_append hc data]
      cases hs : chunkSizeOfLine line with
      | error cause =>
        rw [hs] at h
        cases h
      | ok n =>
        rw [hs] at h
        cases n <;> cases h <;> rfl
  | chunk left =>
    simp only [hp, takeBody] at h
    split at h <;> cases h
  | chunkEnd =>
    simp only [hp] at h
    split at h
    · rename_i a b rest hb
      split at h
      · rename_i he
        cases h
        simp only [extend, hp, hb, List.cons_append, if_pos he]
      · cases h
    · cases h
  | trailer =>
    simp only [hp] at h
    split at h
    · exact absurd h (await_ne_move _ _ _)
    · rename_i rest hc
      cases h
      simp only [extend, hp, cut?_append hc data]
    · rename_i x line rest hc
      cases h
      simp only [extend, hp, cut?_append hc data]
  | last =>
    simp only [hp] at h
    cases h

/-- A body that is cut: it hands on `x` and waits, and with more bytes it hands on more at once. -/
structure CutsBody (f g : Framer) (x data : Bytes) : Prop where
  /-- Before more bytes come there is nothing to do. -/
  waits : g.step = .wait
  /-- The first step on more bytes hands on their beginning, or `x` and their beginning. -/
  joins : ∃ y g', (g.extend data).step = .emit (.content y) g' ∧
    (f.extend data).step = .emit (.content (x ++ y)) g'

/-- Handing on body bytes does not depend on more bytes, unless more of the body is to come. -/
theorem takeBody_extend {f g : Framer} {frame : Frame} {left : Nat} {next : Nat → Phase}
    (h : f.takeBody left next = .emit frame g) (data : Bytes)
    (hf : ∀ more, (f.extend more).step = (f.extend more).takeBody left next)
    (hn : ∀ n (g : Framer), g.phase = next (n + 1) → g.step = g.takeBody (n + 1) next) :
    (f.extend data).step = .emit frame (g.extend data) ∨
      ∃ x, frame = .content x ∧ CutsBody f g x data := by
  unfold takeBody at h
  split at h
  · cases h
  · rename_i hb
    cases h
    have hbe (more : Bytes) : (f.buffer ++ more).isEmpty = false := by
      simp only [List.isEmpty_iff] at hb
      simp [hb]
    by_cases hle : left ≤ f.buffer.length
    · -- the body is complete
      left
      rw [hf]
      simp only [takeBody, extend, hbe, Bool.false_eq_true, if_false,
        List.take_append_of_le_length hle, List.drop_append_of_le_length hle, List.length_append]
      rw [show left - (f.buffer.length + data.length) = left - f.buffer.length by omega]
    · obtain ⟨n, hn'⟩ : ∃ n, left - f.buffer.length = n + 1 :=
        ⟨left - f.buffer.length - 1, by omega⟩
      have htake : f.buffer.take left = f.buffer := List.take_of_length_le (by omega)
      have hdrop : f.buffer.drop left = [] := List.drop_of_length_le (by omega)
      by_cases hd : data = []
      · subst hd
        left
        have := hf []
        simp only [extend_nil] at this ⊢
        rw [this, takeBody, if_neg hb]
      · -- the cut falls into the body
        right
        refine ⟨f.buffer, by rw [htake], ?_, data.take (n + 1),
          { f with buffer := data.drop (n + 1), phase := next (n + 1 - data.length) }, ?_, ?_⟩
        · rw [hn n _ (by simp [hn']), takeBody, if_pos (by simp [hdrop])]
        · rw [hn n _ (by simp [extend, hn'])]
          simp only [takeBody, extend, hdrop, List.nil_append, List.isEmpty_iff, if_neg hd]
        · rw [hf]
          simp only [takeBody, extend, hbe, Bool.false_eq_true, if_false, List.take_append, htake,
            List.drop_append, hdrop, List.nil_append, List.length_append, hn']
          rw [show left - (f.buffer.length + data.length) = n + 1 - data.length by omega]

/-- What hands on a frame does so on more bytes too, unless a cut falls into a body. -/
theorem step_extend_of_emit {f g : Framer} {frame : Frame} (h : f.step = .emit frame g)
    (data : Bytes) :
    (f.extend data).step = .emit frame (g.extend data) ∨
      ∃ x, frame = .content x ∧ CutsBody f g x data := by
  cases hp : f.phase with
  | header =>
    left
    unfold step at h ⊢
    simp only [hp] at h
    split at h
    · exact absurd h (await_ne_emit _ _ _ _)
    · rename_i block rest hc
      simp only [extend, hp, cut?_append hc data]
      split at h
      · cases h
      · rename_i hl
        rw [if_neg hl]
        cases hh : headerOfBlock block with
        | error cause =>
          rw [hh] at h
          cases h
        | ok head =>
          rw [hh] at h
          cases h
          rfl
  | fixed left =>
    rw [step_of_fixed hp] at h
    exact takeBody_extend h data (fun more => step_of_fixed hp) fun n g hg => step_of_fixed hg
  | size =>
    unfold step at h
    simp only [hp] at h
    split at h
    · exact absurd h (await_ne_emit _ _ _ _)
    · split at h <;> cases h
  | chunk left =>
    rw [step_of_chunk hp] at h
    exact takeBody_extend h data (fun more => step_of_chunk hp) fun n g hg => step_of_chunk hg
  | chunkEnd =>
    unfold step at h
    simp only [hp] at h
    split at h
    · split at h <;> cases h
    · cases h
  | trailer =>
    unfold step at h
    simp only [hp] at h
    split at h
    · exact absurd h (await_ne_emit _ _ _ _)
    · cases h
    · cases h
  | last =>
    left
    unfold step at h ⊢
    simp only [hp] at h
    cases h
    simp only [extend, hp]

/-! ## Draining on more bytes -/

theorem drain_of_wait {f : Framer} (h : f.step = .wait) : f.drain = (.ok [], f) := by
  rw [drain_eq, h]

theorem drain_of_fail {f g : Framer} {cause : Malformed} (h : f.step = .fail cause g) :
    f.drain = (.error cause, g) := by
  rw [drain_eq, h]

theorem drain_of_move {f g : Framer} (h : f.step = .move g) : f.drain = g.drain := by
  rw [drain_eq, h]

theorem drain_of_emit {f g : Framer} {frame : Frame} (h : f.step = .emit frame g) :
    f.drain = (g.drain.1.map (frame :: ·), g.drain.2) := by
  rw [drain_eq, h]

theorem drain_of_emit_eq_ok {f g f' : Framer} {frame : Frame} {frames : List Frame}
    (h : f.step = .emit frame g) (hd : f.drain = (.ok frames, f')) :
    ∃ rest, frames = frame :: rest ∧ g.drain = (.ok rest, f') := by
  rw [drain_of_emit h] at hd
  rcases hg : g.drain with ⟨cause | rest, g'⟩
  · simp [hg, Except.map] at hd
  · simp only [hg, Except.map, Prod.mk.injEq, Except.ok.injEq] at hd
    obtain ⟨rfl, rfl⟩ := hd
    exact ⟨rest, rfl, rfl⟩

/-- What is true of a drain that waits or fails, and of one more step in front, is true of every
drain. -/
@[elab_as_elim]
theorem drain_induction {motive : Framer → Except Malformed (List Frame) × Framer → Prop}
    (wait : ∀ f, f.step = .wait → motive f (.ok [], f))
    (fail : ∀ f cause g, f.step = .fail cause g → motive f (.error cause, g))
    (move : ∀ f g, f.step = .move g → motive g g.drain → motive f g.drain)
    (emit : ∀ f frame g, f.step = .emit frame g → motive g g.drain →
      motive f (g.drain.1.map (frame :: ·), g.drain.2))
    (f : Framer) : motive f f.drain := by
  induction hm : f.measure using Nat.strongRecOn generalizing f with
  | ind m ih =>
    subst hm
    cases hs : f.step with
    | wait =>
      rw [drain_of_wait hs]
      exact wait f hs
    | fail cause g =>
      rw [drain_of_fail hs]
      exact fail f cause g hs
    | move g =>
      rw [drain_of_move hs]
      exact move f g hs (ih _ (measure_lt_of_next? (by rw [hs]; rfl)) g rfl)
    | emit frame g =>
      rw [drain_of_emit hs]
      exact emit f frame g hs (ih _ (measure_lt_of_next? (by rw [hs]; rfl)) g rfl)

/-- A framer drains without a fault. -/
inductive Drains : Framer → List Frame → Framer → Prop where
  /-- It waits. -/
  | wait {f : Framer} : f.step = .wait → Drains f [] f
  /-- It moves on. -/
  | move {f next g : Framer} {frames : List Frame} : f.step = .move next →
      Drains next frames g → Drains f frames g
  /-- It hands on a frame. -/
  | emit {f next g : Framer} {frame : Frame} {frames : List Frame} : f.step = .emit frame next →
      Drains next frames g → Drains f (frame :: frames) g

theorem drains_of_fst_eq_ok (f : Framer) :
    ∀ frames, f.drain.1 = .ok frames → f.Drains frames f.drain.2 := by
  induction f using drain_induction with
  | wait f hs =>
    rintro frames ⟨⟩
    exact .wait hs
  | fail => exact nofun
  | move f next hs ih => exact fun frames hframes => .move hs (ih frames hframes)
  | emit f frame next hs ih =>
    intro frames hframes
    cases hnext : next.drain.1 with
    | error cause =>
      rw [hnext] at hframes
      cases hframes
    | ok rest =>
      rw [hnext] at hframes
      cases hframes
      exact .emit hs (ih rest hnext)

theorem drains_of_drain {f g : Framer} {frames : List Frame} (h : f.drain = (.ok frames, g)) :
    f.Drains frames g := by
  have hdrains := f.drains_of_fst_eq_ok frames (congrArg Prod.fst h)
  rwa [h] at hdrains

/-- A framer that waits hands on nothing and stays as it is. -/
theorem Drains.of_wait {f g : Framer} {frames : List Frame} (h : f.Drains frames g)
    (hwait : f.step = .wait) : frames = [] ∧ g = f := by
  cases h with
  | wait => exact ⟨rfl, rfl⟩
  | move hs => cases hwait.symm.trans hs
  | emit hs => cases hwait.symm.trans hs

/-- Where the framer stops on some bytes and goes on with more, it gets through at once, with the
same frames but that a body may be cut once less. -/
theorem drain_extend {f g f' : Framer} {first more : List Frame} {data : Bytes}
    (hf : f.drain = (.ok first, g)) (hg : (g.extend data).drain = (.ok more, f')) :
    ∃ frames, (f.extend data).drain = (.ok frames, f') ∧
      Finer Frame.content (first ++ more) frames := by
  replace hf := drains_of_drain hf
  induction hf with
  | wait => exact ⟨more, hg, .refl _ _⟩
  | move hs _ ih =>
    obtain ⟨frames, hframes, hfiner⟩ := ih hg
    exact ⟨frames, by rw [drain_of_move (step_extend_of_move hs data), hframes], hfiner⟩
  | emit hs hrest ih =>
    rcases step_extend_of_emit hs data with hs' | ⟨x, rfl, hwait, y, next', hy, hxy⟩
    · obtain ⟨frames, hframes, hfiner⟩ := ih hg
      exact ⟨_, by rw [drain_of_emit hs', hframes]; rfl, .cons _ hfiner⟩
    · obtain ⟨rfl, rfl⟩ := hrest.of_wait hwait
      obtain ⟨frames, rfl, hframes⟩ := drain_of_emit_eq_ok hy hg
      exact ⟨.content (x ++ y) :: frames, by rw [drain_of_emit hxy, hframes]; rfl,
        .cut x (.refl _ _)⟩

theorem push_append_finer {f g f' : Framer} {a b : Bytes} {first more : List Frame}
    (ha : f.push a = (.ok first, g)) (hb : g.push b = (.ok more, f')) :
    ∃ frames, f.push (a ++ b) = (.ok frames, f') ∧
      Finer Frame.content (first ++ more) frames := by
  rw [push_eq_drain] at ha hb
  rw [push_eq_drain, ← extend_extend]
  exact drain_extend ha hb

theorem push_append {f g f' : Framer} {a b : Bytes} {first more : List Frame}
    (ha : f.push a = (.ok first, g)) (hb : g.push b = (.ok more, f')) :
    ∃ frames, f.push (a ++ b) = (.ok frames, f') ∧
      Frame.merge frames = Frame.merge (first ++ more) := by
  obtain ⟨frames, hframes, hfiner⟩ := push_append_finer ha hb
  exact ⟨frames, hframes, Frame.merge_eq_of_finer hfiner⟩

/-- **Bytes that are taken in one piece after another are taken in at once**, and the framer ends
in the same state with the same frames, up to where bodies are cut: for two pieces, and for any
number of them. -/
theorem push_flatten (f : Framer) :
    (∀ a b first more g f', f.push a = (.ok first, g) → g.push b = (.ok more, f') →
      ∃ frames, f.push (a ++ b) = (.ok frames, f') ∧
        Frame.merge frames = Frame.merge (first ++ more)) ∧
    ∀ pieces frames f', pieces ≠ [] → f.pushAll pieces = (.ok frames, f') →
      ∃ whole, f.push pieces.flatten = (.ok whole, f') ∧
        Frame.merge whole = Frame.merge frames := by
  refine ⟨fun a b first more g f' => push_append, fun pieces => ?_⟩
  induction pieces generalizing f with
  | nil => exact fun _ _ h => absurd rfl h
  | cons piece rest ih =>
    intro frames f' _ h
    obtain ⟨first, g, more, hpiece, hrest, rfl⟩ := pushAll_cons_eq_ok h
    by_cases hne : rest = []
    · subst hne
      simp only [pushAll, Prod.mk.injEq, Except.ok.injEq] at hrest
      obtain ⟨rfl, rfl⟩ := hrest
      exact ⟨first, by simpa using hpiece, by simp⟩
    · obtain ⟨later, hlater, hmerge⟩ := ih g more f' hne hrest
      obtain ⟨whole, hwhole, hmerge'⟩ := push_append hpiece hlater
      exact ⟨whole, by simpa using hwhole, hmerge'.trans (Frame.merge_append_congr first hmerge)⟩

/-- The cut falls into a body of three bytes. -/
theorem push_flatten_body :
    ({ limit := 8, phase := .fixed 3 } : Framer).pushAll [[65], [66, 67]] =
        (.ok [.content [65], .content [66, 67], .last []], { limit := 8 }) ∧
      ({ limit := 8, phase := .fixed 3 } : Framer).push [65, 66, 67] =
        (.ok [.content [65, 66, 67], .last []], { limit := 8 }) ∧
      ∃ whole, ({ limit := 8, phase := .fixed 3 } : Framer).push [65, 66, 67] =
          (.ok whole, { limit := 8 }) ∧
        Frame.merge whole = Frame.merge [.content [65], .content [66, 67], .last []] := by
  have hend : ({ limit := 8, phase := .last } : Framer).drain =
      (.ok [.last []], { limit := 8 }) := by
    rw [drain_of_emit (show Framer.step _ = .emit (.last []) { limit := 8 } from rfl),
      drain_of_wait rfl]
    rfl
  have h1 : ({ limit := 8, phase := .fixed 3 } : Framer).push [65] =
      (.ok [.content [65]], { limit := 8, phase := .fixed 2 }) := by
    rw [push_eq_drain, drain_of_emit (show Framer.step _ =
      .emit (.content [65]) { limit := 8, phase := .fixed 2 } from rfl), drain_of_wait rfl]
    rfl
  have h2 : ({ limit := 8, phase := .fixed 2 } : Framer).push [66, 67] =
      (.ok [.content [66, 67], .last []], { limit := 8 }) := by
    rw [push_eq_drain, drain_of_emit (show Framer.step _ =
      .emit (.content [66, 67]) { limit := 8, phase := .last } from rfl), hend]
    rfl
  have h3 : ({ limit := 8, phase := .fixed 3 } : Framer).push [65, 66, 67] =
      (.ok [.content [65, 66, 67], .last []], { limit := 8 }) := by
    rw [push_eq_drain, drain_of_emit (show Framer.step _ =
      .emit (.content [65, 66, 67]) { limit := 8, phase := .last } from rfl), hend]
    rfl
  have h4 : ({ limit := 8, phase := .fixed 3 } : Framer).pushAll [[65], [66, 67]] =
      (.ok [.content [65], .content [66, 67], .last []], { limit := 8 }) := by
    simp [pushAll, h1, h2, Except.map]
  exact ⟨h4, h3, (push_flatten _).2 [[65], [66, 67]] _ _ (by simp) h4⟩

end Framer

end ClusterLink.Reply
