import ClusterLink.Proofs.Reply.Steps

/-!
# What stands behind whole replies

Bytes that end with a reply may be taken in together with others that stand behind
them. A framer then does what it would do if the others came later: when it has handed
on the replies it is as good as new, so it hands on what a new framer makes of the
others, or fails as a new framer fails on them (`OnTrack.drain_behind`). If it fails
the frames of the replies are lost too.
-/

namespace ClusterLink.Reply

variable {f g : Framer} {data : Bytes}

namespace Framer

/-- Between two replies no piece of a body is handed on. -/
theorem not_content_of_header {part : Bytes} (hphase : f.phase = .header) :
    f.step ≠ .emit (.content part) g := by
  intro h
  have hturns := turns_of_emit h
  rw [hphase] at hturns
  cases hturns

/-- Where a framer stops between two replies it goes on with more bytes as if they came later. -/
theorem drain_extend_of_header {first : List Frame} (hf : f.drain = (.ok first, g))
    (hphase : g.phase = .header) (data : Bytes) :
    (f.extend data).drain =
      ((g.extend data).drain.1.map (first ++ ·), (g.extend data).drain.2) := by
  replace hf := drains_of_drain hf
  induction hf with
  | @wait g =>
    rcases (g.extend data).drain with ⟨cause | frames, g'⟩
    · rfl
    · rfl
  | move hs _ ih => rw [drain_of_move (step_extend_of_move hs data), ih hphase]
  | @emit f next g frame rest hs hrest ih =>
    rcases step_extend_of_emit hs data with hs' | ⟨x, rfl, hwait, y, next', hy, -⟩
    · rw [drain_of_emit hs', ih hphase]
      rcases (g.extend data).drain with ⟨cause | frames, g'⟩
      · rfl
      · rfl
    · -- the framer would wait within a body
      obtain ⟨-, rfl⟩ := hrest.of_wait hwait
      exact absurd hy (not_content_of_header hphase)

end Framer

variable {limit : Nat} {wire : Bytes} {owed : List Frame}

/-- Frames that merge to nothing are none. -/
theorem Frame.eq_nil_of_merge {frames : List Frame} (h : Frame.merge frames = []) :
    frames = [] := by
  rcases frames with _ | ⟨frame, rest⟩
  · rfl
  · rw [Frame.merge_cons] at h
    cases frame with
    | header head => cases h
    | last bytes => cases h
    | content bytes =>
      rcases hrest : Frame.merge rest with _ | ⟨next, more⟩
      · rw [hrest] at h
        cases h
      · rw [hrest] at h
        cases next <;> cases h

/-- Where no frames lie ahead, no bytes do. -/
theorem Ahead.eq_nil {phase : Phase} {bytes : Bytes} (h : Ahead limit phase bytes []) :
    phase = .header ∧ bytes = [] := by
  generalize hframes : ([] : List Frame) = frames at h
  induction h with
  | done => exact ⟨rfl, rfl⟩
  | header => cases hframes
  | fixed => cases hframes
  | chunk => cases hframes
  | last => cases hframes
  | @size line rest n _ _ _ _ ih =>
    obtain ⟨hphase, -⟩ := ih hframes
    cases n <;> cases hphase
  | chunkEnd _ ih =>
    obtain ⟨hphase, -⟩ := ih hframes
    cases hphase
  | @trailer line rest _ _ _ ih =>
    obtain ⟨hphase, -⟩ := ih hframes
    cases line <;> cases hphase

/-- Bytes that end with a reply are taken in with others as if the others came to a new framer. -/
theorem OnTrack.drain_behind (h : OnTrack limit f wire owed) (data : Bytes) :
    ∃ first, Frame.merge first = Frame.merge owed ∧
      f.push (wire ++ data) =
        ((({ limit := limit } : Framer).push data).1.map (first ++ ·),
          (({ limit := limit } : Framer).push data).2) := by
  have hwhole : OnTrack limit (f.extend wire) [] owed :=
    ⟨h.limit_eq, by simpa [Framer.extend] using h.ahead⟩
  obtain ⟨first, g, rest, hdrain, hwait, htrack, hmerge⟩ := hwhole.drain
  obtain ⟨hidle, rfl⟩ : g.isIdle = true ∧ rest = [] := by
    cases htrack.next with
    | wait _ hend => exact hend rfl
    | move hs _ => cases hwait.symm.trans hs
    | emit hs _ _ => cases hwait.symm.trans hs
  obtain ⟨hphase, hbuffer⟩ : g.phase = .header ∧ g.buffer = [] := by
    simpa [Framer.isIdle] using hidle
  have hg : g = { limit := limit } := by
    obtain ⟨limit', buffer, phase⟩ := g
    cases hphase
    cases hbuffer
    have hlimit : limit' = limit := htrack.limit_eq
    rw [hlimit]
  refine ⟨first, by simpa using hmerge.symm, ?_⟩
  rw [Framer.push_eq_drain, ← Framer.extend_extend,
    Framer.drain_extend_of_header hdrain hphase, hg]
  rfl

end ClusterLink.Reply
