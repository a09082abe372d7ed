import ClusterLink.Proofs.Reply.Received
import ClusterLink.Proofs.Text.Numeral

/-!
# Where a framer comes to rest

Between two pushes a framer waits for more bytes. Here it is shown what it holds
meanwhile, whatever has been pushed before and whether or not that was accepted: no more
bytes than the limit, or a single one where the limit is none; nothing of a body, of
which at least one byte is still to come; and nothing from which a frame could be made
(`Framer.push_atRest`).

## The argument

A framer that waits is in one of three situations (`Framer.does_step`), and of these
everything follows but that a body still has bytes to come. For that it has to be known
how the framer has come there. A count of bytes to come begins with a length that has
been read and is left behind when it is used up (`Phase.Counts`), every step keeps this,
and neither a push that fails nor `clear` leaves it (`Framer.Sound`).
-/

namespace ClusterLink.Reply

open Text

/-- Bytes that are to come are more than none, and so many that 64 bits can count them. -/
def Phase.Counts : Phase → Prop
  | fixed left => 0 < left ∧ left < UInt64.size
  | chunk left => 0 < left ∧ left < UInt64.size
  | _ => True

namespace Framer

variable {f g : Framer} {frames : List Frame}

/-! ## Counts of bytes to come -/

/-- A length that a header block tells can be counted. -/
theorem counts_ofExtent {block : Bytes} {head : Header} {extent : Extent}
    (h : headerOfBlock block = .ok (head, extent)) : (Phase.ofExtent extent).Counts := by
  cases toldBy_of_headerOfBlock h with
  | chunked => trivial
  | empty => trivial
  | @length _ _ _ n _ _ hread =>
    cases n with
    | zero => trivial
    | succ n => exact ⟨n.succ_pos, ((Numeral.read?_eq_some_iff (by decide) (by decide)).1 hread).2⟩

/-- The size of a chunk can be counted. -/
theorem counts_afterSize {line : Bytes} {n : Nat} (h : chunkSizeOfLine line = .ok n) :
    (afterSize n).Counts := by
  cases n with
  | zero => trivial
  | succ n =>
    unfold chunkSizeOfLine at h
    split at h
    · cases h
    · dsimp only at h
      split at h
      · rename_i hread
        cases h
        exact ⟨n.succ_pos, ((Numeral.read?_eq_some_iff (by decide) (by decide)).1 hread).2⟩
      · cases h

theorem counts_afterFixed {n : Nat} (h : n < UInt64.size) : (afterFixed n).Counts := by
  cases n with
  | zero => trivial
  | succ n => exact ⟨n.succ_pos, h⟩

theorem counts_afterChunk {n : Nat} (h : n < UInt64.size) : (afterChunk n).Counts := by
  cases n with
  | zero => trivial
  | succ n => exact ⟨n.succ_pos, h⟩

/-- A framer with this limit whose counts can be counted, and which has not left the end of a reply
for later. -/
structure Sound (limit : Nat) (f : Framer) : Prop where
  /-- It has this limit. -/
  limit_eq : f.limit = limit
  /-- At least one byte is to come of a body. -/
  counts : f.phase.Counts
  /-- The end of a reply is not left for later. -/
  not_last : f.phase ≠ .last

/-- Steps keep the limit and count down. -/
theorem keeps_of_next? (hcounts : f.phase.Counts) (h : f.step.next? = some g) :
    g.limit = f.limit ∧ g.phase.Counts := by
  have hdoes := f.does_step
  generalize f.step = step at hdoes h
  cases hdoes with
  | header _ _ _ hhead =>
    obtain rfl := Option.some.inj h
    exact ⟨rfl, counts_ofExtent hhead⟩
  | fixed hphase =>
    obtain rfl := Option.some.inj h
    rw [hphase] at hcounts
    exact ⟨rfl, counts_afterFixed (Nat.lt_of_le_of_lt (Nat.sub_le _ _) hcounts.2)⟩
  | size _ _ hsize =>
    obtain rfl := Option.some.inj h
    exact ⟨rfl, counts_afterSize hsize⟩
  | chunk hphase =>
    obtain rfl := Option.some.inj h
    rw [hphase] at hcounts
    exact ⟨rfl, counts_afterChunk (Nat.lt_of_le_of_lt (Nat.sub_le _ _) hcounts.2)⟩
  | chunkEnd =>
    obtain rfl := Option.some.inj h
    exact ⟨rfl, trivial⟩
  | @trailer line =>
    obtain rfl := Option.some.inj h
    cases line <;> exact ⟨rfl, trivial⟩
  | last =>
    obtain rfl := Option.some.inj h
    exact ⟨rfl, trivial⟩
  | _ => cases h

/-- A step that fails leaves the framer in the phase in which it was. -/
theorem sound_of_fail {cause : Malformed} (hcounts : f.phase.Counts)
    (h : f.step = .fail cause g) : g.Sound f.limit := by
  have hdoes := f.does_step
  rw [h] at hdoes
  cases hdoes with
  | @endless part mark hpart =>
    refine ⟨rfl, hcounts, fun hlast => ?_⟩
    rw [hlast] at hpart
    cases hpart
  | longBlock hphase => exact ⟨rfl, hcounts, by rw [hphase]; exact nofun⟩
  | badBlock hphase => exact ⟨rfl, hcounts, by rw [hphase]; exact nofun⟩
  | badSize hphase => exact ⟨rfl, hcounts, by rw [hphase]; exact nofun⟩
  | badEnd hphase => exact ⟨rfl, hcounts, by rw [hphase]; exact nofun⟩

/-- A framer that waits has nothing of a body, and of anything else no more than it may have. -/
theorem bounded_of_wait (h : f.step = .wait) :
    f.buffer.length ≤ max f.limit 1 ∧
      (∀ left, f.phase = .fixed left ∨ f.phase = .chunk left → f.buffer = []) ∧
      f.phase ≠ .last := by
  have hdoes := f.does_step
  rw [h] at hdoes
  cases hdoes with
  | @awaitMark part mark hpart _ hlen =>
    refine ⟨Nat.le_trans hlen (Nat.le_max_left _ _), fun left hbody => ?_, fun hlast => ?_⟩
    · rcases hbody with hbody | hbody
      all_goals
        rw [hbody] at hpart
        cases hpart
    · rw [hlast] at hpart
      cases hpart
  | awaitBody hbody hbuffer =>
    refine ⟨by rw [hbuffer]; exact Nat.zero_le _, fun _ _ => hbuffer, fun hlast => ?_⟩
    rw [hlast] at hbody
    rcases hbody with hbody | hbody <;> cases hbody
  | awaitEnd hphase hlen =>
    refine ⟨Nat.le_trans (Nat.le_of_lt_succ hlen) (Nat.le_max_right _ _), fun left hbody => ?_, ?_⟩
    · rw [hphase] at hbody
      rcases hbody with hbody | hbody <;> cases hbody
    · rw [hphase]
      exact nofun

/-- However draining ends, it leaves a framer that is sound. -/
theorem sound_drain (f : Framer) : f.phase.Counts → f.drain.2.Sound f.limit := by
  induction f using drain_induction with
  | wait f h => exact fun hcounts => ⟨rfl, hcounts, (bounded_of_wait h).2.2⟩
  | fail f cause g h => exact fun hcounts => sound_of_fail hcounts h
  | move f g h ih =>
    intro hcounts
    obtain ⟨hlimit, hcounts⟩ := keeps_of_next? hcounts (by rw [h]; rfl)
    exact hlimit ▸ ih hcounts
  | emit f frame g h ih =>
    intro hcounts
    obtain ⟨hlimit, hcounts⟩ := keeps_of_next? hcounts (by rw [h]; rfl)
    exact hlimit ▸ ih hcounts

/-- A drain that goes through ends with a framer that waits. -/
theorem Drains.step_eq (h : f.Drains frames g) : g.step = .wait := by
  induction h with
  | wait hs => exact hs
  | move _ _ ih => exact ih
  | emit _ _ ih => exact ih

/-! ## Framers that are used -/

/-- What is done with a framer. -/
inductive Use where
  /-- More bytes come. -/
  | push (data : Bytes)
  /-- It forgets what has come. -/
  | clear
  deriving DecidableEq, Repr

/-- A framer that is used once more. -/
def use (f : Framer) : Use → Framer
  | .push data => (f.push data).2
  | .clear => f.clear

/-- A framer that is used any number of times, also when a push has failed. -/
def useAll (f : Framer) (uses : List Use) : Framer :=
  uses.foldl use f

variable {limit : Nat}

theorem Sound.use (h : f.Sound limit) (u : Use) : (f.use u).Sound limit := by
  cases u with
  | push data =>
    obtain ⟨rfl, hcounts, -⟩ := h
    exact sound_drain (f.extend data) hcounts
  | clear => exact ⟨h.limit_eq, trivial, nofun⟩

theorem Sound.useAll (h : f.Sound limit) (uses : List Use) : (f.useAll uses).Sound limit := by
  induction uses generalizing f with
  | nil => exact h
  | cons u uses ih => exact ih (h.use u)

theorem sound_useAll (limit : Nat) (uses : List Use) :
    (useAll { limit := limit } uses).Sound limit := by
  have hnew : ({ limit := limit } : Framer).Sound limit := ⟨rfl, trivial, nofun⟩
  exact hnew.useAll uses

/-- A framer that is at rest. -/
structure AtRest (limit : Nat) (f : Framer) : Prop where
  /-- It holds no more than the limit, or a single byte. -/
  bounded : f.buffer.length ≤ max limit 1
  /-- It holds nothing of a body, of which there is more to come. -/
  body : ∀ left, f.phase = .fixed left ∨ f.phase = .chunk left → f.buffer = [] ∧ 0 < left
  /-- It has not left the end of a reply for later. -/
  not_last : f.phase ≠ .last
  /-- It waits: no bytes bring no frames and change nothing. -/
  waits : f.push [] = (.ok [], f)

/-- **A push that is accepted leaves a framer at rest**, whatever has been done with the framer
before. -/
theorem push_atRest {uses : List Use} {data : Bytes}
    (h : (useAll { limit := limit } uses).push data = (.ok frames, g)) : g.AtRest limit := by
  have hsound := (sound_useAll limit uses).use (.push data)
  rw [use, h] at hsound
  have hwait := (drains_of_drain (h.symm.trans (push_eq_drain _ data)).symm).step_eq
  obtain ⟨hbounded, hbody, hlast⟩ := bounded_of_wait hwait
  rw [hsound.limit_eq] at hbounded
  refine ⟨hbounded, fun left hleft => ⟨hbody left hleft, ?_⟩, hlast, ?_⟩
  · have hcounts := hsound.counts
    rcases hleft with hleft | hleft
    all_goals
      rw [hleft] at hcounts
      exact hcounts.1
  · rw [push_eq_drain, extend_nil, drain_of_wait hwait]

/-- A block that cannot be read leaves the beginning of the next one behind. That one is read, and
three bytes of the body are still to come. -/
theorem push_atRest_behind_fault :
    let uses := [Use.push (Utf8.encode "x\r\n\r\nHTTP".toList)]
    let data := Utf8.encode "/1.1 200 OK\r\nContent-Length: 5\r\n\r\nab".toList
    let g : Framer := { limit := 64, phase := .fixed 3 }
    (useAll { limit := 64 } uses).push data =
        (.ok [.header ⟨200, "OK", [("Content-Length", "5")]⟩, .content [97, 98]], g) ∧
      g.AtRest 64 := by
  intro uses data g
  have hfault : (extend { limit := 64 } (Utf8.encode "x\r\n\r\nHTTP".toList)).step =
      .fail (.statusLine ['x']) { limit := 64, buffer := Utf8.encode "HTTP".toList } := by
    have hcut : cut? blockEnd (Utf8.encode "x\r\n\r\nHTTP".toList) =
        some (Utf8.encode "x".toList, Utf8.encode "HTTP".toList) := by
      decide +kernel
    have hblock : headerOfBlock (Utf8.encode "x".toList) = .error (.statusLine ['x']) := by
      decide +kernel
    simp only [step, extend, List.nil_append, hcut, hblock]
    rfl
  have huses : useAll { limit := 64 } uses =
      { limit := 64, buffer := Utf8.encode "HTTP".toList } := by
    show (drain (extend { limit := 64 } (Utf8.encode "x\r\n\r\nHTTP".toList))).2 = _
    rw [drain_of_fail hfault]
  have hcut : cut? blockEnd (Utf8.encode "HTTP".toList ++ data) =
      some (Utf8.encode "HTTP/1.1 200 OK\r\nContent-Length: 5".toList, [97, 98]) := by
    decide +kernel
  have hblock : headerOfBlock (Utf8.encode "HTTP/1.1 200 OK\r\nContent-Length: 5".toList) =
      .ok (⟨200, "OK", [("Content-Length", "5")]⟩, .length 5) := by
    decide +kernel
  have hhead : (extend { limit := 64, buffer := Utf8.encode "HTTP".toList } data).step =
      .emit (.header ⟨200, "OK", [("Content-Length", "5")]⟩)
        { limit := 64, buffer := [97, 98], phase := .fixed 5 } := by
    simp only [step, extend, hcut, hblock]
    rfl
  have hbody : ({ limit := 64, buffer := [97, 98], phase := .fixed 5 } : Framer).step =
      .emit (.content [97, 98]) g := rfl
  have hpush : (useAll { limit := 64 } uses).push data =
      (.ok [.header ⟨200, "OK", [("Content-Length", "5")]⟩, .content [97, 98]], g) := by
    rw [huses, push_eq_drain, drain_of_emit hhead, drain_of_emit hbody,
      drain_of_wait (show g.step = .wait from rfl)]
    rfl
  exact ⟨hpush, push_atRest hpush⟩

end Framer

end ClusterLink.Reply
