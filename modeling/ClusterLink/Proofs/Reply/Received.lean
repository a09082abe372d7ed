import ClusterLink.Proofs.Reply.Steps
import Mathlib.Algebra.GroupWithZero.Nat
import Mathlib.Data.List.Basic

/-!
# Replies as they come in

Whatever bytes a new framer takes in without a fault are replies, one behind the
other, and the beginning of one more. `Received` is such a reply, with the bytes
that came and the pieces in which its body was handed on. It is the counterpart of
`Written`: there the freedom of a server counts, here everything that a framer lets
pass.

The main statement is `pushAll_received`: the frames are those of the replies, so
they come in turn and every body has as many bytes as the fields of its head or the
lines in front of its chunks tell (`Extent.ToldBy`), and the framer is idle just when
the last reply has ended and nothing is buffered.

## The argument

`Within` says, phase by phase, which bytes of a body have come by then and which of
them are data. Each step takes some bytes out of the buffer and keeps this
(`Took.emit`, `Took.move`), and so do any number of steps.
-/

namespace ClusterLink.Reply

open Text

/-- What stands in front of a mark is cut at its end and not before. -/
theorem cut?_append_mark {mark s part rest : Bytes} (h : cut? mark s = some (part, rest)) :
    cut? mark (part ++ mark) = some (part, []) := by
  have hs := eq_append_of_cut? h
  rw [hs] at h
  have hcut := cut?_of_append_cut? (s := part ++ mark) h (by simp)
  rwa [List.drop_of_length_le (by simp)] at hcut

/-! ## How the end of a body is told -/

namespace Extent

/-- Whether a field gives the length of the body. -/
def givesLength (f : String × String) : Bool := sameField f.1 "content-length"

/-- Whether a field announces that the body comes in chunks. -/
def announcesChunks (f : String × String) : Bool :=
  sameField f.1 "transfer-encoding" && endsChunked f.2.toList

/-- How some fields tell the end of a body. -/
inductive ToldBy (fields : Fields) : Extent → Prop where
  /-- A field announces chunks, whatever lengths are given beside it. -/
  | chunked {f : String × String} : f ∈ fields → announcesChunks f = true → ToldBy fields .chunked
  /-- The last length that is given counts. -/
  | length {before after : Fields} {f : String × String} {n : Nat} :
      fields = before ++ f :: after → givesLength f = true →
      Numeral.read? 10 UInt64.size f.2.toList = some n →
      (∀ g ∈ after, givesLength g = false) → (∀ g ∈ fields, announcesChunks g = false) →
      ToldBy fields (.length n)
  /-- There is neither. -/
  | empty : (∀ g ∈ fields, givesLength g = false) → (∀ g ∈ fields, announcesChunks g = false) →
      ToldBy fields .empty

variable {fields more : Fields} {f : String × String} {e e' : Extent}

theorem after_eq (e : Extent) (f : String × String) : e.after f =
    if announcesChunks f then .ok .chunked
    else if givesLength f && e != .chunked then
      match Numeral.read? 10 UInt64.size f.2.toList with
      | some n => .ok (.length n)
      | none => .error (.contentLength f.2.toList)
    else .ok e := rfl

/-- What is true of some fields and of another one is true of all of them. -/
theorem forall_mem_snoc {p : String × String → Bool} (h : ∀ g ∈ fields, p g = false)
    (hf : p f = false) : ∀ g ∈ fields ++ [f], p g = false :=
  List.forall_mem_append.2 ⟨h, List.forall_mem_singleton.2 hf⟩

theorem ToldBy.no_chunks (h : ToldBy fields e) (he : e ≠ .chunked) :
    ∀ g ∈ fields, announcesChunks g = false := by
  cases h with
  | chunked => exact absurd rfl he
  | length _ _ _ _ hchunks => exact hchunks
  | empty _ hchunks => exact hchunks

/-- A field tells what it tells together with those in front of it. -/
theorem ToldBy.after (h : ToldBy fields e) (hafter : e.after f = .ok e') :
    ToldBy (fields ++ [f]) e' := by
  by_cases hchunks : announcesChunks f = true
  · rw [after_eq, if_pos hchunks] at hafter
    cases hafter
    exact .chunked (List.mem_append_right _ (List.mem_singleton_self f)) hchunks
  rw [after_eq, if_neg hchunks] at hafter
  have hchunks := Bool.eq_false_iff.2 hchunks
  by_cases hlength : (givesLength f && e != .chunked) = true
  · rw [if_pos hlength] at hafter
    obtain ⟨hgives, hnot⟩ := Bool.and_eq_true_iff.1 hlength
    have hbefore := h.no_chunks (bne_iff_ne.1 hnot)
    cases hread : Numeral.read? 10 UInt64.size f.2.toList with
    | none =>
      rw [hread] at hafter
      cases hafter
    | some n =>
      rw [hread] at hafter
      cases hafter
      exact .length rfl hgives hread (by simp) (forall_mem_snoc hbefore hchunks)
  · rw [if_neg hlength] at hafter
    cases hafter
    cases h with
    | chunked hmem hannounces => exact .chunked (List.mem_append_left _ hmem) hannounces
    | @length before after _ _ hsplit hgives hread hlast hnone =>
      refine @ToldBy.length _ before (after ++ [f]) _ _ ?_ hgives hread ?_
        (forall_mem_snoc hnone hchunks)
      · rw [hsplit, List.append_assoc, List.cons_append]
      · exact forall_mem_snoc hlast (by simpa using hlength)
    | empty hnone hnone' =>
      exact .empty (forall_mem_snoc hnone (by simpa using hlength)) (forall_mem_snoc hnone' hchunks)

/-- So do any number of fields. -/
theorem ToldBy.foldlM (h : ToldBy fields e) (hmore : more.foldlM Extent.after e = .ok e') :
    ToldBy (fields ++ more) e' := by
  induction more generalizing fields e with
  | nil =>
    cases hmore
    rwa [List.append_nil]
  | cons f more ih =>
    rw [List.foldlM_cons] at hmore
    cases hafter : e.after f with
    | error cause =>
      rw [hafter] at hmore
      cases hmore
    | ok next =>
      rw [hafter] at hmore
      have hall := ih (h.after hafter) hmore
      rwa [List.append_assoc] at hall

end Extent

/-- The fields of a head that has been read tell how the body ends. -/
theorem toldBy_of_headerOfBlock {block : Bytes} {head : Header} {extent : Extent}
    (h : headerOfBlock block = .ok (head, extent)) : extent.ToldBy head.fields := by
  have hlines (status : List Char) (lines : List (List Char))
      (h : headerOfLines status lines = .ok (head, extent)) : extent.ToldBy head.fields := by
    unfold headerOfLines at h
    split at h
    · cases h
    · rename_i code reason _
      cases hfields : Extent.ofFields (lines.filterMap field?) with
      | error cause => simp [hfields, Except.map] at h
      | ok told =>
        simp only [hfields, Except.map, Except.ok.injEq] at h
        cases h
        have hnone : Extent.empty.ToldBy [] := .empty (by simp) (by simp)
        exact hnone.foldlM hfields
  unfold headerOfBlock at h
  split at h
  · cases h
  · split at h
    · exact hlines _ _ h
    · exact hlines _ _ h

/-! ## Replies -/

namespace Received

/-- A line up to its end, which stands nowhere in it. -/
def IsLine (line : Bytes) : Prop := cut? lineEnd (line ++ lineEnd) = some (line, [])

/-- A chunk that has come. -/
structure Chunk where
  /-- The line in front of it. -/
  line : Bytes
  /-- The size that the line tells. -/
  size : Nat
  /-- The bytes of the chunk. -/
  data : Bytes
  /-- The line ends at its first line end. -/
  isLine : IsLine line
  /-- The line tells the size. -/
  told : chunkSizeOfLine line = .ok size
  /-- Another chunk may follow. -/
  size_ne_zero : size ≠ 0
  /-- All bytes of the chunk have come. -/
  length_eq : data.length = size

/-- The bytes that have come for a chunk. -/
def Chunk.bytes (c : Chunk) : Bytes :=
  c.line ++ (lineEnd ++ (c.data ++ lineEnd))

/-- A body that has come, framed in one of the three ways. -/
inductive Body where
  /-- A field told the length. -/
  | sized (n : Nat) (data : Bytes) (length_eq : data.length = n)
  /-- A field told that chunks follow; a line that tells no size ends them, and lines that are not
  empty may stand behind it. -/
  | chunked (chunks : List Chunk) (last : Bytes) (trailers : List Bytes) (isLine : IsLine last)
      (told : chunkSizeOfLine last = .ok 0) (lines : ∀ line ∈ trailers, line ≠ [] ∧ IsLine line)
  /-- No field told anything. -/
  | empty

namespace Body

/-- How the end of the body was told. -/
def extent : Body → Extent
  | sized n .. => .length n
  | chunked .. => .chunked
  | empty => .empty

/-- How many bytes were told: the length, or the sizes of all chunks. -/
def told : Body → Nat
  | sized n .. => n
  | chunked chunks .. => (chunks.map (·.size)).sum
  | empty => 0

/-- The bytes of the body. -/
def data : Body → Bytes
  | sized _ data _ => data
  | chunked chunks .. => chunks.flatMap (·.data)
  | empty => []

/-- The bytes that have come for the body. -/
def bytes : Body → Bytes
  | sized _ data _ => data
  | chunked chunks last trailers .. =>
    chunks.flatMap Chunk.bytes ++
      (last ++ (lineEnd ++ (trailers.flatMap (· ++ lineEnd) ++ lineEnd)))
  | empty => []

/-- A body has as many bytes as were told. -/
theorem length_data (b : Body) : b.data.length = b.told := by
  cases b with
  | sized n data length_eq => exact length_eq
  | chunked chunks =>
    rw [data, told, List.length_flatMap]
    exact congrArg List.sum (List.map_congr_left fun c _ => c.length_eq)
  | empty => rfl

end Body

end Received

/-- A reply that has come. -/
structure Received where
  /-- The bytes of the header block. -/
  block : Bytes
  /-- The head. -/
  head : Header
  /-- The body. -/
  body : Received.Body
  /-- The pieces in which the body was handed on. -/
  parts : List Bytes
  /-- The block ends at its first empty line. -/
  block_cut : cut? blockEnd (block ++ blockEnd) = some (block, [])
  /-- The block tells the head and how the body ends. -/
  block_told : headerOfBlock block = .ok (head, body.extent)
  /-- No piece is empty. -/
  parts_ne_nil : ∀ part ∈ parts, part ≠ []
  /-- The pieces are the body. -/
  flatten_parts : parts.flatten = body.data

namespace Received

/-- The bytes that have come for a reply. -/
def wire (r : Received) : Bytes :=
  r.block ++ (blockEnd ++ r.body.bytes)

/-- The frames of a reply. -/
def frames (r : Received) : List Frame :=
  .header r.head :: (r.parts.map .content ++ [.last []])

/-! ## A reply that has begun -/

/-- What has come of a body when a phase is reached: all bytes, and the data among them. -/
inductive Within : Extent → Phase → Bytes → Bytes → Prop where
  /-- A beginning of known length. -/
  | fixed {data : Bytes} {left : Nat} : left ≠ 0 →
      Within (.length (data.length + left)) (.fixed left) data data
  /-- Some chunks. -/
  | size (chunks : List Chunk) :
      Within .chunked .size (chunks.flatMap Chunk.bytes) (chunks.flatMap (·.data))
  /-- Some chunks and the beginning of one. -/
  | chunk (chunks : List Chunk) {line data : Bytes} {left : Nat} : IsLine line →
      chunkSizeOfLine line = .ok (data.length + left) → left ≠ 0 →
      Within .chunked (.chunk left) (chunks.flatMap Chunk.bytes ++ (line ++ (lineEnd ++ data)))
        (chunks.flatMap (·.data) ++ data)
  /-- Some chunks, and one more whose end is to come. -/
  | chunkEnd (chunks : List Chunk) {line data : Bytes} : IsLine line →
      chunkSizeOfLine line = .ok data.length → data ≠ [] →
      Within .chunked .chunkEnd (chunks.flatMap Chunk.bytes ++ (line ++ (lineEnd ++ data)))
        (chunks.flatMap (·.data) ++ data)
  /-- All chunks and some lines behind them. -/
  | trailer (chunks : List Chunk) {last : Bytes} {trailers : List Bytes} : IsLine last →
      chunkSizeOfLine last = .ok 0 → (∀ line ∈ trailers, line ≠ [] ∧ IsLine line) →
      Within .chunked .trailer
        (chunks.flatMap Chunk.bytes ++ (last ++ (lineEnd ++ trailers.flatMap (· ++ lineEnd))))
        (chunks.flatMap (·.data))
  /-- The whole body. -/
  | last (body : Body) : Within body.extent .last body.bytes body.data

variable {extent : Extent} {bytes data buffer : Bytes} {left : Nat}

/-- Nothing of a body has come when it begins. -/
theorem Within.begin (extent : Extent) : Within extent (.ofExtent extent) [] [] := by
  cases extent with
  | length n =>
    cases n with
    | zero => exact .last (.sized 0 [] rfl)
    | succ n =>
      have hfixed := @Within.fixed [] _ (Nat.succ_ne_zero n)
      rwa [List.length_nil, Nat.zero_add] at hfixed
  | chunked => exact .size []
  | empty => exact .last .empty

/-- More of a body of known length comes. -/
theorem Within.take_fixed (h : Within extent (.fixed left) bytes data) (buffer : Bytes) :
    Within extent (Framer.afterFixed (left - buffer.length)) (bytes ++ buffer.take left)
      (data ++ buffer.take left) := by
  generalize hphase : Phase.fixed left = phase at h
  cases h with
  | fixed hleft =>
    cases hphase
    by_cases hall : left ≤ buffer.length
    · have hlen : (bytes ++ buffer.take left).length = bytes.length + left := by
        rw [List.length_append, List.length_take, Nat.min_eq_left hall]
      rw [Nat.sub_eq_zero_of_le hall]
      exact .last (.sized _ _ hlen)
    · obtain ⟨n, hn⟩ : ∃ n, left - buffer.length = n + 1 := ⟨left - buffer.length - 1, by omega⟩
      rw [List.take_of_length_le (by omega), hn]
      have hfixed := @Within.fixed (bytes ++ buffer) _ (Nat.succ_ne_zero n)
      rwa [List.length_append, show bytes.length + buffer.length + (n + 1) = bytes.length + left by
        omega] at hfixed
  | _ => cases hphase

/-- A line that tells a size comes. -/
theorem Within.take_size (h : Within extent .size bytes data) {line : Bytes} {n : Nat}
    (hline : IsLine line) (htold : chunkSizeOfLine line = .ok n) :
    Within extent (afterSize n) (bytes ++ (line ++ lineEnd)) data := by
  cases h with
  | size chunks =>
    cases n with
    | zero => simpa [afterSize] using @Within.trailer chunks _ [] hline htold (by simp)
    | succ n =>
      have hchunk := @Within.chunk chunks _ [] _ hline (by simpa using htold)
        (Nat.succ_ne_zero n)
      simpa [afterSize] using hchunk

/-- More of a chunk comes. -/
theorem Within.take_chunk (h : Within extent (.chunk left) bytes data) (buffer : Bytes) :
    Within extent (Framer.afterChunk (left - buffer.length)) (bytes ++ buffer.take left)
      (data ++ buffer.take left) := by
  generalize hphase : Phase.chunk left = phase at h
  cases h with
  | @chunk chunks line data left' hline htold hleft =>
    cases hphase
    simp only [List.append_assoc]
    by_cases hall : left ≤ buffer.length
    · have hlen : (data ++ buffer.take left).length = data.length + left := by
        rw [List.length_append, List.length_take, Nat.min_eq_left hall]
      rw [Nat.sub_eq_zero_of_le hall]
      refine .chunkEnd chunks hline (by rw [hlen, htold]) fun hnil => hleft ?_
      rw [hnil, List.length_nil] at hlen
      omega
    · obtain ⟨n, hn⟩ : ∃ n, left - buffer.length = n + 1 := ⟨left - buffer.length - 1, by omega⟩
      rw [List.take_of_length_le (by omega), hn]
      refine .chunk chunks hline ?_ (Nat.succ_ne_zero n)
      rw [List.length_append, htold]
      congr 1
      omega
  | _ => cases hphase

/-- The line end behind a chunk comes. -/
theorem Within.take_chunkEnd (h : Within extent .chunkEnd bytes data) :
    Within extent .size (bytes ++ lineEnd) data := by
  cases h with
  | @chunkEnd chunks line data hline htold hdata =>
    have hsize := Within.size (chunks ++ [⟨line, data.length, data, hline, htold,
      fun h => hdata (List.eq_nil_of_length_eq_zero h), rfl⟩])
    simpa [Chunk.bytes] using hsize

/-- A line behind the last chunk comes. -/
theorem Within.take_trailer (h : Within extent .trailer bytes data) {line : Bytes}
    (hline : IsLine line) :
    Within extent (afterTrailer line) (bytes ++ (line ++ lineEnd)) data := by
  cases h with
  | @trailer chunks last trailers hlast htold hlines =>
    cases line with
    | nil =>
      have hbody := Within.last (.chunked chunks last trailers hlast htold hlines)
      simpa [afterTrailer, Body.bytes, Body.data, Body.extent] using hbody
    | cons b line =>
      have htrailer := @Within.trailer chunks _ (trailers ++ [b :: line]) hlast htold
        (List.forall_mem_append.2 ⟨hlines, by simpa using hline⟩)
      simpa [afterTrailer] using htrailer

/-- What has come of a reply when a phase is reached, and the frames handed on for it. -/
inductive Begun : Phase → Bytes → List Frame → Prop where
  /-- No reply has begun. -/
  | none : Begun .header [] []
  /-- The header block and a part of the body have come. -/
  | reply {phase : Phase} {block bytes : Bytes} {head : Header} {extent : Extent}
      {parts : List Bytes} : cut? blockEnd (block ++ blockEnd) = some (block, []) →
      headerOfBlock block = .ok (head, extent) → (∀ part ∈ parts, part ≠ []) →
      Within extent phase bytes parts.flatten →
      Begun phase (block ++ (blockEnd ++ bytes)) (.header head :: parts.map .content)

/-- The bytes that a framer has taken out of its buffer are replies and the beginning of one, and
the frames are theirs. -/
inductive Took (phase : Phase) : Bytes → List Frame → Prop where
  /-- Some replies and the beginning of one. -/
  | replies (replies : List Received) {bytes : Bytes} {begun : List Frame} :
      Begun phase bytes begun →
      Took phase (replies.flatMap wire ++ bytes) (replies.flatMap Received.frames ++ begun)

/-! ## Steps -/

variable {phase : Phase} {bytes : Bytes} {begun frames more : List Frame} {f g : Framer}

/-- A piece of the body is handed on. -/
theorem Begun.content {next : Phase} (h : Begun phase bytes begun) {part : Bytes}
    (hbegun : phase ≠ .header) (hpart : part ≠ [])
    (hwithin : ∀ extent data bytes, Within extent phase bytes data →
      Within extent next (bytes ++ part) (data ++ part)) :
    Begun next (bytes ++ part) (begun ++ [.content part]) := by
  cases h with
  | none => exact absurd rfl hbegun
  | @reply _ block bytes head extent parts hcut htold hparts h =>
    have hreply := @Begun.reply _ _ _ _ _ (parts ++ [part]) hcut htold
      (List.forall_mem_append.2 ⟨hparts, by simpa using hpart⟩)
      (by simpa using hwithin _ _ _ h)
    simpa using hreply

/-- Something is used up that is no frame. -/
theorem Begun.silent {next : Phase} (h : Begun phase bytes begun) {used : Bytes}
    (hbegun : phase ≠ .header)
    (hwithin : ∀ extent data bytes, Within extent phase bytes data →
      Within extent next (bytes ++ used) data) :
    Begun next (bytes ++ used) begun := by
  cases h with
  | none => exact absurd rfl hbegun
  | reply hcut htold hparts h => simpa using Begun.reply hcut htold hparts (hwithin _ _ _ h)

/-- In a body of known length and in a chunk some bytes are still to come. -/
theorem Begun.left_ne_zero {left : Nat} (h : Begun phase bytes begun)
    (hphase : phase = .fixed left ∨ phase = .chunk left) : left ≠ 0 := by
  cases h with
  | none => rcases hphase with hphase | hphase <;> cases hphase
  | reply _ _ _ h =>
    generalize List.flatten _ = data at h
    rcases hphase with rfl | rfl
    · cases h with
      | fixed hleft => exact hleft
    · cases h with
      | chunk _ _ _ hleft => exact hleft

/-- The end of a reply completes it. -/
theorem Begun.last (h : Begun .last bytes begun) :
    ∃ r : Received, r.wire = bytes ∧ r.frames = begun ++ [.last []] := by
  cases h with
  | @reply _ block bytes head extent parts hcut htold hparts h =>
    generalize hdata : parts.flatten = data at h
    cases h with
    | last body => exact ⟨⟨block, head, body, parts, hcut, htold, hparts, hdata⟩, rfl, rfl⟩

theorem take_ne_nil {buffer : Bytes} {left : Nat} (hbuffer : buffer ≠ []) (hleft : left ≠ 0) :
    buffer.take left ≠ [] := by
  simp [hbuffer, hleft]

/-- A step that hands on a frame takes out of the buffer what the frame stands for. -/
theorem Took.emit (h : Took f.phase bytes frames) {frame : Frame} (hstep : f.step = .emit frame g) :
    ∃ used, f.buffer = used ++ g.buffer ∧ Took g.phase (bytes ++ used) (frames ++ [frame]) := by
  have hdoes := f.does_step
  rw [hstep] at hdoes
  generalize hphase : f.phase = phase at h
  obtain ⟨replies, h⟩ := h
  rw [List.append_assoc]
  cases hdoes with
  | @header block rest head extent hheader hcut _ htold =>
    obtain rfl := hphase.symm.trans hheader
    refine ⟨block ++ blockEnd, eq_append_of_cut? hcut, ?_⟩
    cases h with
    | none =>
      have hbegun := @Begun.reply _ _ _ _ _ [] (cut?_append_mark hcut) htold (by simp)
        (Within.begin extent)
      simpa using Took.replies replies hbegun
    | reply _ _ _ hwithin => cases hwithin
  | @fixed left hfixed hbuffer =>
    obtain rfl := hphase.symm.trans hfixed
    refine ⟨f.buffer.take left, (List.take_append_drop _ _).symm, ?_⟩
    rw [List.append_assoc]
    have hpart := take_ne_nil hbuffer (h.left_ne_zero (.inl rfl))
    exact .replies replies (h.content nofun hpart fun _ _ _ hwithin => hwithin.take_fixed f.buffer)
  | @chunk left hchunk hbuffer =>
    obtain rfl := hphase.symm.trans hchunk
    refine ⟨f.buffer.take left, (List.take_append_drop _ _).symm, ?_⟩
    rw [List.append_assoc]
    have hpart := take_ne_nil hbuffer (h.left_ne_zero (.inr rfl))
    exact .replies replies (h.content nofun hpart fun _ _ _ hwithin => hwithin.take_chunk f.buffer)
  | last hlast =>
    obtain rfl := hphase.symm.trans hlast
    obtain ⟨r, rfl, hframes⟩ := h.last
    refine ⟨[], rfl, ?_⟩
    have hreplies := Took.replies (replies ++ [r]) .none
    rw [List.append_assoc, ← hframes]
    simpa using hreplies

/-- So does a step that moves on in silence. -/
theorem Took.move (h : Took f.phase bytes frames) (hstep : f.step = .move g) :
    ∃ used, f.buffer = used ++ g.buffer ∧ Took g.phase (bytes ++ used) frames := by
  have hdoes := f.does_step
  rw [hstep] at hdoes
  generalize hphase : f.phase = phase at h
  obtain ⟨replies, h⟩ := h
  cases hdoes with
  | @size line rest n hsize hcut htold =>
    obtain rfl := hphase.symm.trans hsize
    refine ⟨line ++ lineEnd, eq_append_of_cut? hcut, ?_⟩
    rw [List.append_assoc]
    exact .replies replies
      (h.silent nofun fun _ _ _ hwithin => hwithin.take_size (cut?_append_mark hcut) htold)
  | @chunkEnd rest hend hbuffer =>
    obtain rfl := hphase.symm.trans hend
    refine ⟨lineEnd, hbuffer, ?_⟩
    rw [List.append_assoc]
    exact .replies replies (h.silent nofun fun _ _ _ hwithin => hwithin.take_chunkEnd)
  | @trailer line rest htrailer hcut =>
    obtain rfl := hphase.symm.trans htrailer
    refine ⟨line ++ lineEnd, eq_append_of_cut? hcut, ?_⟩
    rw [List.append_assoc]
    exact .replies replies
      (h.silent nofun fun _ _ _ hwithin => hwithin.take_trailer (cut?_append_mark hcut))

/-- So do any number of steps. -/
theorem Took.drain (h : Took f.phase bytes frames) (hdrain : f.drain = (.ok more, g)) :
    ∃ used, f.buffer = used ++ g.buffer ∧ Took g.phase (bytes ++ used) (frames ++ more) := by
  replace hdrain := Framer.drains_of_drain hdrain
  induction hdrain generalizing bytes frames with
  | wait => exact ⟨[], rfl, by simpa using h⟩
  | move hs _ ih =>
    obtain ⟨used, hused, hnext⟩ := h.move hs
    obtain ⟨used', hused', hend⟩ := ih hnext
    refine ⟨used ++ used', by rw [hused, hused', List.append_assoc], ?_⟩
    rwa [← List.append_assoc]
  | emit hs _ ih =>
    obtain ⟨used, hused, hnext⟩ := h.emit hs
    obtain ⟨used', hused', hend⟩ := ih hnext
    refine ⟨used ++ used', by rw [hused, hused', List.append_assoc], ?_⟩
    rwa [← List.append_assoc, ← List.singleton_append, ← List.append_assoc]

/-- So do any number of pushes. -/
theorem Took.pushAll (h : Took f.phase bytes frames) {pieces : List Bytes}
    (hpush : f.pushAll pieces = (.ok more, g)) :
    ∃ used, f.buffer ++ pieces.flatten = used ++ g.buffer ∧
      Took g.phase (bytes ++ used) (frames ++ more) := by
  induction pieces generalizing f bytes frames more with
  | nil =>
    cases hpush
    exact ⟨[], by simp, by simpa using h⟩
  | cons piece pieces ih =>
    obtain ⟨first, f', rest, hfirst, hrest, rfl⟩ := Framer.pushAll_cons_eq_ok hpush
    rw [Framer.push_eq_drain] at hfirst
    obtain ⟨used, hused, hnext⟩ := Took.drain (f := f.extend piece) h hfirst
    obtain ⟨used', hused', hend⟩ := ih hnext hrest
    refine ⟨used ++ used', ?_, ?_⟩
    · have hbuffer : f.buffer ++ piece = used ++ f'.buffer := hused
      rw [List.flatten_cons, ← List.append_assoc, hbuffer, List.append_assoc, hused',
        List.append_assoc]
    · rwa [← List.append_assoc, ← List.append_assoc]

/-! ## All that comes in -/

/-- Frames that end with the end of a reply, or none at all. -/
def Closed (frames : List Frame) : Prop :=
  ∀ frame ∈ frames.getLast?, frame.isLast = true

/-- No reply is open just when none has begun. -/
theorem Took.closed_iff (h : Took phase bytes frames) : Closed frames ↔ phase = .header := by
  obtain ⟨replies, h⟩ := h
  constructor
  · intro hclosed
    cases h with
    | none => rfl
    | @reply _ block bytes head extent parts =>
      -- the last frame is the head or a piece of the body
      rcases List.eq_nil_or_concat parts with rfl | ⟨parts, part, rfl⟩
      · have := hclosed (.header head) (by simp)
        cases this
      · have := hclosed (.content part) (by simp [List.getLast?_cons])
        cases this
  · rintro rfl
    cases h with
    | none =>
      rcases List.eq_nil_or_concat replies with rfl | ⟨replies, r, rfl⟩
      · intro frame hframe
        cases hframe
      · intro frame hframe
        have hlast : Frame.last [] = frame := by
          simpa [Received.frames, List.getLast?_cons] using hframe
        rw [← hlast]
        rfl
    | reply _ _ _ hwithin => cases hwithin

end Received

open Received in
/-- **Whatever a new framer takes in without a fault is replies and the beginning of one more.** Its
frames are theirs: the head of each, pieces of its body, none of them empty, and its end. The fields
of the head tell how a body ends, and when it has ended it has as many bytes as were told: the
length, the sizes of all chunks, or none. The framer is idle just when no reply is open and nothing
is buffered. -/
theorem Framer.pushAll_received {limit : Nat} {pieces : List Bytes} {frames : List Frame}
    {f : Framer} (h : ({ limit := limit } : Framer).pushAll pieces = (.ok frames, f)) :
    (∃ (replies : List Received) (bytes : Bytes) (begun : List Frame),
      pieces.flatten = replies.flatMap Received.wire ++ bytes ++ f.buffer ∧
      frames = replies.flatMap Received.frames ++ begun ∧
      (∀ r ∈ replies, (∀ part ∈ r.parts, part ≠ []) ∧ r.body.extent.ToldBy r.head.fields ∧
        r.parts.flatten.length = r.body.told) ∧
      Begun f.phase bytes begun) ∧
    (f.isIdle = true ↔ Closed frames ∧ f.buffer.length = 0) := by
  have hfresh : Took Phase.header [] [] := .replies [] .none
  obtain ⟨used, hused, htook⟩ := Took.pushAll (f := { limit := limit }) hfresh h
  simp only [List.nil_append] at hused htook
  have hclosed := htook.closed_iff
  constructor
  · obtain ⟨replies, hbegun⟩ := htook
    refine ⟨replies, _, _, hused, rfl, fun r _ => ⟨r.parts_ne_nil, ?_, ?_⟩, hbegun⟩
    · exact toldBy_of_headerOfBlock r.block_told
    · rw [r.flatten_parts, r.body.length_data]
  · rw [hclosed, isIdle, Bool.and_eq_true, beq_iff_eq, List.isEmpty_iff, List.length_eq_zero_iff]

open Received in
/-- A chunk that is cut, a complete reply, and the beginning of the next. -/
theorem Framer.pushAll_received_cut :
    let pieces : List Bytes :=
      ["HTTP/1.1 200 OK\r\nTransfer-Encoding: chunked\r\n\r\n03\r\na",
        "bc\r\n0\r\n\r\nHTTP/1.1 4"].map fun text => Utf8.encode text.toList
    let frames : List Frame := [.header ⟨200, "OK", [("Transfer-Encoding", "chunked")]⟩,
      .content [97], .content [98, 99], .last []]
    let f : Framer := { limit := 60, buffer := Utf8.encode "HTTP/1.1 4".toList }
    ({ limit := 60 } : Framer).pushAll pieces = (.ok frames, f) ∧
      (∃ (replies : List Received) (bytes : Bytes) (begun : List Frame),
        pieces.flatten = replies.flatMap Received.wire ++ bytes ++ f.buffer ∧
        frames = replies.flatMap Received.frames ++ begun ∧
        (∀ r ∈ replies, (∀ part ∈ r.parts, part ≠ []) ∧ r.body.extent.ToldBy r.head.fields ∧
          r.parts.flatten.length = r.body.told) ∧
        Begun f.phase bytes begun) ∧
      (f.isIdle = true ↔ Closed frames ∧ f.buffer.length = 0) := by
  intro pieces frames f
  have hpush : ({ limit := 60 } : Framer).pushAll pieces = (.ok frames, f) := by decide +kernel
  exact ⟨hpush, pushAll_received hpush⟩

end ClusterLink.Reply
