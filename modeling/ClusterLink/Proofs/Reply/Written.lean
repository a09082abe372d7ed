import ClusterLink.Proofs.Reply.Ahead
import ClusterLink.Proofs.Text.Blank
import ClusterLink.Proofs.Text.Numeral
import ClusterLink.Proofs.Text.Utf8
import ClusterLink.Request.Wire

/-!
# Replies as a server writes them

`Written` is a reply on the server's side, with all the freedom that a server has
in writing it: the spelling of the field that frames the body and its place
among the fields, the cutting of a body into chunks, the digits of lengths and
sizes, extensions and trailers. `Written.wire` is what the server sends.

The main statement is `pushAll_wire`: however the network cuts what is sent for
a list of replies, a framer hands on the head of each reply, the bytes of its
body and its end, in order, and nothing is left behind.

## The model

A body of known length and a chunk have less than `2 ^ 64` bytes, as every body
has that a server holds in memory.
-/

namespace ClusterLink.Reply

open Text

/-- A text that stands on one line. -/
def OneLine (cs : List Char) : Prop := '\r' ∉ cs ∧ '\n' ∉ cs

instance (cs : List Char) : Decidable (OneLine cs) :=
  inferInstanceAs (Decidable (_ ∧ _))

/-- A text that stands on one line and has no blanks at its ends. -/
structure Trimmed (cs : List Char) : Prop where
  /-- There is nothing to trim. -/
  trim_eq : trim cs = cs
  /-- There is no line end in it. -/
  oneLine : OneLine cs

instance (cs : List Char) : Decidable (Trimmed cs) :=
  decidable_of_iff (trim cs = cs ∧ OneLine cs) ⟨fun h => ⟨h.1, h.2⟩, fun h => ⟨h.1, h.2⟩⟩

/-- A header field that can be written on one line and told from its line. -/
structure Writable (f : String × String) : Prop where
  /-- The name has no blanks at its ends. -/
  name : Trimmed f.1.toList
  /-- The first colon of the line stands behind the name. -/
  colon : ':' ∉ f.1.toList
  /-- The value has no blanks at its ends. -/
  value : Trimmed f.2.toList

instance (f : String × String) : Decidable (Writable f) :=
  decidable_of_iff (Trimmed f.1.toList ∧ ':' ∉ f.1.toList ∧ Trimmed f.2.toList)
    ⟨fun h => ⟨h.1, h.2.1, h.2.2⟩, fun h => ⟨h.1, h.2, h.3⟩⟩

/-- The line in front of a chunk of `n` bytes. -/
structure SizeLine (n : Nat) where
  /-- The digits of the size. -/
  digits : List Char
  /-- What follows behind a semicolon. -/
  extension : Option (List Char)
  /-- The digits write the size. -/
  writes : Numeral.Writes 16 digits n
  /-- The extension does not end the line. -/
  oneLine : ∀ e ∈ extension, OneLine e

/-- The characters of a size line. -/
def SizeLine.text {n : Nat} (l : SizeLine n) : List Char :=
  l.digits ++ (l.extension.map (';' :: ·)).getD []

/-- A chunk of a body. -/
structure Chunk where
  /-- The bytes of the chunk. -/
  data : Bytes
  /-- The line in front of it. -/
  line : SizeLine data.length
  /-- An empty chunk would end the body. -/
  data_ne_nil : data ≠ []
  /-- A size has less than 65 bits. -/
  length_lt : data.length < UInt64.size

/-- The bytes that are sent for a chunk. -/
def Chunk.bytes (c : Chunk) : Bytes :=
  Utf8.encode c.line.text ++ (lineEnd ++ (c.data ++ lineEnd))

/-- A body, framed in one of the three ways. -/
inductive Body where
  /-- A field tells the length. -/
  | sized (field : String × String) (data : Bytes)
      (named : sameField field.1 "content-length" = true)
      (told : Numeral.Writes 10 field.2.toList data.length) (length_lt : data.length < UInt64.size)
  /-- A field tells that chunks follow; behind the last there may be lines that are not empty. -/
  | chunked (field : String × String) (chunks : List Chunk) (last : SizeLine 0)
      (trailers : List Bytes) (named : sameField field.1 "transfer-encoding" = true)
      (told : sameField field.2 "chunked" = true)
      (lines : ∀ line ∈ trailers, line ≠ [] ∧ 13 ∉ line ∧ 10 ∉ line)
  /-- There is no body and no field that says so. -/
  | none

namespace Body

/-- The field that frames the body. -/
def fields : Body → Fields
  | sized field .. => [field]
  | chunked field .. => [field]
  | none => []

/-- The bytes of the body. -/
def data : Body → Bytes
  | sized _ data .. => data
  | chunked _ chunks .. => chunks.flatMap (·.data)
  | none => []

/-- The bytes that are sent for the body. -/
def bytes : Body → Bytes
  | sized _ data .. => data
  | chunked _ chunks last trailers .. =>
    chunks.flatMap Chunk.bytes ++ (Utf8.encode last.text ++ (lineEnd ++
      (trailers.flatMap (· ++ lineEnd) ++ lineEnd)))
  | none => []

/-- How the end of the body is told. -/
def extent : Body → Extent
  | sized _ data .. => .length data.length
  | chunked .. => .chunked
  | none => .empty

/-- Each line between chunks is at least four bytes shorter than the limit. -/
def Fits (limit : Nat) : Body → Prop
  | chunked _ chunks last trailers .. =>
    (∀ c ∈ chunks, (Utf8.encode c.line.text).length + 4 ≤ limit) ∧
      (Utf8.encode last.text).length + 4 ≤ limit ∧ ∀ line ∈ trailers, line.length + 4 ≤ limit
  | _ => True

instance (limit : Nat) : (b : Body) → Decidable (b.Fits limit)
  | sized .. => inferInstanceAs (Decidable True)
  | chunked .. => inferInstanceAs (Decidable (_ ∧ _ ∧ _))
  | none => inferInstanceAs (Decidable True)

end Body

/-- A reply as a server writes it. -/
structure Written where
  /-- What follows `HTTP/` at the beginning. -/
  version : List Char
  /-- The status code. -/
  code : UInt16
  /-- The words behind the status code, if anything stands there. -/
  reason : Option (List Char)
  /-- The fields in front of the one that frames the body. -/
  before : Fields
  /-- The body. -/
  body : Body
  /-- The fields behind the one that frames the body. -/
  after : Fields
  /-- The version is one word. -/
  version_word : ' ' ∉ version ∧ OneLine version
  /-- The words have no blanks at their ends. -/
  reason_trimmed : ∀ r ∈ reason, Trimmed r
  /-- Each field stands on one line. -/
  fields_writable : ∀ f ∈ before ++ body.fields ++ after, Writable f
  /-- No other field frames the body. -/
  fields_other : ∀ f ∈ before ++ after,
    sameField f.1 "transfer-encoding" = false ∧ sameField f.1 "content-length" = false

namespace Written

/-- The header fields in their order. -/
def fields (w : Written) : Fields :=
  w.before ++ w.body.fields ++ w.after

/-- The head of the reply. -/
def header (w : Written) : Header :=
  ⟨w.code, String.ofList (w.reason.getD []), w.fields⟩

/-- The first line, without its end. -/
def statusLine (w : Written) : List Char :=
  "HTTP/".toList ++ w.version ++
    ' ' :: (Nat.toDigits 10 w.code.toNat ++ (w.reason.map (' ' :: ·)).getD [])

/-- The characters of the header block, without the empty line that ends it. -/
def blockText (w : Written) : List Char :=
  w.statusLine ++ (w.fields.map Outgoing.fieldLine).flatMap (['\r', '\n'] ++ ·)

/-- The bytes of the header block. -/
def block (w : Written) : Bytes :=
  Utf8.encode w.blockText

/-- The bytes that are sent for a reply. -/
def wire (w : Written) : Bytes :=
  w.block ++ (blockEnd ++ w.body.bytes)

/-- The head of the reply, its body in one piece, and its end. -/
def frames (w : Written) : List Frame :=
  .header w.header :: (if w.body.data = [] then [] else [.content w.body.data]) ++ [.last []]

/-- The header block and each line between chunks are at least four bytes shorter than the
limit. -/
def Fits (w : Written) (limit : Nat) : Prop :=
  w.block.length + 4 ≤ limit ∧ w.body.Fits limit

instance (w : Written) (limit : Nat) : Decidable (w.Fits limit) :=
  inferInstanceAs (Decidable (_ ∧ _))

end Written

/-! ## Lines -/

theorem endsAt_lineEnd {limit : Nat} {line : Bytes} (h : 13 ∉ line)
    (hfits : line.length + 4 ≤ limit) : EndsAt limit lineEnd line :=
  ⟨cut?_of_not_mem h [], hfits⟩

/-- No header block ends at a line end with another line behind it. -/
theorem cut?_blockEnd_lineEnd {b : UInt8} (hb : ¬ 13 = b) (rest : Bytes) :
    cut? blockEnd (lineEnd ++ b :: rest) =
      (cut? blockEnd (b :: rest)).map fun p => (lineEnd ++ p.1, p.2) := by
  rw [lineEnd, List.cons_append, List.cons_append, List.nil_append, cut?_cons,
    if_neg (by simp [blockEnd, List.isPrefixOf, hb]), cut?_cons,
    if_neg (by simp [blockEnd, List.isPrefixOf]), Option.map_map]
  rfl

/-- A header block ends at its first empty line. -/
theorem cut?_blockEnd {first : Bytes} {lines : List Bytes} (hfirst : 13 ∉ first)
    (hlines : ∀ line ∈ lines, line ≠ [] ∧ 13 ∉ line) (rest : Bytes) :
    cut? blockEnd (first ++ (lines.flatMap (lineEnd ++ ·) ++ (blockEnd ++ rest))) =
      some (first ++ lines.flatMap (lineEnd ++ ·), rest) := by
  induction lines generalizing first with
  | nil =>
    rw [List.flatMap_nil, List.nil_append, List.append_nil]
    exact cut?_of_not_mem hfirst rest
  | cons line lines ih =>
    obtain ⟨⟨hne, hline⟩, hrest⟩ := List.forall_mem_cons.1 hlines
    obtain ⟨b, more, rfl⟩ := List.exists_cons_of_ne_nil hne
    have hb : ¬ 13 = b := fun h => hline (h ▸ List.mem_cons_self)
    have hskip : cut? blockEnd (lineEnd ++ ((b :: more) ++ (lines.flatMap (lineEnd ++ ·) ++
        (blockEnd ++ rest)))) =
          some (lineEnd ++ ((b :: more) ++ lines.flatMap (lineEnd ++ ·)), rest) := by
      have hih := ih hline hrest
      rw [List.cons_append] at hih ⊢
      rw [cut?_blockEnd_lineEnd hb, hih]
      rfl
    rw [List.flatMap_cons, List.append_assoc, List.append_assoc, List.append_assoc]
    rw [blockEnd] at hskip ⊢
    rw [cut?_append_of_not_mem hfirst, hskip]
    rfl

namespace SizeLine

variable {n : Nat} (l : SizeLine n)

theorem isAlphanum_of_mem_digits {c : Char} (hc : c ∈ l.digits) : c.isAlphanum :=
  Numeral.isAlphanum_of_writes (by decide) (by decide) l.writes c hc

theorem not_mem_digits {c : Char} (hc : c.isAlphanum = false) : c ∉ l.digits := fun hmem => by
  simpa [hc] using l.isAlphanum_of_mem_digits hmem

theorem not_mem_text : '\r' ∉ l.text := by
  have hdigits : '\r' ∉ l.digits := l.not_mem_digits (by decide)
  unfold text
  cases hext : l.extension with
  | none => simpa using hdigits
  | some e => simpa [hdigits] using (l.oneLine e hext).1

/-- The size is what stands before the semicolon. -/
theorem cut?_text : ((cut? [';'] l.text).map (·.1)).getD l.text = l.digits := by
  have hdigits : ';' ∉ l.digits := l.not_mem_digits (by decide)
  unfold text
  cases hext : l.extension with
  | none =>
    rw [Option.map_none, Option.getD_none, List.append_nil, cut?_eq_none_of_not_mem hdigits]
    rfl
  | some e =>
    have hcut : cut? [';'] (l.digits ++ ';' :: e) = some (l.digits, e) := cut?_of_not_mem hdigits e
    rw [Option.map_some, Option.getD_some, hcut]
    rfl

/-- A size line is read as the size that it tells. -/
theorem chunkSizeOfLine_text (hn : n < UInt64.size) :
    chunkSizeOfLine (Utf8.encode l.text) = .ok n := by
  have htrim : trim l.digits = l.digits :=
    trim_eq_self fun c hc => isBlank_eq_false_of_isAlphanum (l.isAlphanum_of_mem_digits hc)
  simp only [chunkSizeOfLine, Utf8.decode?_encode, l.cut?_text, htrim,
    Numeral.read?_of_writes (by decide) (by decide) l.writes hn]

theorem endsAt {limit : Nat} (h : (Utf8.encode l.text).length + 4 ≤ limit) :
    EndsAt limit lineEnd (Utf8.encode l.text) :=
  endsAt_lineEnd (Utf8.not_mem_encode (c := '\r') (by decide) l.not_mem_text) h

end SizeLine

/-! ## Header blocks -/

/-- The line of a field is read as the field. -/
theorem field?_fieldLine {f : String × String} (h : Writable f) :
    field? (Outgoing.fieldLine f) = some f := by
  have hcut : cut? [':'] (Outgoing.fieldLine f) = some (f.1.toList, ' ' :: f.2.toList) := by
    rw [Outgoing.fieldLine, List.append_assoc]
    exact cut?_of_not_mem h.colon _
  have htrim : trim (' ' :: f.2.toList) = f.2.toList := by
    rw [trim_cons_of_isBlank (by decide), h.value.trim_eq]
  simp only [field?, hcut, Option.map_some, h.name.trim_eq, htrim, String.ofList_toList]

theorem filterMap_field?_fieldLine {fields : Fields} (h : ∀ f ∈ fields, Writable f) :
    (fields.map Outgoing.fieldLine).filterMap field? = fields := by
  induction fields with
  | nil => rfl
  | cons f fields ih =>
    rw [List.map_cons, List.filterMap_cons_some (field?_fieldLine (h f List.mem_cons_self)),
      ih fun g hg => h g (List.mem_cons_of_mem _ hg)]

theorem not_mem_fieldLine {f : String × String} (h : Writable f) :
    '\r' ∉ Outgoing.fieldLine f := by
  have hname := h.name.oneLine.1
  have hvalue := h.value.oneLine.1
  simp [Outgoing.fieldLine, hname, hvalue]

/-- A field of another name settles nothing. -/
theorem extent_after_other {f : String × String} (e : Extent)
    (h : sameField f.1 "transfer-encoding" = false ∧ sameField f.1 "content-length" = false) :
    e.after f = .ok e := by
  simp only [Extent.after, h.1, h.2, Bool.false_and, Bool.false_eq_true, if_false]

theorem foldlM_extent_after_other {fields : Fields} (e : Extent)
    (h : ∀ f ∈ fields, sameField f.1 "transfer-encoding" = false ∧
      sameField f.1 "content-length" = false) :
    fields.foldlM Extent.after e = .ok e := by
  induction fields with
  | nil => rfl
  | cons f fields ih =>
    rw [List.foldlM_cons, extent_after_other e (h f List.mem_cons_self)]
    exact ih fun f hf => h f (List.mem_cons_of_mem _ hf)

/-- A field that tells a length settles the extent. -/
theorem extent_after_length {f : String × String} {n : Nat}
    (named : sameField f.1 "content-length" = true) (told : Numeral.Writes 10 f.2.toList n)
    (hn : n < UInt64.size) : Extent.empty.after f = .ok (.length n) := by
  have hother : sameField f.1 "transfer-encoding" = false := by
    simp only [sameField, sameName, beq_iff_eq] at named
    simp only [sameField, sameName, named]
    decide
  simp only [Extent.after, hother, named, Bool.false_and, Bool.false_eq_true, if_false,
    Numeral.read?_of_writes (by decide) (by decide) told hn]
  rfl

/-- A field that tells of chunks settles the extent. -/
theorem extent_after_chunked {f : String × String} (e : Extent)
    (named : sameField f.1 "transfer-encoding" = true) (told : sameField f.2 "chunked" = true)
    (htrim : trim f.2.toList = f.2.toList) : e.after f = .ok .chunked := by
  have hcomma : ',' ∉ f.2.toList := not_mem_of_sameName told (by decide)
  have hends : endsChunked f.2.toList = true := by
    rw [endsChunked, pieces_of_cut?_eq_none (cut?_eq_none_of_not_mem hcomma),
      List.getLast?_singleton, Option.any_some, htrim]
    exact told
  simp only [Extent.after, named, hends, Bool.and_self, if_true]

namespace Written

variable (w : Written)

theorem ofFields_fields : Extent.ofFields w.fields = .ok w.body.extent := by
  have hother := List.forall_mem_append.1 w.fields_other
  have hafter (e : Extent) := foldlM_extent_after_other e hother.2
  rw [Extent.ofFields, fields, List.append_assoc, List.foldlM_append,
    foldlM_extent_after_other _ hother.1]
  show (w.body.fields ++ w.after).foldlM Extent.after .empty = _
  cases hbody : w.body with
  | sized field data named told length_lt =>
    show ((Extent.empty.after field).bind fun e => w.after.foldlM Extent.after e) = _
    rw [extent_after_length named told length_lt]
    exact hafter _
  | chunked field chunks last trailers named told lines =>
    have hwritable : Writable field := w.fields_writable field (by simp [hbody, Body.fields])
    show ((Extent.empty.after field).bind fun e => w.after.foldlM Extent.after e) = _
    rw [extent_after_chunked _ named told hwritable.value.trim_eq]
    exact hafter _
  | none => exact hafter _

/-- The lines of a header block behind the first. -/
def fieldLines : List (List Char) :=
  w.fields.map Outgoing.fieldLine

theorem not_mem_toDigits {c : Char} (n : Nat) (hc : c.isAlphanum = false) :
    c ∉ Nat.toDigits 10 n := fun hmem => by
  have halpha := Numeral.isAlphanum_of_writes (by decide) (by decide)
    (Numeral.writes_toDigits_ten n) c hmem
  simp [hc] at halpha

/-- The first line is read as the code and the words that it tells. -/
theorem statusLine?_statusLine :
    statusLine? w.statusLine = some (w.code, w.reason.getD []) := by
  have hversion : ' ' ∉ "HTTP/".toList ++ w.version :=
    fun h => (List.mem_append.1 h).elim (by decide) w.version_word.1
  have hcode : ' ' ∉ Nat.toDigits 10 w.code.toNat := not_mem_toDigits _ (by decide)
  have hcut : cut? [' '] w.statusLine = some ("HTTP/".toList ++ w.version,
      Nat.toDigits 10 w.code.toNat ++ (w.reason.map (' ' :: ·)).getD []) :=
    cut?_of_not_mem hversion _
  have hprefix : "HTTP/".toList.isPrefixOf ("HTTP/".toList ++ w.version) = true :=
    List.isPrefixOf_iff_prefix.2 (List.prefix_append _ _)
  have hread : Numeral.read? 10 UInt16.size (Nat.toDigits 10 w.code.toNat) = some w.code.toNat :=
    Numeral.read?_of_writes (by decide) (by decide) (Numeral.writes_toDigits_ten _)
      w.code.toNat_lt_size
  have hwords : (cut? [' '] (Nat.toDigits 10 w.code.toNat ++
      (w.reason.map (' ' :: ·)).getD [])).getD (Nat.toDigits 10 w.code.toNat ++
        (w.reason.map (' ' :: ·)).getD [], []) =
      (Nat.toDigits 10 w.code.toNat, w.reason.getD []) := by
    cases w.reason with
    | none =>
      rw [Option.map_none, Option.getD_none, List.append_nil, cut?_eq_none_of_not_mem hcode]
      rfl
    | some r =>
      have hcut' : cut? [' '] (Nat.toDigits 10 w.code.toNat ++ ' ' :: r) =
        some (Nat.toDigits 10 w.code.toNat, r) := cut?_of_not_mem hcode r
      rw [Option.map_some, Option.getD_some, hcut']
      rfl
  have htrim : trim (w.reason.getD []) = w.reason.getD [] := by
    cases hreason : w.reason with
    | none => rfl
    | some r => exact (w.reason_trimmed r hreason).trim_eq
  simp only [statusLine?, hcut, hprefix, if_true, hwords, hread, Option.map_some,
    UInt16.ofNat_toNat, htrim]

theorem not_mem_statusLine : '\r' ∉ w.statusLine := by
  have hversion := w.version_word.2.1
  have hcode : '\r' ∉ Nat.toDigits 10 w.code.toNat := not_mem_toDigits _ (by decide)
  unfold statusLine
  cases hreason : w.reason with
  | none => simp [hversion, hcode]
  | some r =>
    have hr := (w.reason_trimmed r hreason).oneLine.1
    simp [hversion, hcode, hr]

/-- A header block is read as the head and the extent that it tells. -/
theorem headerOfBlock_block : headerOfBlock w.block = .ok (w.header, w.body.extent) := by
  have hlines : ∀ line ∈ w.fieldLines, '\r' ∉ line := by
    simp only [fieldLines, List.mem_map, forall_exists_index, and_imp, forall_apply_eq_imp_iff₂]
    exact fun f hf => not_mem_fieldLine (w.fields_writable f hf)
  have hpieces : pieces ['\r', '\n'] w.blockText = w.statusLine :: w.fieldLines :=
    pieces_append_flatMap w.not_mem_statusLine hlines
  have hfields : w.fieldLines.filterMap field? = w.fields :=
    filterMap_field?_fieldLine w.fields_writable
  simp only [headerOfBlock, block, Utf8.decode?_encode, hpieces, headerOfLines,
    w.statusLine?_statusLine, hfields, w.ofFields_fields]
  rfl

/-- The bytes of a header block, line by line. -/
theorem block_eq : w.block =
    Utf8.encode w.statusLine ++ (w.fieldLines.map Utf8.encode).flatMap (lineEnd ++ ·) := by
  rw [block, blockText, Utf8.encode_append, ← fieldLines, Utf8.encode_flatMap_append]
  rfl

theorem endsAt_block {limit : Nat} (h : w.block.length + 4 ≤ limit) :
    EndsAt limit blockEnd w.block := by
  refine ⟨?_, h⟩
  have hlines : ∀ line ∈ w.fieldLines.map Utf8.encode, line ≠ [] ∧ 13 ∉ line := by
    simp only [fieldLines, List.mem_map, forall_exists_index, and_imp, forall_apply_eq_imp_iff₂]
    intro f hf
    refine ⟨fun hnil => ?_, Utf8.not_mem_encode (c := '\r') (by decide)
      (not_mem_fieldLine (w.fields_writable f hf))⟩
    simpa [Outgoing.fieldLine] using Utf8.encode_eq_nil_iff.1 hnil
  have hcut := cut?_blockEnd (Utf8.not_mem_encode (c := '\r') (by decide) w.not_mem_statusLine)
    hlines []
  rwa [List.append_nil, ← List.append_assoc, ← w.block_eq] at hcut

end Written

/-! ## Bodies -/

/-- Chunks lie ahead of a framer that expects the size of one. -/
theorem ahead_chunks {limit : Nat} {chunks : List Chunk} {rest : Bytes} {frames : List Frame}
    (hfits : ∀ c ∈ chunks, (Utf8.encode c.line.text).length + 4 ≤ limit)
    (h : Ahead limit .size rest frames) :
    Ahead limit .size (chunks.flatMap Chunk.bytes ++ rest)
      (chunks.map (.content ·.data) ++ frames) := by
  induction chunks with
  | nil => exact h
  | cons c chunks ih =>
    obtain ⟨hc, hchunks⟩ := List.forall_mem_cons.1 hfits
    have hphase : afterSize c.data.length = .chunk c.data.length := by
      obtain ⟨b, more, hdata⟩ := List.exists_cons_of_ne_nil c.data_ne_nil
      rw [hdata]
      rfl
    have hdata : Ahead limit (afterSize c.data.length)
        (c.data ++ (lineEnd ++ (chunks.flatMap Chunk.bytes ++ rest)))
        (.content c.data :: (chunks.map (.content ·.data) ++ frames)) := by
      rw [hphase]
      exact .chunk c.data_ne_nil (.chunkEnd (ih hchunks))
    simpa [Chunk.bytes] using
      Ahead.size (c.line.endsAt hc) (c.line.chunkSizeOfLine_text c.length_lt) hdata

/-- The lines behind the last chunk, and the empty one, lie ahead of a framer that expects them. -/
theorem ahead_trailers {limit : Nat} {trailers : List Bytes} {rest : Bytes} {frames : List Frame}
    (hroom : 4 ≤ limit) (hlines : ∀ line ∈ trailers, line ≠ [] ∧ 13 ∉ line ∧ 10 ∉ line)
    (hfits : ∀ line ∈ trailers, line.length + 4 ≤ limit) (h : Ahead limit .last rest frames) :
    Ahead limit .trailer (trailers.flatMap (· ++ lineEnd) ++ (lineEnd ++ rest)) frames := by
  induction trailers with
  | nil =>
    have hempty : EndsAt limit lineEnd [] := endsAt_lineEnd (by simp) (by simpa using hroom)
    exact .trailer hempty h
  | cons line trailers ih =>
    obtain ⟨⟨hne, hline, -⟩, hmore⟩ := List.forall_mem_cons.1 hlines
    obtain ⟨hfit, hmorefit⟩ := List.forall_mem_cons.1 hfits
    obtain ⟨b, rest, rfl⟩ := List.exists_cons_of_ne_nil hne
    simpa using Ahead.trailer (endsAt_lineEnd hline hfit) (ih hmore hmorefit)

namespace Body

/-- The pieces in which a body is sent. -/
def parts : Body → List Bytes
  | sized _ data .. => if data = [] then [] else [data]
  | chunked _ chunks .. => chunks.map (·.data)
  | none => []

theorem flatten_parts (b : Body) : b.parts.flatten = b.data := by
  cases b with
  | sized _ bytes => by_cases h : bytes = [] <;> simp [parts, Body.data, h]
  | chunked => simp [parts, Body.data, List.flatMap_def]
  | none => rfl

theorem ne_nil_of_mem_parts {b : Body} {part : Bytes} (h : part ∈ b.parts) : part ≠ [] := by
  cases b with
  | sized _ data =>
    by_cases hdata : data = []
    · simp [parts, hdata] at h
    · simp only [parts, if_neg hdata, List.mem_singleton] at h
      rwa [h]
  | chunked _ chunks =>
    obtain ⟨c, -, rfl⟩ := List.mem_map.1 h
    exact c.data_ne_nil
  | none => cases h

/-- What is sent for a body lies ahead of a framer that has read the head. -/
theorem ahead {limit : Nat} {b : Body} {rest : Bytes} {frames : List Frame} (hroom : 4 ≤ limit)
    (hfits : b.Fits limit) (h : Ahead limit .last rest frames) :
    Ahead limit (.ofExtent b.extent) (b.bytes ++ rest) (b.parts.map .content ++ frames) := by
  cases b with
  | sized field data =>
    cases data with
    | nil => exact h
    | cons b more => exact Ahead.fixed (List.cons_ne_nil b more) h
  | chunked field chunks last trailers named told lines =>
    obtain ⟨hchunks, hlast, htrailers⟩ := hfits
    have htail := Ahead.size (last.endsAt hlast) (last.chunkSizeOfLine_text (by decide))
      (ahead_trailers hroom lines htrailers h)
    have hall := ahead_chunks hchunks htail
    show Ahead limit .size _ _
    simpa [bytes, parts, Function.comp_def] using hall
  | none => exact h

end Body

/-! ## Replies -/

/-- Non-empty pieces in front of the end of a reply are joined to one piece. -/
theorem merge_contents_last {parts : List Bytes} (hparts : ∀ part ∈ parts, part ≠ [])
    (rest : List Frame) :
    Frame.merge (parts.map .content ++ .last [] :: rest) =
      (if parts.flatten = [] then [] else [.content parts.flatten]) ++
        .last [] :: Frame.merge rest := by
  induction parts with
  | nil => simp [Frame.glue]
  | cons part parts ih =>
    obtain ⟨hpart, hmore⟩ := List.forall_mem_cons.1 hparts
    have hne : ¬ part ++ parts.flatten = [] := fun h => hpart (List.append_eq_nil_iff.1 h).1
    rw [List.map_cons, List.cons_append, Frame.merge_cons, ih hmore, List.flatten_cons, if_neg hne]
    by_cases h : parts.flatten = []
    · rw [if_pos h, h, List.append_nil]
      rfl
    · rw [if_neg h]
      rfl

namespace Written

/-- What is sent for some replies lies ahead of a framer that expects one. -/
theorem ahead {limit : Nat} {replies : List Written} (hfits : ∀ w ∈ replies, w.Fits limit) :
    ∃ owed, Ahead limit .header (replies.flatMap wire) owed ∧
      Frame.merge owed = replies.flatMap frames := by
  induction replies with
  | nil => exact ⟨[], .done, rfl⟩
  | cons w replies ih =>
    obtain ⟨⟨hblock, hbody⟩, hreplies⟩ := List.forall_mem_cons.1 hfits
    obtain ⟨owed, hahead, hmerge⟩ := ih hreplies
    refine ⟨.header w.header :: (w.body.parts.map .content ++ .last [] :: owed), ?_, ?_⟩
    · have hrest := Body.ahead (by omega) hbody (.last hahead)
      simpa [wire] using Ahead.header (w.endsAt_block hblock) w.headerOfBlock_block hrest
    · rw [Frame.merge_cons, merge_contents_last (fun _ => Body.ne_nil_of_mem_parts), hmerge,
        w.body.flatten_parts, List.flatMap_cons, frames]
      simp [Frame.glue]

end Written

/-- Whatever replies a server writes and wherever the network cuts what it sends, a fresh framer
takes the pieces in without a fault. It hands on, reply by reply, the head, the bytes of the body,
cut at any places, and the end. Afterwards it is idle. -/
theorem Framer.pushAll_wire (limit : Nat) (replies : List Written) (pieces : List Bytes)
    (hfits : ∀ w ∈ replies, w.Fits limit) (hwire : pieces.flatten = replies.flatMap Written.wire) :
    ∃ frames f, ({ limit := limit } : Framer).pushAll pieces = (.ok frames, f) ∧
      Frame.merge frames = replies.flatMap Written.frames ∧ f.isIdle = true := by
  obtain ⟨owed, hahead, hmerge⟩ := Written.ahead hfits
  have htrack : OnTrack limit { limit := limit } pieces.flatten owed :=
    ⟨rfl, by rw [hwire]; exact hahead⟩
  have hwait : ({ limit := limit } : Framer).step = .wait := by
    simp [Framer.step, cut?_nil (show blockEnd ≠ [] by decide), OnTrack.await_eq_wait]
  obtain ⟨frames, f, hpush, hidle, hframes⟩ := htrack.pushAll hwait
  exact ⟨frames, f, hpush, hframes.trans hmerge, hidle⟩

/-- A reply with a body in two chunks and a line behind them. -/
def Written.inChunks : Written where
  version := "1.1".toList
  code := 200
  reason := some "OK".toList
  before := [("Server", "node")]
  body := .chunked ("transfer-encoding", "Chunked")
    [⟨[123], ⟨"01".toList, some "q=1".toList, ⟨1, by decide⟩, by decide⟩, by decide, by decide⟩,
      ⟨[125, 10], ⟨"2".toList, none, ⟨0, by decide⟩, by decide⟩, by decide, by decide⟩]
    ⟨"00".toList, none, ⟨1, by decide⟩, by decide⟩ [[84, 58, 49]]
    (by decide) (by decide) (by decide)
  after := [("Date", "")]
  version_word := by decide
  reason_trimmed := by decide
  fields_writable := by decide
  fields_other := by decide

/-- Two replies in chunks, one byte after another. -/
theorem Framer.pushAll_wire_bytewise :
    (∀ w ∈ [Written.inChunks, Written.inChunks], w.Fits 100) ∧
      ∃ frames f, ({ limit := 100 } : Framer).pushAll
          (([Written.inChunks, Written.inChunks].flatMap Written.wire).map ([·])) =
            (.ok frames, f) ∧
        Frame.merge frames =
          [.header Written.inChunks.header, .content [123, 125, 10], .last [],
            .header Written.inChunks.header, .content [123, 125, 10], .last []] ∧
        f.isIdle = true := by
  have hfits : ∀ w ∈ [Written.inChunks, Written.inChunks], w.Fits 100 := by decide
  refine ⟨hfits, Framer.pushAll_wire 100 _ _ hfits ?_⟩
  rw [← List.flatMap_def, List.flatMap_singleton']

end ClusterLink.Reply
