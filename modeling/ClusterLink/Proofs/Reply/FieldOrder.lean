import ClusterLink.Proofs.Reply.HeaderBlock
import Mathlib.Data.Set.List

/-!
# The order of header fields

The lines of a header block may come in another order, as long as those of one name
keep theirs (`Reordered`). Two blocks that differ in this way and that are both read
end the body in the same way, and chunks take precedence over a length on whichever
side of it they are announced (`headerOfBlock_reordered`).

Whether a block is read can depend on the order, but for one reason only: a length
that cannot be read is passed over behind the first field that announces chunks and
is a fault in front of it. So the order is free if no field announces chunks, or if
every length can be read (`AnyOrder`).

## The argument

A block is taken as the bytes of its lines (`joinLines`), so that nothing is assumed
of their encoding. It is understood exactly if every line is in UTF-8, the first is a
status line, and the lengths are told as they have to be
(`headerOfBlock_joinLines_eq_ok_iff`). Of these conditions only the last depends on
the order. What the fields tell does not: it is determined by which fields there are
and by the last of those that give a length.
-/

namespace ClusterLink.Reply

open Text

/-! ## Lines as bytes -/

/-- The bytes of a header block with these lines. -/
def joinLines (status : Bytes) (lines : List Bytes) : Bytes :=
  status ++ lines.flatMap (lineEnd ++ ·)

/-- The field that a line gives, if it is in UTF-8 and has a colon. -/
def fieldOf? (line : Bytes) : Option (String × String) :=
  (Utf8.decode? line).bind field?

/-- The fields that some lines give, in order. -/
def fieldsOf (lines : List Bytes) : Fields := lines.filterMap fieldOf?

variable {status : Bytes} {lines lines' : List Bytes}

theorem encode_lineEnd : Utf8.encode ['\r', '\n'] = lineEnd := by
  rfl

/-- A line end stands in the bytes of a line where it stands in the line. -/
theorem lineEnd_infix_encode_iff {line : List Char} :
    lineEnd <:+: Utf8.encode line ↔ ['\r', '\n'] <:+: line := by
  have hascii : ∀ c ∈ ['\r', '\n'], c.toNat < 0x80 := by simp
  rw [← encode_lineEnd]
  exact Utf8.encode_infix_encode_iff hascii

theorem encode_join (status : List Char) (lines : List (List Char)) :
    Utf8.encode (status ++ lines.flatMap (['\r', '\n'] ++ ·)) =
      joinLines (Utf8.encode status) (lines.map Utf8.encode) := by
  rw [Utf8.encode_append, Utf8.encode_flatMap_append]
  rfl

theorem pieces_joinLines (hwhole : ∀ line ∈ status :: lines, ¬ lineEnd <:+: line) :
    pieces lineEnd (joinLines status lines) = status :: lines :=
  (pieces_eq_cons_iff (by decide)).2 ⟨rfl, hwhole⟩

/-- The lines of a block that is put together from lines are these. -/
theorem hasLines_joinLines_iff (hwhole : ∀ line ∈ status :: lines, ¬ lineEnd <:+: line)
    {first : List Char} {more : List (List Char)} :
    HasLines (joinLines status lines) first more ↔
      status = Utf8.encode first ∧ lines = more.map Utf8.encode := by
  constructor
  · rintro ⟨hblock, hmore⟩
    have hbytes : ∀ line ∈ Utf8.encode first :: more.map Utf8.encode, ¬ lineEnd <:+: line := by
      rw [← List.map_cons]
      exact List.forall_mem_map.2 fun line hline => mt lineEnd_infix_encode_iff.1 (hmore line hline)
    have hjoin := pieces_joinLines hwhole
    rw [hblock, encode_join, pieces_joinLines hbytes] at hjoin
    obtain ⟨hstatus, hlines⟩ := List.cons.inj hjoin
    exact ⟨hstatus.symm, hlines.symm⟩
  · rintro ⟨rfl, rfl⟩
    refine ⟨(encode_join first more).symm, fun line hline hend => ?_⟩
    refine hwhole (Utf8.encode line) ?_ ?_
    · rw [← List.map_cons]
      exact List.mem_map_of_mem hline
    · exact lineEnd_infix_encode_iff.2 hend

theorem fieldsOf_encode (lines : List (List Char)) :
    fieldsOf (lines.map Utf8.encode) = lines.filterMap field? := by
  rw [fieldsOf, List.filterMap_map]
  refine List.filterMap_congr fun line _ => ?_
  rw [Function.comp_apply, fieldOf?, Utf8.decode?_encode, Option.bind_some]

/-- A block of lines is understood line by line. -/
theorem headerOfBlock_joinLines_eq_ok_iff (hwhole : ∀ line ∈ status :: lines, ¬ lineEnd <:+: line)
    {head : Header} {extent : Extent} :
    headerOfBlock (joinLines status lines) = .ok (head, extent) ↔
      (∃ first, status = Utf8.encode first ∧ IsStatusLine first head.code head.reason.toList) ∧
        (∀ line ∈ lines, ∃ text, line = Utf8.encode text) ∧
        fieldsOf lines = head.fields ∧ LengthsTold head.fields ∧
        extent.Tells head.fields := by
  rw [(headerOfBlock_means _).2]
  constructor
  · rintro ⟨first, more, hlines, hstatus, hfields, hlengths, htells⟩
    obtain ⟨rfl, rfl⟩ := (hasLines_joinLines_iff hwhole).1 hlines
    refine ⟨⟨first, rfl, hstatus⟩, fun line hline => ?_, ?_, hlengths, htells⟩
    · obtain ⟨text, -, rfl⟩ := List.mem_map.1 hline
      exact ⟨text, rfl⟩
    · rw [fieldsOf_encode, hasFields_iff.1 hfields]
  · rintro ⟨⟨first, rfl, hstatus⟩, htexts, hfields, hlengths, htells⟩
    obtain ⟨more, rfl⟩ : lines ∈ Set.range (List.map Utf8.encode) := by
      rw [Set.range_list_map]
      exact fun line hline => (htexts line hline).imp fun _ => Eq.symm
    rw [fieldsOf_encode] at hfields
    exact ⟨first, more, (hasLines_joinLines_iff hwhole).2 ⟨rfl, rfl⟩, hstatus,
      hasFields_iff.2 hfields, hlengths, htells⟩

/-! ## Lines in another order -/

/-- Whether a line gives a field of this name. -/
def named (name : String) (line : Bytes) : Bool :=
  (fieldOf? line).any (sameField ·.1 name)

/-- The same lines in another order, in which the lines of one name stand as before. -/
structure Reordered (lines lines' : List Bytes) : Prop where
  /-- The lines are the same. -/
  perm : lines.Perm lines'
  /-- Those of one name are in the same order. -/
  same : ∀ name, lines.filter (named name) = lines'.filter (named name)

theorem Reordered.symm (h : Reordered lines lines') : Reordered lines' lines :=
  ⟨h.perm.symm, fun name => (h.same name).symm⟩

/-- Whether two lines give fields of one name. -/
def sameNamed (a b : Bytes) : Bool :=
  (fieldOf? a).any fun f => named f.1 b

/-- Two neighbours with different names may change places. -/
theorem Reordered.swap {a b : Bytes} (h : sameNamed a b = false) (before after : List Bytes) :
    Reordered (before ++ a :: b :: after) (before ++ b :: a :: after) := by
  refine ⟨(List.Perm.swap b a after).append_left before, fun name => ?_⟩
  have hone : named name a = true → ¬ named name b = true := by
    intro ha hb
    obtain ⟨f, hf, hfname⟩ := (Option.any_eq_true _ _).1 ha
    obtain ⟨g, hg, hgname⟩ := (Option.any_eq_true _ _).1 hb
    simp only [sameField, sameName, beq_iff_eq] at hfname hgname
    simp [sameNamed, named, hf, hg, sameField, sameName, hfname, hgname] at h
  rw [List.filter_append, List.filter_append]
  congr 1
  by_cases ha : named name a = true
  · rw [List.filter_cons_of_pos ha, List.filter_cons_of_neg (hone ha),
      List.filter_cons_of_neg (hone ha), List.filter_cons_of_pos ha]
  · rw [List.filter_cons_of_neg ha, List.filter_cons, List.filter_cons, List.filter_cons_of_neg ha]

theorem filter_fieldsOf (name : String) (lines : List Bytes) :
    (fieldsOf lines).filter (sameField ·.1 name) =
      fieldsOf (lines.filter (named name)) := by
  rw [fieldsOf, fieldsOf, List.filter_filterMap, List.filterMap_filter]
  refine List.filterMap_congr fun line _ => ?_
  rw [named]
  cases hfield : fieldOf? line with
  | none => rfl
  | some f =>
    rw [Option.filter_some, Option.any_some]

/-- The fields of one name are the same. -/
theorem Reordered.fields_eq (h : Reordered lines lines') (name : String) :
    (fieldsOf lines).filter (sameField ·.1 name) =
      (fieldsOf lines').filter (sameField ·.1 name) := by
  rw [filter_fieldsOf, filter_fieldsOf, h.same name]

/-- The fields of all lines are the same but for their order. -/
theorem Reordered.mem_iff (h : Reordered lines lines') {f : String × String} :
    f ∈ fieldsOf lines ↔ f ∈ fieldsOf lines' :=
  (h.perm.filterMap fieldOf?).mem_iff

/-- What fields tell does not depend on their order. -/
theorem Reordered.tells (h : Reordered lines lines') {extent : Extent}
    (htells : extent.Tells (fieldsOf lines)) :
    extent.Tells (fieldsOf lines') := by
  obtain ⟨hchunked, hlength, hempty⟩ := htells
  have hlengths : (fieldsOf lines).filter Extent.givesLength =
      (fieldsOf lines').filter Extent.givesLength := h.fields_eq "content-length"
  simp only [h.mem_iff, hlengths] at hchunked hlength hempty
  exact ⟨hchunked, hlength, hempty⟩

/-! ## What the order decides -/

/-- Only the lengths can depend on the order of the lines. -/
theorem exists_headerOfBlock_joinLines_iff
    (hwhole : ∀ line ∈ status :: lines, ¬ lineEnd <:+: line) :
    (∃ told, headerOfBlock (joinLines status lines) = .ok told) ↔
      (∃ first code reason, status = Utf8.encode first ∧ IsStatusLine first code reason) ∧
        (∀ line ∈ lines, ∃ text, line = Utf8.encode text) ∧
        LengthsTold (fieldsOf lines) := by
  constructor
  · rintro ⟨⟨head, extent⟩, h⟩
    obtain ⟨⟨first, hfirst, hstatus⟩, htexts, hfields, hlengths, -⟩ :=
      (headerOfBlock_joinLines_eq_ok_iff hwhole).1 h
    exact ⟨⟨first, _, _, hfirst, hstatus⟩, htexts, hfields ▸ hlengths⟩
  · rintro ⟨⟨first, code, reason, hfirst, hstatus⟩, htexts, hlengths⟩
    obtain ⟨extent, htells⟩ := exists_tells hlengths
    refine ⟨(⟨code, String.ofList reason, fieldsOf lines⟩, extent), ?_⟩
    refine (headerOfBlock_joinLines_eq_ok_iff hwhole).2 ⟨⟨first, hfirst, ?_⟩, htexts, rfl, hlengths,
      htells⟩
    rwa [String.toList_ofList]

/-- The order of these fields cannot decide anything: none of them announces chunks, or every length
among them can be read. -/
def AnyOrder (fields : Fields) : Prop :=
  (∀ f ∈ fields, ¬ Announces f) ∨
    ∀ f ∈ fields, Extent.givesLength f = true → ∃ n, TellsNumber 10 f.2.toList n

theorem Reordered.anyOrder (h : Reordered lines lines') (hany : AnyOrder (fieldsOf lines)) :
    AnyOrder (fieldsOf lines') := by
  simpa only [AnyOrder, h.mem_iff] using hany

/-- If the order cannot decide anything, it does not decide whether the lengths are told. -/
theorem Reordered.lengthsTold (h : Reordered lines lines') (hany : AnyOrder (fieldsOf lines))
    (hlengths : LengthsTold (fieldsOf lines)) : LengthsTold (fieldsOf lines') := by
  have hall : ∀ f ∈ fieldsOf lines, Extent.givesLength f = true →
      ∃ n, TellsNumber 10 f.2.toList n := by
    rcases hany with hnone | hall
    · exact hlengths.forall hnone
    · exact hall
  exact lengthsTold_of_forall fun f hf => hall f (h.mem_iff.2 hf)

/-- **The order of the fields does not decide how a body ends.** For every block and every order of
its lines in which those of one name stand as before: if both blocks are read, they end the body in
the same way, namely in chunks as soon as some field announces them. If one is read, so is the
other, unless it has a length that cannot be read in front of the first such field. -/
theorem headerOfBlock_reordered (hwhole : ∀ line ∈ status :: lines, ¬ lineEnd <:+: line)
    (h : Reordered lines lines') :
    (∀ head extent, headerOfBlock (joinLines status lines) = .ok (head, extent) →
      (∀ head' extent', headerOfBlock (joinLines status lines') = .ok (head', extent') →
        extent' = extent) ∧
      ((∃ told, headerOfBlock (joinLines status lines') = .ok told) ↔
        LengthsTold (fieldsOf lines')) ∧
      (extent = .chunked ↔ ∃ f ∈ fieldsOf lines, Announces f)) ∧
    (AnyOrder (fieldsOf lines) →
      ((∃ told, headerOfBlock (joinLines status lines) = .ok told) ↔
        ∃ told, headerOfBlock (joinLines status lines') = .ok told)) := by
  have hwhole' : ∀ line ∈ status :: lines', ¬ lineEnd <:+: line := by
    simpa only [List.mem_cons, h.perm.mem_iff] using hwhole
  have hok := exists_headerOfBlock_joinLines_iff hwhole
  have hok' := exists_headerOfBlock_joinLines_iff hwhole'
  have htexts : (∀ line ∈ lines', ∃ text, line = Utf8.encode text) ↔
      ∀ line ∈ lines, ∃ text, line = Utf8.encode text := by
    simp only [h.perm.mem_iff]
  rw [htexts] at hok'
  refine ⟨fun head extent hhead => ⟨fun head' extent' hhead' => ?_, ?_, ?_⟩, fun hany => ?_⟩
  · obtain ⟨-, -, hfields, -, htells⟩ := (headerOfBlock_joinLines_eq_ok_iff hwhole).1 hhead
    obtain ⟨-, -, hfields', -, htells'⟩ := (headerOfBlock_joinLines_eq_ok_iff hwhole').1 hhead'
    rw [← hfields] at htells
    rw [← hfields'] at htells'
    exact htells'.unique (h.tells htells)
  · obtain ⟨hstatus, hlines, -⟩ := hok.1 ⟨_, hhead⟩
    exact ⟨fun hsome => (hok'.1 hsome).2.2, fun hlengths => hok'.2 ⟨hstatus, hlines, hlengths⟩⟩
  · obtain ⟨-, -, hfields, -, htells⟩ := (headerOfBlock_joinLines_eq_ok_iff hwhole).1 hhead
    rw [hfields]
    exact htells.chunked_iff
  · rw [hok, hok']
    have hlengths : LengthsTold (fieldsOf lines) ↔ LengthsTold (fieldsOf lines') :=
      ⟨h.lengthsTold hany, h.symm.lengthsTold (h.anyOrder hany)⟩
    rw [hlengths]

/-- A length stands behind an announcement of chunks, and in front of it. -/
theorem headerOfBlock_reordered_chunked :
    let status := Utf8.encode "HTTP/1.1 200 OK".toList
    let length := Utf8.encode "Content-Length: 5".toList
    let coding := Utf8.encode "transfer-encoding: gzip, Chunked".toList
    (∀ line ∈ [status, coding, length], ¬ lineEnd <:+: line) ∧
      Reordered [coding, length] [length, coding] ∧
      ∃ head, headerOfBlock (joinLines status [length, coding]) = .ok (head, .chunked) := by
  intro status length coding
  have hwhole : ∀ line ∈ [status, coding, length], ¬ lineEnd <:+: line := by decide +kernel
  have hswap : Reordered [coding, length] [length, coding] := .swap (by decide +kernel) [] []
  have hfields : fieldsOf [coding, length] =
      [("transfer-encoding", "gzip, Chunked"), ("Content-Length", "5")] := by decide +kernel
  have hany : AnyOrder (fieldsOf [coding, length]) := by
    rw [hfields]
    refine .inr (List.forall_mem_cons.2 ⟨fun hgives => ?_, List.forall_mem_singleton.2 fun _ => ?_⟩)
    · exact absurd hgives (by decide)
    · exact ⟨5, read?_length_iff.1 (by decide)⟩
  have hok : headerOfBlock (joinLines status [coding, length]) =
      .ok (⟨200, "OK", [("transfer-encoding", "gzip, Chunked"), ("Content-Length", "5")]⟩,
        .chunked) := by decide +kernel
  obtain ⟨hsame, haccepts⟩ := headerOfBlock_reordered hwhole hswap
  obtain ⟨⟨head, extent⟩, hok'⟩ := (haccepts hany).1 ⟨_, hok⟩
  obtain rfl := (hsame _ _ hok).1 head extent hok'
  exact ⟨hwhole, hswap, head, hok'⟩

/-- A length that cannot be read is passed over behind an announcement of chunks, but in front of it
the block is refused. -/
theorem headerOfBlock_order_counts :
    let status := Utf8.encode "HTTP/1.1 200 OK".toList
    let length := Utf8.encode "Content-Length: x".toList
    let coding := Utf8.encode "Transfer-Encoding: chunked".toList
    (∀ line ∈ [status, coding, length], ¬ lineEnd <:+: line) ∧
      Reordered [coding, length] [length, coding] ∧
      headerOfBlock (joinLines status [coding, length]) =
        .ok (⟨200, "OK", [("Transfer-Encoding", "chunked"), ("Content-Length", "x")]⟩, .chunked) ∧
      headerOfBlock (joinLines status [length, coding]) = .error (.contentLength ['x']) := by
  refine ⟨by decide +kernel, .swap (by decide +kernel) [] [], by decide +kernel, by decide +kernel⟩

end ClusterLink.Reply
