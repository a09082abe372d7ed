import ClusterLink.Proofs.Reply.HeaderBlock

/-!
# How lengths are read

The end of a body is told by a number, in decimal digits in a header field or in
hexadecimal digits in front of a chunk. The protocol allows one or more digits and
nothing else, of a value below `2 ^ 64` (`IsLength`); a text is read strictly if it is
read as the number that it writes, or refused if it does not write one (`Strict`).

Here lengths are not always read strictly. A plus sign in front of a length is passed
over, in both places (`not_strict_sign`), and this is the only exception
(`MadeOf.strict_iff`).

`MadeOf` puts both places into one form: a text that stands for a length, and what is
made of it. A field is looked at only if it can matter, so `FramedBy` says which value
of a block is the one that counts. Every line in front of a chunk has a text, if it is in
UTF-8, and is refused otherwise (`exists_madeOf`).

## The argument

Both readers come down to `Numeral.read?` (`MadeOf.result_eq`), of which it is known what
it reads. For a chunk this is seen by cutting the line at its first semicolon
(`InFront.chunkSizeOfLine_eq`). For a field, the fields in front of it settle some extent
other than chunks, the field then decides, and nothing behind it changes that
(`Extent.ofFields_last`).
-/

namespace ClusterLink.Reply

open Text

/-! ## The length of a body -/

/-- The values that frame the body of a block: the last length that is given, where no field
announces chunks. The lengths in front of it can be read, so that it is looked at. -/
inductive FramedBy (block : Bytes) : String → Prop where
  /-- The value of a field of the block. -/
  | field {status : List Char} {lines : List (List Char)} {before after : Fields}
      {f : String × String} : HasLines block status lines →
      (∃ code reason, IsStatusLine status code reason) → HasFields lines (before ++ f :: after) →
      Extent.givesLength f = true → (∀ g ∈ after, Extent.givesLength g = false) →
      (∀ g ∈ before ++ f :: after, ¬ Announces g) →
      (∀ g ∈ before, Extent.givesLength g = true → ∃ n, TellsNumber 10 g.2.toList n) →
      FramedBy block f.2

/-- A block whose only field gives a length is framed by it. -/
theorem FramedBy.single {block : Bytes} {status line reason : List Char} {code : UInt16}
    {f : String × String} (hlines : HasLines block status [line])
    (hstatus : statusLine? status = some (code, reason)) (hfield : field? line = some f)
    (hgives : Extent.givesLength f = true) : FramedBy block f.2 := by
  have hfields : HasFields [line] ([] ++ [f]) := by
    rw [hasFields_iff, List.filterMap_cons_some hfield]
    rfl
  refine .field hlines ⟨code, reason, statusLine?_eq_some_iff.1 hstatus⟩ hfields hgives
    (List.forall_mem_nil _) (List.forall_mem_singleton.2 fun hannounces => ?_)
    (List.forall_mem_nil _)
  rw [hannounces.givesLength_eq] at hgives
  cases hgives

namespace Extent

variable {before after : Fields} {f : String × String}

/-- The last length that is given decides. -/
theorem ofFields_last (hgives : givesLength f = true) (hafter : ∀ g ∈ after, givesLength g = false)
    (hchunks : ∀ g ∈ before ++ f :: after, ¬ Announces g)
    (hbefore : ∀ g ∈ before, givesLength g = true → ∃ n, TellsNumber 10 g.2.toList n) :
    ofFields (before ++ f :: after) =
      match Numeral.read? 10 UInt64.size f.2.toList with
      | some n => .ok (.length n)
      | none => .error (.contentLength f.2.toList) := by
  have hnone : ∀ g ∈ before ++ f :: after, announcesChunks g = false :=
    fun g hg => not_announces_iff.1 (hchunks g hg)
  cases hread : Numeral.read? 10 UInt64.size f.2.toList with
  | some n =>
    have htold : ToldBy (before ++ f :: after) (.length n) :=
      .length rfl hgives hread hafter hnone
    refine ofFields_eq_ok_iff.2 ⟨lengthsTold_of_forall fun g hg hgivesg => ?_, htold.tells⟩
    rcases List.mem_append.1 hg with hg | hg
    · exact hbefore g hg hgivesg
    · rcases List.mem_cons.1 hg with rfl | hg
      · exact ⟨n, read?_length_iff.1 hread⟩
      · rw [hafter g hg] at hgivesg
        cases hgivesg
  | none =>
    obtain ⟨e, he⟩ : ∃ e, ofFields before = .ok e :=
      exists_foldlM_eq_ok_iff.2 (.inr (lengthsTold_of_forall hbefore))
    have hnot : e ≠ .chunked := by
      intro hchunked
      obtain ⟨g, hg, hannounces⟩ := (ofFields_eq_ok_iff.1 he).2.chunked_iff.1 hchunked
      exact hchunks g (List.mem_append_left _ hg) hannounces
    have hf : e.after f = .error (.contentLength f.2.toList) := by
      have hcounts : (givesLength f && e != .chunked) = true := by simpa [hgives] using hnot
      rw [after_eq, if_neg (by simp [hnone f (by simp)]), if_pos hcounts, hread]
    have hrest : (f :: after).foldlM Extent.after e = .error (.contentLength f.2.toList) := by
      rw [List.foldlM_cons, hf]
      rfl
    rw [ofFields] at he ⊢
    rw [List.foldlM_append, he]
    exact hrest

end Extent

/-- A block is read if the value that frames it can be read, and refused for this value
otherwise. -/
theorem FramedBy.headerOfBlock_eq {block : Bytes} {value : String} (h : FramedBy block value) :
    ∃ code reason fields, headerOfBlock block =
      match Numeral.read? 10 UInt64.size value.toList with
      | some n => .ok (⟨code, reason, fields⟩, .length n)
      | none => .error (.contentLength value.toList) := by
  cases h with
  | @field status lines before after f hlines hstatus hfields hgives hafter hchunks hbefore =>
    obtain ⟨code, reason, hstatus⟩ := hstatus
    refine ⟨code, String.ofList reason, before ++ f :: after, ?_⟩
    have hextent := Extent.ofFields_last hgives hafter hchunks hbefore
    rw [hlines.headerOfBlock_eq, headerOfLines, statusLine?_eq_some_iff.2 hstatus]
    simp only [hasFields_iff.1 hfields, hextent]
    cases Numeral.read? 10 UInt64.size f.2.toList <;> rfl

/-! ## The size of a chunk -/

/-- The part of a line in front of its first semicolon, or all of it. -/
def InFront (line part : List Char) : Prop :=
  ';' ∉ part ∧ (line = part ∨ ∃ extension, line = part ++ ';' :: extension)

/-- That part is what the line is cut to. -/
theorem InFront.getD_cut? {line part : List Char} (h : InFront line part) :
    ((cut? [';'] line).map (·.1)).getD line = part := by
  obtain ⟨hpart, rfl | ⟨extension, rfl⟩⟩ := h
  · rw [cut?_singleton_eq_none_iff.2 hpart]
    rfl
  · rw [cut?_singleton_eq_some_iff.2 ⟨rfl, hpart⟩]
    rfl

/-- Every line has such a part. -/
theorem exists_inFront (line : List Char) : ∃ part, InFront line part := by
  cases hcut : cut? [';'] line with
  | none => exact ⟨line, cut?_singleton_eq_none_iff.1 hcut, .inl rfl⟩
  | some cut =>
    obtain ⟨hline, hpart⟩ := cut?_singleton_eq_some_iff.1 hcut
    exact ⟨cut.1, hpart, .inr ⟨cut.2, hline⟩⟩

/-- A line in UTF-8 is read by that part. -/
theorem InFront.chunkSizeOfLine_eq {line part : List Char} (h : InFront line part) :
    chunkSizeOfLine (Utf8.encode line) =
      match Numeral.read? 16 UInt64.size (trim part) with
      | some n => .ok n
      | none => .error (.chunkSize (trim part)) := by
  cases hread : Numeral.read? 16 UInt64.size (trim part) with
  | some n => simp only [chunkSizeOfLine, Utf8.decode?_encode, h.getD_cut?, hread]
  | none => simp only [chunkSizeOfLine, Utf8.decode?_encode, h.getD_cut?, hread]

/-- A line that is not in UTF-8 tells no size. -/
theorem chunkSizeOfLine_of_not_encode {line : Bytes} (h : ∀ text, line ≠ Utf8.encode text) :
    chunkSizeOfLine line = .error .chunkEncoding := by
  cases hdecode : Utf8.decode? line with
  | none => simp only [chunkSizeOfLine, hdecode]
  | some text => exact absurd (Utf8.decode?_eq_some_iff.1 hdecode) (h text)

/-! ## Both -/

/-- What is made of a text that stands for a length in some base, with the fault that it is refused
for. -/
inductive MadeOf : Nat → List Char → Malformed → Except Malformed Extent → Prop where
  /-- The value that frames the body of a block. -/
  | value {block : Bytes} {value : String} : FramedBy block value →
      MadeOf 10 value.toList (.contentLength value.toList) ((headerOfBlock block).map (·.2))
  /-- The size of a chunk, in a line up to the first semicolon. -/
  | size {line part : List Char} : InFront line part →
      MadeOf 16 (trim part) (.chunkSize (trim part))
        ((chunkSizeOfLine (Utf8.encode line)).map .length)
  /-- No text at all, where a line is not in UTF-8. -/
  | bytes {line : Bytes} : (∀ text, line ≠ Utf8.encode text) →
      MadeOf 16 [] .chunkEncoding ((chunkSizeOfLine line).map .length)

/-- Every line in front of a chunk is one of these. -/
theorem exists_madeOf (line : Bytes) :
    ∃ cs cause, MadeOf 16 cs cause ((chunkSizeOfLine line).map .length) := by
  by_cases htext : ∃ text, line = Utf8.encode text
  · obtain ⟨text, rfl⟩ := htext
    obtain ⟨part, hpart⟩ := exists_inFront text
    exact ⟨_, _, .size hpart⟩
  · exact ⟨_, _, .bytes (not_exists.1 htext)⟩

/-- A length as the protocol writes it: one or more digits, of a value below `2 ^ 64`. -/
def IsLength (base : Nat) (cs : List Char) (n : Nat) : Prop :=
  Numeral.Writes base cs n ∧ n < 2 ^ 64

/-- A text is read as the protocol has it: as the number that it writes if it is a length, and
otherwise it is refused. -/
structure Strict (base : Nat) (cs : List Char) (cause : Malformed)
    (result : Except Malformed Extent) : Prop where
  /-- Only lengths are read. -/
  accepts_iff : ∀ n, result = .ok (.length n) ↔ IsLength base cs n
  /-- All other texts are refused. -/
  refuses : (¬ ∃ n, IsLength base cs n) → result = .error cause

variable {base n : Nat} {cs : List Char} {cause : Malformed} {result : Except Malformed Extent}

theorem MadeOf.base_le (h : MadeOf base cs cause result) : 2 ≤ base ∧ base ≤ 16 := by
  cases h with
  | value => decide
  | size => decide
  | bytes => decide

/-- Both kinds of texts are read in one way. -/
theorem MadeOf.result_eq (h : MadeOf base cs cause result) :
    result =
      match Numeral.read? base UInt64.size cs with
      | some n => .ok (.length n)
      | none => .error cause := by
  cases h with
  | @value block value hframed =>
    obtain ⟨code, reason, fields, hblock⟩ := hframed.headerOfBlock_eq
    rw [hblock]
    cases Numeral.read? 10 UInt64.size value.toList <;> rfl
  | @size line part hpart =>
    rw [hpart.chunkSizeOfLine_eq]
    cases Numeral.read? 16 UInt64.size (trim part) <;> rfl
  | bytes hline =>
    rw [chunkSizeOfLine_of_not_encode hline]
    rfl

theorem MadeOf.result_eq_ok_iff (h : MadeOf base cs cause result) :
    result = .ok (.length n) ↔ TellsNumber base cs n := by
  rw [h.result_eq, ← read?_number_iff h.base_le.1 h.base_le.2]
  cases Numeral.read? base UInt64.size cs <;> simp

theorem MadeOf.result_eq_error (h : MadeOf base cs cause result)
    (hnone : ¬ ∃ n, TellsNumber base cs n) : result = .error cause := by
  have hread : Numeral.read? base UInt64.size cs = none := by
    refine Option.eq_none_iff_forall_ne_some.2 fun n hn => hnone ⟨n, ?_⟩
    exact (read?_number_iff h.base_le.1 h.base_le.2).1 hn
  rw [h.result_eq, hread]

/-- A sign may stand in front of the numbers that are read. -/
theorem tellsNumber_iff : TellsNumber base cs n ↔
    IsLength base cs n ∨ ∃ digits, cs = '+' :: digits ∧ IsLength base digits n := by
  constructor
  · rintro ⟨hwrites | ⟨digits, hcs, hwrites⟩, hn⟩
    · exact .inl ⟨hwrites, hn⟩
    · exact .inr ⟨digits, hcs, hwrites, hn⟩
  · rintro (⟨hwrites, hn⟩ | ⟨digits, hcs, hwrites, hn⟩)
    · exact ⟨.inl hwrites, hn⟩
    · exact ⟨.inr ⟨digits, hcs, hwrites⟩, hn⟩

/-- A length has no sign. -/
theorem not_isLength_sign (hb : 2 ≤ base) (hb' : base ≤ 16) (cs : List Char) :
    ¬ IsLength base ('+' :: cs) n := by
  rintro ⟨hwrites, -⟩
  obtain ⟨-, hdigits⟩ := (Numeral.exists_writes_iff hb hb').1 ⟨n, hwrites⟩
  obtain ⟨d, hd, hplus⟩ := hdigits '+' List.mem_cons_self
  have hnone : ∀ d < 16, '+'.toLower ≠ Nat.digitChar d := by decide
  exact hnone d (by omega) hplus

/-- **When lengths are read strictly.** The value that frames a body and the size of a chunk are
read as the protocol has it, unless they are a length with a plus sign in front, which is read as
the length is without it. -/
theorem MadeOf.strict_iff (h : MadeOf base cs cause result) :
    (Strict base cs cause result ↔ ¬ ∃ digits n, cs = '+' :: digits ∧ IsLength base digits n) ∧
    ∀ digits n, cs = '+' :: digits → IsLength base digits n → result = .ok (.length n) := by
  have hsigned (digits : List Char) (n : Nat) (hcs : cs = '+' :: digits)
      (hn : IsLength base digits n) : result = .ok (.length n) :=
    h.result_eq_ok_iff.2 (tellsNumber_iff.2 (.inr ⟨digits, hcs, hn⟩))
  refine ⟨⟨?_, ?_⟩, hsigned⟩
  · rintro hstrict ⟨digits, n, rfl, hn⟩
    have hlength := (hstrict.accepts_iff n).1 (hsigned digits n rfl hn)
    exact not_isLength_sign h.base_le.1 h.base_le.2 digits hlength
  · intro hplain
    have htells {n : Nat} : TellsNumber base cs n ↔ IsLength base cs n := by
      rw [tellsNumber_iff]
      exact or_iff_left fun ⟨digits, hcs, hn⟩ => hplain ⟨digits, n, hcs, hn⟩
    constructor
    · intro n
      rw [h.result_eq_ok_iff, htells]
    · intro hnone
      refine h.result_eq_error ?_
      simpa only [htells] using hnone

/-- Zeros stand in front of a length. -/
theorem strict_iff_zeros :
    let block := Utf8.encode "HTTP/1.1 200 OK\r\nContent-Length: 007".toList
    FramedBy block "007" ∧ (headerOfBlock block).map (·.2) = .ok (.length 7) := by
  intro block
  have hlines : HasLines block "HTTP/1.1 200 OK".toList ["Content-Length: 007".toList] :=
    hasLines_iff.2 ⟨_, rfl, by decide +kernel⟩
  have hstatus : statusLine? "HTTP/1.1 200 OK".toList = some (200, "OK".toList) := by decide +kernel
  have hfield : field? "Content-Length: 007".toList = some ("Content-Length", "007") := by
    decide +kernel
  have hframed : FramedBy block "007" := .single hlines hstatus hfield (by decide)
  obtain ⟨hstrict, -⟩ := (MadeOf.value hframed).strict_iff
  have hunsigned : ¬ ∃ digits n, "007".toList = '+' :: digits ∧ IsLength 10 digits n := by
    rintro ⟨digits, n, hcs, -⟩
    cases hcs
  have hzeros : IsLength 10 "007".toList 7 := ⟨⟨2, by decide⟩, by decide⟩
  exact ⟨hframed, ((hstrict.2 hunsigned).accepts_iff 7).2 hzeros⟩

/-- A plus sign in a field and in front of a chunk. -/
theorem not_strict_sign :
    let block := Utf8.encode "HTTP/1.1 200 OK\r\nContent-Length: +5".toList
    let line := Utf8.encode ['+', '5']
    FramedBy block "+5" ∧ (headerOfBlock block).map (·.2) = .ok (.length 5) ∧
      ¬ Strict 10 ['+', '5'] (.contentLength ['+', '5']) ((headerOfBlock block).map (·.2)) ∧
      InFront ['+', '5'] ['+', '5'] ∧ chunkSizeOfLine line = .ok 5 ∧
      ¬ Strict 16 ['+', '5'] (.chunkSize ['+', '5']) ((chunkSizeOfLine line).map .length) := by
  intro block line
  have hlines : HasLines block "HTTP/1.1 200 OK".toList ["Content-Length: +5".toList] :=
    hasLines_iff.2 ⟨_, rfl, by decide +kernel⟩
  have hstatus : statusLine? "HTTP/1.1 200 OK".toList = some (200, "OK".toList) := by decide +kernel
  have hfield : field? "Content-Length: +5".toList = some ("Content-Length", "+5") := by
    decide +kernel
  have hframed : FramedBy block "+5" := .single hlines hstatus hfield (by decide)
  have hblock : (headerOfBlock block).map (·.2) = .ok (.length 5) := by decide +kernel
  have hline : chunkSizeOfLine line = .ok 5 := by decide +kernel
  refine ⟨hframed, hblock, fun hstrict => ?_, ⟨by decide, .inl rfl⟩, hline, fun hstrict => ?_⟩
  · exact not_isLength_sign (by decide) (by decide) ['5'] ((hstrict.accepts_iff 5).1 hblock)
  · rw [hline] at hstrict
    exact not_isLength_sign (by decide) (by decide) ['5'] ((hstrict.accepts_iff 5).1 rfl)

end ClusterLink.Reply
