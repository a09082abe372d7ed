import ClusterLink.Proofs.Reply.Received
import ClusterLink.Proofs.Text.Numeral
import ClusterLink.Proofs.Text.Occurrence
import ClusterLink.Proofs.Text.Utf8
import Mathlib.Data.List.Forall2

/-!
# What a header block says

`headerOfBlock` reads a block line by line and settles the extent of the body on the
way. Here it is said without any order of reading which blocks it understands and
what they mean: the lines are what stands between line ends (`HasLines`), the first
is a status line (`IsStatusLine`), those with a colon are fields (`HasFields`), and
the fields tell the extent all together (`Extent.Tells`).

The order of the fields matters for one thing. A length that cannot be read makes
the block unreadable in front of the first field that announces chunks, and is passed
over behind it (`LengthsTold`).

## The argument

Every reader of the block has its own exact description, from the parts of a text
(`pieces_eq_cons_iff`) and the numerals (`Numeral.read?_eq_some_iff`) upwards. Only
the extent is settled by a loop. `Extent.exists_foldlM_eq_ok_iff` says from which
extent on it goes through, by induction on the fields, where `LengthsTold` is given by
the first field and the others (`lengthsTold_cons_iff`); what it ends with is known
from `Extent.ToldBy` and put into the form of `Extent.Tells`, of which there is only
one for some fields (`Extent.Tells.unique`).
-/

namespace ClusterLink.Reply

open Text

/-! ## Lines -/

/-- The lines of a header block, of which the first is the status line. -/
structure HasLines (block : Bytes) (status : List Char) (lines : List (List Char)) : Prop where
  /-- The block is the UTF-8 form of the lines with line ends between them. -/
  block_eq : block = Utf8.encode (status ++ lines.flatMap (['\r', '\n'] ++ ·))
  /-- There is no line end in a line. -/
  whole : ∀ line ∈ status :: lines, ¬ ['\r', '\n'] <:+: line

variable {block : Bytes} {status : List Char} {lines : List (List Char)}

theorem hasLines_iff : HasLines block status lines ↔
    ∃ text, block = Utf8.encode text ∧ pieces ['\r', '\n'] text = status :: lines := by
  have hmark : '\r' ∉ ['\n'] := by decide
  constructor
  · rintro ⟨hblock, hwhole⟩
    exact ⟨_, hblock, (pieces_eq_cons_iff hmark).2 ⟨rfl, hwhole⟩⟩
  · rintro ⟨text, rfl, hpieces⟩
    obtain ⟨rfl, hwhole⟩ := (pieces_eq_cons_iff hmark).1 hpieces
    exact ⟨rfl, hwhole⟩

/-- Every block in UTF-8 has lines. -/
theorem exists_hasLines (text : List Char) :
    ∃ status lines, HasLines (Utf8.encode text) status lines := by
  obtain ⟨status, lines, h⟩ := List.exists_cons_of_ne_nil (pieces_ne_nil ['\r', '\n'] text)
  exact ⟨status, lines, hasLines_iff.2 ⟨text, rfl, h⟩⟩

/-- A block says what its lines say. -/
theorem HasLines.headerOfBlock_eq (h : HasLines block status lines) :
    headerOfBlock block = headerOfLines status lines := by
  obtain ⟨text, rfl, hpieces⟩ := hasLines_iff.1 h
  simp only [headerOfBlock, Utf8.decode?_encode, hpieces]

/-- A block that is not UTF-8 says nothing. -/
theorem headerOfBlock_of_not_encode (h : ∀ text, block ≠ Utf8.encode text) :
    headerOfBlock block = .error .blockEncoding := by
  cases hdecode : Utf8.decode? block with
  | none => simp only [headerOfBlock, hdecode]
  | some text => exact absurd (Utf8.decode?_eq_some_iff.1 hdecode) (h text)

theorem headerOfBlock_eq_ok_iff {told : Header × Extent} : headerOfBlock block = .ok told ↔
    ∃ status lines, HasLines block status lines ∧ headerOfLines status lines = .ok told := by
  constructor
  · intro h
    by_cases htext : ∃ text, block = Utf8.encode text
    · obtain ⟨text, rfl⟩ := htext
      obtain ⟨status, lines, hlines⟩ := exists_hasLines text
      exact ⟨status, lines, hlines, hlines.headerOfBlock_eq ▸ h⟩
    · rw [headerOfBlock_of_not_encode (not_exists.1 htext)] at h
      cases h
  · rintro ⟨status, lines, hlines, h⟩
    rw [hlines.headerOfBlock_eq, h]

/-! ## The status line -/

/-- A status line, its code and its reason: a version that begins with `HTTP/`, up to the first
space; the code, up to the next space or the end; the reason, without the blanks around it. -/
inductive IsStatusLine : List Char → UInt16 → List Char → Prop where
  /-- Nothing stands behind the code. -/
  | bare {version digits : List Char} {code : UInt16} : ' ' ∉ version →
      Numeral.Signed 10 digits code.toNat →
      IsStatusLine ("HTTP/".toList ++ version ++ ' ' :: digits) code []
  /-- A reason stands behind the code. -/
  | worded {version digits words : List Char} {code : UInt16} : ' ' ∉ version →
      Numeral.Signed 10 digits code.toNat →
      IsStatusLine ("HTTP/".toList ++ version ++ ' ' :: (digits ++ ' ' :: words)) code (trim words)

/-- What is read as a code is the code that is told. -/
theorem map_read?_code_iff {α : Type} {digits : List Char} {code : UInt16} {a b : α} :
    (Numeral.read? 10 UInt16.size digits).map (fun n => (UInt16.ofNat n, a)) = some (code, b) ↔
      Numeral.Signed 10 digits code.toNat ∧ a = b := by
  rw [Option.map_eq_some_iff]
  constructor
  · rintro ⟨n, hread, htold⟩
    obtain ⟨rfl, rfl⟩ := Prod.mk.inj htold
    obtain ⟨hsigned, hn⟩ := (Numeral.read?_eq_some_iff (by decide) (by decide)).1 hread
    rw [UInt16.toNat_ofNat_of_lt' hn]
    exact ⟨hsigned, rfl⟩
  · rintro ⟨hsigned, rfl⟩
    refine ⟨code.toNat, ?_, by rw [UInt16.ofNat_toNat]⟩
    exact (Numeral.read?_eq_some_iff (by decide) (by decide)).2 ⟨hsigned, code.toNat_lt_size⟩

theorem space_not_mem {digits : List Char} {n : Nat} (h : Numeral.Signed 10 digits n) :
    ' ' ∉ digits :=
  Numeral.not_mem_of_signed (by decide) (by decide) h (by decide) (by decide)

/-- Behind the version the code is read, and then the reason. -/
theorem statusLine?_of_version {version rest : List Char} (h : ' ' ∉ version) :
    statusLine? ("HTTP/".toList ++ version ++ ' ' :: rest) =
      let (code, reason) := (cut? [' '] rest).getD (rest, [])
      (Numeral.read? 10 UInt16.size code).map fun n => (UInt16.ofNat n, trim reason) := by
  have hversion : ' ' ∉ "HTTP/".toList ++ version := fun hmem =>
    (List.mem_append.1 hmem).elim (by decide) h
  have hcut : cut? [' '] ("HTTP/".toList ++ version ++ ' ' :: rest) =
      some ("HTTP/".toList ++ version, rest) := cut?_of_not_mem hversion rest
  have hprefix : "HTTP/".toList.isPrefixOf ("HTTP/".toList ++ version) = true :=
    List.isPrefixOf_iff_prefix.2 (List.prefix_append _ _)
  simp only [statusLine?, hcut, hprefix, if_true]

theorem statusLine?_eq_some_iff {line reason : List Char} {code : UInt16} :
    statusLine? line = some (code, reason) ↔ IsStatusLine line code reason := by
  constructor
  · intro h
    obtain ⟨version, rest, hversion, rfl⟩ : ∃ version rest, ' ' ∉ version ∧
        line = "HTTP/".toList ++ version ++ ' ' :: rest := by
      unfold statusLine? at h
      split at h
      · cases h
      · rename_i version rest hcut
        obtain ⟨rfl, hversion⟩ := cut?_singleton_eq_some_iff.1 hcut
        split at h
        · rename_i hprefix
          obtain ⟨word, rfl⟩ := List.isPrefixOf_iff_prefix.1 hprefix
          exact ⟨word, rest, fun hmem => hversion (List.mem_append_right _ hmem), rfl⟩
        · cases h
    rw [statusLine?_of_version hversion] at h
    cases hrest : cut? [' '] rest with
    | none =>
      simp only [hrest, Option.getD_none] at h
      obtain ⟨hsigned, rfl⟩ := map_read?_code_iff.1 h
      exact .bare hversion hsigned
    | some cut =>
      obtain ⟨digits, words⟩ := cut
      simp only [hrest, Option.getD_some] at h
      obtain ⟨hsigned, rfl⟩ := map_read?_code_iff.1 h
      obtain ⟨rfl, -⟩ := cut?_singleton_eq_some_iff.1 hrest
      exact .worded hversion hsigned
  · intro h
    cases h with
    | bare hversion hsigned =>
      rw [statusLine?_of_version hversion, cut?_singleton_eq_none_iff.2 (space_not_mem hsigned)]
      exact map_read?_code_iff.2 ⟨hsigned, rfl⟩
    | @worded _ digits words _ hversion hsigned =>
      have hcut : cut? [' '] (digits ++ ' ' :: words) = some (digits, words) :=
        cut?_singleton_eq_some_iff.2 ⟨rfl, space_not_mem hsigned⟩
      rw [statusLine?_of_version hversion, hcut]
      exact map_read?_code_iff.2 ⟨hsigned, rfl⟩

/-! ## Fields -/

/-- The line of a field: the name up to the first colon and the value behind it, both without the
blanks around them. -/
def IsField (line : List Char) (f : String × String) : Prop :=
  ∃ name value, line = name ++ ':' :: value ∧ ':' ∉ name ∧
    f = (String.ofList (trim name), String.ofList (trim value))

/-- The fields of some lines: one for each line with a colon, in order. -/
def HasFields (lines : List (List Char)) (fields : Fields) : Prop :=
  List.Forall₂ IsField (lines.filter (·.contains ':')) fields

theorem field?_eq_some_iff {line : List Char} {f : String × String} :
    field? line = some f ↔ IsField line f := by
  rw [field?, Option.map_eq_some_iff]
  constructor
  · rintro ⟨⟨name, value⟩, hcut, rfl⟩
    obtain ⟨hline, hname⟩ := cut?_singleton_eq_some_iff.1 hcut
    exact ⟨name, value, hline, hname, rfl⟩
  · rintro ⟨name, value, hline, hname, rfl⟩
    exact ⟨(name, value), cut?_singleton_eq_some_iff.2 ⟨hline, hname⟩, rfl⟩

theorem field?_eq_none_iff {line : List Char} : field? line = none ↔ ':' ∉ line := by
  rw [field?, Option.map_eq_none_iff, cut?_singleton_eq_none_iff]

theorem hasFields_iff {fields : Fields} :
    HasFields lines fields ↔ lines.filterMap field? = fields := by
  rw [HasFields]
  induction lines generalizing fields with
  | nil =>
    rw [List.filter_nil, List.forall₂_nil_left_iff, List.filterMap_nil, eq_comm]
  | cons line lines ih =>
    cases hline : field? line with
    | none =>
      rw [List.filterMap_cons_none hline, ← ih, List.filter_cons_of_neg]
      simpa using field?_eq_none_iff.1 hline
    | some f =>
      have hcolon : line.contains ':' = true := by
        by_contra hnot
        rw [field?_eq_none_iff.2 (by simpa using hnot)] at hline
        cases hline
      rw [List.filterMap_cons_some hline, List.filter_cons, if_pos hcolon,
        List.forall₂_cons_left_iff]
      constructor
      · rintro ⟨g, more, hg, hmore, rfl⟩
        rw [field?_eq_some_iff.2 hg] at hline
        cases hline
        rw [ih.1 hmore]
      · rintro rfl
        exact ⟨f, _, field?_eq_some_iff.1 hline, ih.2 rfl, rfl⟩

/-! ## The end of the body -/

/-- A field announces that the body comes in chunks: it names the transfer coding, and the last
item of its value, between commas, is `chunked`. -/
def Announces (f : String × String) : Prop :=
  sameField f.1 "transfer-encoding" = true ∧
    ∃ item, ',' ∉ item ∧ (f.2.toList = item ∨ ∃ before, f.2.toList = before ++ ',' :: item) ∧
      sameName (trim item) "chunked".toList = true

theorem announcesChunks_iff {f : String × String} :
    Extent.announcesChunks f = true ↔ Announces f := by
  rw [Extent.announcesChunks, Bool.and_eq_true, Announces, endsChunked, Option.any_eq_true]
  simp only [getLast?_pieces_eq_some_iff, and_assoc]

theorem not_announces_iff {f : String × String} :
    ¬ Announces f ↔ Extent.announcesChunks f = false := by
  rw [← announcesChunks_iff, Bool.not_eq_true]

/-- A text tells a number below `2 ^ 64` in some base. -/
def TellsNumber (base : Nat) (cs : List Char) (n : Nat) : Prop :=
  Numeral.Signed base cs n ∧ n < 2 ^ 64

theorem read?_number_iff {base n : Nat} {cs : List Char} (hb : 2 ≤ base) (hb' : base ≤ 16) :
    Numeral.read? base UInt64.size cs = some n ↔ TellsNumber base cs n :=
  Numeral.read?_eq_some_iff hb hb'

theorem read?_length_iff {cs : List Char} {n : Nat} :
    Numeral.read? 10 UInt64.size cs = some n ↔ TellsNumber 10 cs n :=
  read?_number_iff (by decide) (by decide)

/-- A text tells one length at most. -/
theorem length_unique {cs : List Char} {n m : Nat} (h : TellsNumber 10 cs n)
    (h' : TellsNumber 10 cs m) : n = m :=
  Option.some.inj ((read?_length_iff.2 h).symm.trans (read?_length_iff.2 h'))

/-- Each field that gives the length, up to the first that announces chunks, tells one. -/
def LengthsTold (fields : Fields) : Prop :=
  ∀ before f after, fields = before ++ f :: after → Extent.givesLength f = true →
    (∀ g ∈ before, ¬ Announces g) → ∃ n, TellsNumber 10 f.2.toList n

theorem lengthsTold_of_forall {fields : Fields}
    (h : ∀ f ∈ fields, Extent.givesLength f = true → ∃ n, TellsNumber 10 f.2.toList n) :
    LengthsTold fields := by
  intro before f after hfields hgives _
  exact h f (hfields ▸ List.mem_append_right before List.mem_cons_self) hgives

/-- Where no field announces chunks, every length counts. -/
theorem LengthsTold.forall {fields : Fields} (h : LengthsTold fields)
    (hchunks : ∀ f ∈ fields, ¬ Announces f) :
    ∀ f ∈ fields, Extent.givesLength f = true → ∃ n, TellsNumber 10 f.2.toList n := by
  intro f hf hgives
  obtain ⟨before, after, rfl⟩ := List.append_of_mem hf
  exact h before f after rfl hgives fun g hg => hchunks g (List.mem_append_left _ hg)

theorem lengthsTold_nil : LengthsTold [] :=
  lengthsTold_of_forall (List.forall_mem_nil _)

/-- The first field has to tell its length, and the others theirs unless it announces chunks. -/
theorem lengthsTold_cons_iff {f : String × String} {fields : Fields} :
    LengthsTold (f :: fields) ↔
      (Extent.givesLength f = true → ∃ n, TellsNumber 10 f.2.toList n) ∧
        (Announces f ∨ LengthsTold fields) := by
  constructor
  · intro h
    refine ⟨fun hgives => h [] f fields rfl hgives (List.forall_mem_nil _), ?_⟩
    by_cases hf : Announces f
    · exact .inl hf
    · refine .inr fun before g after hfields hgives hbefore => ?_
      exact h (f :: before) g after (congrArg (f :: ·) hfields) hgives
        (List.forall_mem_cons.2 ⟨hf, hbefore⟩)
  · rintro ⟨hhere, hlater⟩ before g after hfields hgives hbefore
    cases before with
    | nil =>
      obtain ⟨rfl, rfl⟩ := List.cons.inj hfields
      exact hhere hgives
    | cons f' before =>
      obtain ⟨rfl, rfl⟩ := List.cons.inj hfields
      obtain ⟨hf, hbefore⟩ := List.forall_mem_cons.1 hbefore
      exact hlater.resolve_left hf before g after rfl hgives hbefore

/-- A field that announces chunks gives no length. -/
theorem Announces.givesLength_eq {f : String × String} (h : Announces f) :
    Extent.givesLength f = false := by
  have hname := h.1
  simp only [sameField, sameName, beq_iff_eq] at hname
  simp only [Extent.givesLength, sameField, sameName, hname]
  decide

namespace Extent

variable {fields : Fields} {e e' : Extent}

/-- Fields tell an extent exactly if the lengths among them can be read as long as they count. -/
theorem exists_foldlM_eq_ok_iff : (∃ e', fields.foldlM Extent.after e = .ok e') ↔
    e = .chunked ∨ LengthsTold fields := by
  induction fields generalizing e with
  | nil => exact ⟨fun _ => .inr lengthsTold_nil, fun _ => ⟨e, rfl⟩⟩
  | cons f fields ih =>
    rw [List.foldlM_cons, lengthsTold_cons_iff, after_eq]
    by_cases hf : Announces f
    · -- from here on every field is passed over
      rw [if_pos (announcesChunks_iff.2 hf)]
      refine iff_of_true (ih.2 (.inl rfl)) (.inr ⟨fun hgives => ?_, .inl hf⟩)
      rw [hf.givesLength_eq] at hgives
      cases hgives
    · rw [if_neg (mt announcesChunks_iff.1 hf), or_iff_right hf]
      by_cases hcounts : (givesLength f && e != .chunked) = true
      · obtain ⟨hgives, hnot⟩ := Bool.and_eq_true_iff.1 hcounts
        rw [if_pos hcounts, or_iff_right (bne_iff_ne.1 hnot)]
        cases hread : Numeral.read? 10 UInt64.size f.2.toList with
        | some n =>
          have htold : ∃ n, TellsNumber 10 f.2.toList n := ⟨n, read?_length_iff.1 hread⟩
          refine ih.trans ?_
          simp [htold]
        | none =>
          refine iff_of_false (fun ⟨_, h⟩ => nomatch h) fun h => ?_
          obtain ⟨n, hn⟩ := h.1 hgives
          rw [read?_length_iff.2 hn] at hread
          cases hread
      · rw [if_neg hcounts]
        refine ih.trans ?_
        by_cases he : e = .chunked
        · simp [he]
        · have hgives : givesLength f = false := by simpa [he] using hcounts
          simp [he, hgives]

/-- The extent that fields tell: chunks if one of them announces chunks, whatever lengths stand
beside it, else the last length that is given, else none. -/
structure Tells (fields : Fields) (e : Extent) : Prop where
  /-- One field that announces chunks is enough. -/
  chunked_iff : e = .chunked ↔ ∃ f ∈ fields, Announces f
  /-- Without such a field the last length counts. -/
  length_iff : ∀ n, e = .length n ↔ (∀ f ∈ fields, ¬ Announces f) ∧
    ∃ f, (fields.filter givesLength).getLast? = some f ∧ TellsNumber 10 f.2.toList n
  /-- There is neither. -/
  empty_iff : e = .empty ↔ ∀ f ∈ fields, ¬ Announces f ∧ givesLength f = false

/-- Fields tell one extent. -/
theorem Tells.unique (h : Tells fields e) (h' : Tells fields e') : e = e' := by
  cases e' with
  | length n => exact (h.length_iff n).2 ((h'.length_iff n).1 rfl)
  | chunked => exact h.chunked_iff.2 (h'.chunked_iff.1 rfl)
  | empty => exact h.empty_iff.2 (h'.empty_iff.1 rfl)

/-- What is read off the fields one by one is what they tell together. -/
theorem ToldBy.tells (h : ToldBy fields e) : Tells fields e := by
  have hnone (h : ∀ g ∈ fields, announcesChunks g = false) : ∀ g ∈ fields, ¬ Announces g :=
    fun g hg => not_announces_iff.2 (h g hg)
  cases h with
  | @chunked f hf hannounces =>
    have hf' := announcesChunks_iff.1 hannounces
    refine ⟨iff_of_true rfl ⟨f, hf, hf'⟩, fun n => iff_of_false nofun ?_, iff_of_false nofun ?_⟩
    · exact fun hno => hno.1 f hf hf'
    · exact fun hno => (hno f hf).1 hf'
  | @length before after f n hfields hgives hread hafter hchunks =>
    have hlast : (fields.filter givesLength).getLast? = some f := by
      have hempty : after.filter givesLength = [] := by simpa using hafter
      rw [hfields, List.filter_append, List.filter_cons_of_pos hgives, hempty, List.getLast?_concat]
    refine ⟨iff_of_false nofun ?_, fun m => ⟨?_, ?_⟩, iff_of_false nofun ?_⟩
    · exact fun ⟨g, hg, hannounces⟩ => hnone hchunks g hg hannounces
    · rintro ⟨rfl⟩
      exact ⟨hnone hchunks, f, hlast, read?_length_iff.1 hread⟩
    · rintro ⟨-, g, hg, hm⟩
      obtain rfl := Option.some.inj (hlast.symm.trans hg)
      rw [length_unique (read?_length_iff.1 hread) hm]
    · intro hno
      have hf : f ∈ fields := hfields ▸ List.mem_append_right before List.mem_cons_self
      rw [(hno f hf).2] at hgives
      cases hgives
  | empty hlengths hchunks =>
    refine ⟨iff_of_false nofun ?_, fun n => iff_of_false nofun ?_, iff_of_true rfl ?_⟩
    · exact fun ⟨g, hg, hannounces⟩ => hnone hchunks g hg hannounces
    · rintro ⟨-, f, hf, -⟩
      obtain ⟨hmem, hgives⟩ := List.mem_filter.1 (List.mem_of_getLast? hf)
      rw [hlengths f hmem] at hgives
      cases hgives
    · exact fun f hf => ⟨hnone hchunks f hf, hlengths f hf⟩

/-- The extent is settled exactly if the lengths can be read. -/
theorem ofFields_eq_ok_iff : ofFields fields = .ok e ↔ LengthsTold fields ∧ Tells fields e := by
  have hsome : (∃ told, ofFields fields = .ok told) ↔ LengthsTold fields := by
    rw [ofFields, exists_foldlM_eq_ok_iff]
    simp
  have htells {told : Extent} (h : ofFields fields = .ok told) : Tells fields told := by
    have hnothing : ToldBy [] .empty := .empty (List.forall_mem_nil _) (List.forall_mem_nil _)
    exact (hnothing.foldlM h).tells
  constructor
  · intro h
    exact ⟨hsome.1 ⟨e, h⟩, htells h⟩
  · rintro ⟨hlengths, he⟩
    obtain ⟨told, h⟩ := hsome.2 hlengths
    rwa [he.unique (htells h)]

end Extent

/-! ## The whole block -/

/-- The lines of a block tell a head and an extent. -/
theorem headerOfLines_eq_ok_iff {head : Header} {extent : Extent} :
    headerOfLines status lines = .ok (head, extent) ↔
      IsStatusLine status head.code head.reason.toList ∧ HasFields lines head.fields ∧
        LengthsTold head.fields ∧ extent.Tells head.fields := by
  unfold headerOfLines
  cases hstatus : statusLine? status with
  | none =>
    refine iff_of_false nofun ?_
    rintro ⟨h, -⟩
    rw [statusLine?_eq_some_iff.2 h] at hstatus
    cases hstatus
  | some told =>
    obtain ⟨code, reason⟩ := told
    constructor
    · intro h
      cases hfields : Extent.ofFields (lines.filterMap field?) with
      | error cause =>
        simp only [hfields] at h
        cases h
      | ok told =>
        simp only [hfields] at h
        cases h
        obtain ⟨hlengths, htells⟩ := Extent.ofFields_eq_ok_iff.1 hfields
        refine ⟨?_, hasFields_iff.2 rfl, hlengths, htells⟩
        rw [String.toList_ofList]
        exact statusLine?_eq_some_iff.1 hstatus
    · rintro ⟨hline, hfields, hlengths, htells⟩
      rw [statusLine?_eq_some_iff.2 hline] at hstatus
      obtain ⟨rfl, rfl⟩ := Prod.mk.inj (Option.some.inj hstatus)
      have hextent := Extent.ofFields_eq_ok_iff.2 ⟨hlengths, htells⟩
      simp only [hasFields_iff.1 hfields, hextent, String.ofList_toList]
      rfl

/-- Any fields tell an extent if their lengths can be read. -/
theorem exists_tells {fields : Fields} (h : LengthsTold fields) : ∃ e : Extent, e.Tells fields := by
  obtain ⟨e, he⟩ := Extent.exists_foldlM_eq_ok_iff (e := .empty).2 (.inr h)
  exact ⟨e, (Extent.ofFields_eq_ok_iff.1 he).2⟩

/-- **A header block is understood** exactly if it is UTF-8, opens with a status line, and tells
every length that stands in front of the first announcement of chunks. Then the head is what the
lines say, in their order, and the fields tell how the body ends. -/
theorem headerOfBlock_means (block : Bytes) :
    ((∃ told, headerOfBlock block = .ok told) ↔
      ∃ status lines fields, HasLines block status lines ∧
        (∃ code reason, IsStatusLine status code reason) ∧ HasFields lines fields ∧
        LengthsTold fields) ∧
    ∀ head extent, headerOfBlock block = .ok (head, extent) ↔
      ∃ status lines, HasLines block status lines ∧
        IsStatusLine status head.code head.reason.toList ∧ HasFields lines head.fields ∧
        LengthsTold head.fields ∧ extent.Tells head.fields := by
  have hmeans (head : Header) (extent : Extent) : headerOfBlock block = .ok (head, extent) ↔
      ∃ status lines, HasLines block status lines ∧
        IsStatusLine status head.code head.reason.toList ∧ HasFields lines head.fields ∧
        LengthsTold head.fields ∧ extent.Tells head.fields := by
    rw [headerOfBlock_eq_ok_iff]
    simp only [headerOfLines_eq_ok_iff]
  refine ⟨⟨?_, ?_⟩, hmeans⟩
  · rintro ⟨⟨head, extent⟩, h⟩
    obtain ⟨status, lines, hlines, hstatus, hfields, hlengths, -⟩ := (hmeans head extent).1 h
    exact ⟨status, lines, _, hlines, ⟨_, _, hstatus⟩, hfields, hlengths⟩
  · rintro ⟨status, lines, fields, hlines, ⟨code, reason, hstatus⟩, hfields, hlengths⟩
    obtain ⟨extent, htells⟩ := exists_tells hlengths
    refine ⟨(⟨code, String.ofList reason, fields⟩, extent), (hmeans _ _).2 ?_⟩
    refine ⟨status, lines, hlines, ?_, hfields, hlengths, htells⟩
    rwa [String.toList_ofList]

/-- A length that cannot be read does no harm behind an announcement of chunks. -/
example : headerOfBlock (Utf8.encode ("HTTP/1.1 200 \r\nContent-Length: 7\r\nno field\r\n" ++
      "Transfer-Encoding:a, Chunked\r\nContent-Length: x").toList) =
    .ok (⟨200, "", [("Content-Length", "7"), ("Transfer-Encoding", "a, Chunked"),
      ("Content-Length", "x")]⟩, .chunked) := by
  decide +kernel

end ClusterLink.Reply
