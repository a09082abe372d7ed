import ClusterLink.Proofs.Document
import ClusterLink.Proofs.Text.Blank
import ClusterLink.Proofs.Text.Occurrence
import ClusterLink.Proofs.Text.Utf8

/-!
# Documents taken out as they come

The documents of a body can be taken out of it all at once (`split`) or as its bytes
come in, in pieces of any size (`splitEach`). Both give the same documents and leave
the same bytes, and no byte is lost: the body is the bytes of its documents, each with
a mark behind it, and what is left (`Parted`). There is only one way to part a body,
although the mark overlaps itself: a document ends at the first mark that follows, so
of a run of line feeds the first four count. Documents that are trimmed and have no
mark in them come out as they were put in (`splitEach_lossless`).

## The argument

The parts of a body are known from where the mark occurs in it (`pieces_eq_concat_iff`).
What is left of a buffer has no mark in it, so a later piece cannot change the documents
that have been taken out (`split_append`), and any number of pieces follow by induction.

A document that is put in front of a mark could end like the mark and make it begin
too early. A trimmed text does not, as line feeds are blanks (`isRecord_of_trim`).
-/

namespace ClusterLink

open Text

namespace Document

/-- Takes the complete documents out of a buffer after each piece of the body that comes behind
it. The beginning of a document that is left stays in the buffer. -/
def splitEach (buffer : Bytes) : List Bytes → List String × Bytes
  | [] => ([], buffer)
  | piece :: pieces =>
    let now := split (buffer ++ piece)
    let later := splitEach now.2 pieces
    (now.1 ++ later.1, later.2)

/-- A body is cut into the bytes of its documents, each in front of the mark that ends it, and a
rest that no mark ends. -/
structure Parted (body : Bytes) (raws : List Bytes) (rest : Bytes) : Prop where
  /-- Nothing is lost. -/
  body_eq : body = join raws ++ rest
  /-- The mark behind a document is the first in it. -/
  first : ∀ raw ∈ raws, FirstAt mark (raw ++ mark) raw.length
  /-- No mark is left. -/
  rest_open : ¬ mark <:+: rest

variable {body rest : Bytes} {raws : List Bytes}

/-- The parts of a body are those between its marks. -/
theorem parted_iff : Parted body raws rest ↔ pieces mark body = raws ++ [rest] := by
  rw [pieces_eq_concat_iff mark_ne_nil]
  exact ⟨fun h => ⟨h.body_eq, h.first, h.rest_open⟩, fun h => ⟨h.1, h.2.1, h.2.2⟩⟩

theorem exists_parted (body : Bytes) : ∃ raws rest, Parted body raws rest := by
  rcases List.eq_nil_or_concat (pieces mark body) with hnil | ⟨raws, rest, h⟩
  · exact absurd hnil (pieces_ne_nil mark body)
  · rw [List.concat_eq_append] at h
    exact ⟨raws, rest, parted_iff.2 h⟩

/-- There is one way to part a body. -/
theorem Parted.unique {raws' : List Bytes} {rest' : Bytes} (h : Parted body raws rest)
    (h' : Parted body raws' rest') : raws' = raws ∧ rest' = rest := by
  have heq : raws' ++ [rest'] = raws ++ [rest] := (parted_iff.1 h').symm.trans (parted_iff.1 h)
  obtain ⟨hraws, hrest⟩ := List.append_inj' heq rfl
  exact ⟨hraws, (List.cons.inj hrest).1⟩

/-- Splitting a body reads the documents of its parts. -/
theorem Parted.split_eq (h : Parted body raws rest) : split body = (raws.map ofBytes, rest) := by
  rw [split, parted_iff.1 h]
  simp only [List.dropLast_concat, List.getLast?_concat, Option.getD_some]

/-- A buffer without a mark that is split after each piece is split as a whole. -/
theorem splitEach_eq {buffer : Bytes} (h : cut? mark buffer = none) (pieces : List Bytes) :
    splitEach buffer pieces = split (buffer ++ pieces.flatten) := by
  induction pieces generalizing buffer with
  | nil =>
    rw [List.flatten_nil, List.append_nil, split_of_cut?_eq_none h]
    rfl
  | cons piece pieces ih =>
    rw [List.flatten_cons, ← List.append_assoc, split_append, ← ih (cut?_split _)]
    rfl

/-! ### Documents that are trimmed -/

/-- The mark behind bytes without one is the first if the bytes do not end with a line feed. -/
theorem firstAt_append_mark {bytes : Bytes} (hclean : ¬ mark <:+: bytes)
    (hend : bytes.getLast? ≠ some 10) : FirstAt mark (bytes ++ mark) bytes.length := by
  constructor
  · rw [List.drop_left]
  · intro i hi hmark
    rw [List.drop_append_of_le_length hi.le] at hmark
    rcases List.prefix_or_prefix_of_prefix hmark (List.prefix_append _ _) with hshort | hlong
    · exact hclean (hshort.isInfix.trans (List.drop_suffix i bytes).isInfix)
    · -- the bytes from there on would be line feeds
      have hne : bytes.drop i ≠ [] := by
        rw [Ne, List.drop_eq_nil_iff]
        omega
      have hlast : (bytes.drop i).getLast? = bytes.getLast? := by
        rw [List.getLast?_drop, if_neg (by omega)]
      obtain ⟨b, hb⟩ : ∃ b, (bytes.drop i).getLast? = some b :=
        ⟨_, List.getLast?_eq_some_getLast hne⟩
      have hten : b = 10 := by
        have hmem := hlong.mem (List.mem_of_getLast? hb)
        simpa [mark] using hmem
      exact hend (by rw [← hlast, hb, hten])

/-- What is written for a trimmed text without a mark can stand for a document. -/
theorem isRecord_of_trim {doc : List Char} (htrim : trim doc = doc)
    (hclean : ¬ mark <:+: Utf8.encode doc) : IsRecord (Utf8.encode doc) := by
  have hend : (Utf8.encode doc).getLast? ≠ some 10 := by
    intro hend
    obtain ⟨c, hc, hnumber⟩ := Utf8.getLast?_of_encode (by decide) hend
    have hfeed : c = '\n' := Char.toNat_inj.1 hnumber
    rw [← htrim] at hc
    have hblank := isBlank_of_getLast?_trim hc
    rw [hfeed] at hblank
    exact absurd hblank (by decide)
  exact cut?_eq_some_iff.2 ⟨(List.append_nil _).symm, firstAt_append_mark hclean hend⟩

/-- A trimmed text is read as it was written. -/
theorem ofBytes_encode {doc : String} (htrim : trim doc.toList = doc.toList) :
    ofBytes (Utf8.encode doc.toList) = doc := by
  rw [ofBytes, Utf8.decodeLossy_encode, htrim, String.ofList_toList]

/-- Trimmed documents without a mark, each with the mark behind it, come out as they were. -/
theorem split_join_encode {docs : List String}
    (h : ∀ doc ∈ docs, trim doc.toList = doc.toList ∧ ¬ mark <:+: Utf8.encode doc.toList) :
    split (join (docs.map fun doc => Utf8.encode doc.toList)) = (docs, []) := by
  have hrecords : ∀ raw ∈ docs.map fun doc => Utf8.encode doc.toList, IsRecord raw :=
    List.forall_mem_map.2 fun doc hdoc => isRecord_of_trim (h doc hdoc).1 (h doc hdoc).2
  have hread : docs.map (ofBytes ∘ fun doc => Utf8.encode doc.toList) = docs.map id :=
    List.map_congr_left fun doc hdoc => ofBytes_encode (h doc hdoc).1
  rw [split_join hrecords, List.map_map, hread, List.map_id]

/-- **No byte of a body is lost and no cut matters.** Taking the documents out after each piece
gives what taking them out at once gives, and this is determined by the only way to part the body.
Trimmed documents without a mark in them, each with a mark behind it, come out as they were. -/
theorem splitEach_lossless (pieces : List Bytes) :
    splitEach [] pieces = split pieces.flatten ∧
    (∃ raws rest, Parted pieces.flatten raws rest ∧
      split pieces.flatten =
        (raws.map fun raw => String.ofList (trim (Utf8.decodeLossy raw)), rest) ∧
      ∀ raws' rest', Parted pieces.flatten raws' rest' → raws' = raws ∧ rest' = rest) ∧
    ∀ docs : List String,
      (∀ doc ∈ docs, trim doc.toList = doc.toList ∧ ¬ mark <:+: Utf8.encode doc.toList) →
      pieces.flatten = join (docs.map fun doc => Utf8.encode doc.toList) →
      splitEach [] pieces = (docs, []) := by
  have hwhole : splitEach [] pieces = split pieces.flatten :=
    splitEach_eq (cut?_nil mark_ne_nil) pieces
  refine ⟨hwhole, ?_, fun docs hdocs hpieces => ?_⟩
  · obtain ⟨raws, rest, hparted⟩ := exists_parted pieces.flatten
    exact ⟨raws, rest, hparted, hparted.split_eq, fun _ _ h' => hparted.unique h'⟩
  · rw [hwhole, hpieces, split_join_encode hdocs]

/-- An empty document between two others, in a body that is cut in three places inside a mark. -/
theorem splitEach_lossless_cut :
    let docs := ["\x7b\x7d", "", "é\nb"]
    let pieces : List Bytes := [[123, 125, 10], [10, 10, 10, 10, 10, 10], [10, 195],
      [169, 10, 98, 10, 10, 10], [], [10]]
    (∀ doc ∈ docs, trim doc.toList = doc.toList ∧ ¬ mark <:+: Utf8.encode doc.toList) ∧
      pieces.flatten = join (docs.map fun doc => Utf8.encode doc.toList) ∧
      splitEach [] pieces = (docs, []) := by
  intro docs pieces
  have hdocs : ∀ doc ∈ docs, trim doc.toList = doc.toList ∧ ¬ mark <:+: Utf8.encode doc.toList := by
    decide +kernel
  have hpieces : pieces.flatten = join (docs.map fun doc => Utf8.encode doc.toList) := by
    decide +kernel
  exact ⟨hdocs, hpieces, (splitEach_lossless pieces).2.2 docs hdocs hpieces⟩

end Document
end ClusterLink
