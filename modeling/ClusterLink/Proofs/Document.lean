import ClusterLink.Document
import ClusterLink.Proofs.Text.Cut

/-!
# Documents of a body that comes in pieces

Splitting a body takes out its first document as long as there is one
(`split_eq_first?`) and leaves the beginning of a document that is not yet complete
(`first?_split`). When more of the body comes behind that beginning, splitting goes
on as if all of the body had come at once (`split_append`), wherever the body is
cut: within a mark, or within the bytes of a character.

When the beginning of a body of documents has come, what is left of it is the
beginning of one document and its mark. So documents that are no longer than
some limit leave more than that only where the body is cut inside a mark
(`lt_length_split_iff`).
-/

namespace ClusterLink.Document

open Text

theorem mark_ne_nil : mark ≠ [] := by
  decide

/-- A body without a mark has no complete document. -/
theorem split_of_cut?_eq_none {body : Bytes} (h : cut? mark body = none) :
    split body = ([], body) := by
  simp only [split, pieces_of_cut?_eq_none h]
  rfl

/-- The first mark ends the first document. -/
theorem split_of_cut?_eq_some {body bytes rest : Bytes} (h : cut? mark body = some (bytes, rest)) :
    split body = (ofBytes bytes :: (split rest).1, (split rest).2) := by
  have hne : pieces mark rest ≠ [] := pieces_ne_nil mark rest
  simp only [split, pieces_of_cut?_eq_some mark_ne_nil h, List.dropLast_cons_of_ne_nil hne,
    List.map_cons, List.getLast?_cons_of_ne_nil hne]

/-- What is left of a body has no mark. -/
theorem cut?_split (body : Bytes) : cut? mark (split body).2 = none := by
  induction hn : body.length using Nat.strongRecOn generalizing body with
  | ind n ih =>
    subst hn
    cases h : cut? mark body with
    | none =>
      rw [split_of_cut?_eq_none h]
      exact h
    | some cut =>
      rw [split_of_cut?_eq_some h]
      exact ih _ (length_lt_of_cut? mark_ne_nil h) _ rfl

/-- Splitting takes the first document out of a body as long as there is one. -/
theorem split_eq_first? (body : Bytes) :
    split body = match first? body with
      | none => ([], body)
      | some (document, rest) => (document :: (split rest).1, (split rest).2) := by
  cases h : cut? mark body with
  | none =>
    rw [split_of_cut?_eq_none h, first?, h]
    rfl
  | some cut =>
    rw [split_of_cut?_eq_some h, first?, h]
    rfl

/-- When it is done no document is left. -/
theorem first?_split (body : Bytes) : first? (split body).2 = none := by
  rw [first?, cut?_split, Option.map_none]

/-- More of a body may come behind what is left of it. -/
theorem split_append (body more : Bytes) :
    split (body ++ more) = ((split body).1 ++ (split ((split body).2 ++ more)).1,
      (split ((split body).2 ++ more)).2) := by
  induction hn : body.length using Nat.strongRecOn generalizing body with
  | ind n ih =>
    subst hn
    cases h : cut? mark body with
    | none =>
      rw [split_of_cut?_eq_none h]
      rfl
    | some cut =>
      rw [split_of_cut?_eq_some h, split_of_cut?_eq_some (cut?_append h more),
        ih _ (length_lt_of_cut? mark_ne_nil h) _ rfl]
      rfl

/-! ### The beginnings of a body of documents -/

/-- A body of documents, each followed by the mark. -/
def join (records : List Bytes) : Bytes :=
  records.flatMap (· ++ mark)

/-- Bytes that can stand for a document: the first mark is the one that follows them. -/
def IsRecord (bytes : Bytes) : Prop :=
  cut? mark (bytes ++ mark) = some (bytes, [])

/-- Some bytes are the beginning of a body of documents that ends inside the mark behind one of
them, and that document with what has come of its mark is longer than a limit. -/
def EndsInMark (limit : Nat) (records : List Bytes) (received : Bytes) : Prop :=
  ∃ done record k, done ++ [record] <+: records ∧ k < mark.length ∧
    received = join done ++ (record ++ mark.take k) ∧ limit < record.length + k

theorem join_cons (record : Bytes) (records : List Bytes) :
    join (record :: records) = record ++ mark ++ join records :=
  List.flatMap_cons

/-- The documents of a body come out again, in front of those of the rest. -/
theorem split_join_append {records : List Bytes} (h : ∀ record ∈ records, IsRecord record)
    (rest : Bytes) :
    split (join records ++ rest) = (records.map ofBytes ++ (split rest).1, (split rest).2) := by
  induction records with
  | nil => rfl
  | cons record records ih =>
    have hfirst : cut? mark (record ++ mark ++ (join records ++ rest)) =
        some (record, join records ++ rest) :=
      cut?_append (h record List.mem_cons_self) _
    rw [join_cons, List.append_assoc, split_of_cut?_eq_some hfirst,
      ih fun record' hrecord => h record' (List.mem_cons_of_mem record hrecord)]
    rfl

theorem split_join {records : List Bytes} (h : ∀ record ∈ records, IsRecord record) :
    split (join records) = (records.map ofBytes, []) := by
  have hsplit := split_join_append h []
  rwa [List.append_nil, split_of_cut?_eq_none (cut?_nil mark_ne_nil), List.append_nil] at hsplit

/-- A body that lacks the end of a document or of its mark leaves the beginning of that. -/
theorem split_join_append_of_append {records done : List Bytes} {record bytes more : Bytes}
    (h : ∀ record ∈ records, IsRecord record) (hpre : done ++ [record] <+: records)
    (happend : bytes ++ more = record ++ mark) (hmore : more ≠ []) :
    (split (join done ++ bytes)).2 = bytes := by
  have hall : ∀ record' ∈ done ++ [record], IsRecord record' :=
    fun record' hrecord' => h record' (hpre.mem hrecord')
  have hrecord : IsRecord record :=
    hall record (List.mem_append_right done (List.mem_singleton_self record))
  rw [split_join_append fun record' hdone => hall record' (List.mem_append_left _ hdone),
    split_of_cut?_eq_none (cut?_eq_none_of_append hrecord happend hmore)]

/-- The beginning of a body is all of it, or it ends before the end of a document and its mark. -/
theorem eq_or_exists_of_prefix_join {records : List Bytes} {received : Bytes}
    (h : received <+: join records) :
    received = join records ∨ ∃ done record bytes more, done ++ [record] <+: records ∧
      received = join done ++ bytes ∧ bytes ++ more = record ++ mark ∧ more ≠ [] := by
  induction records generalizing received with
  | nil => exact .inl (List.prefix_nil.1 h)
  | cons record records ih =>
    rw [join_cons] at h
    by_cases hfirst : record ++ mark <+: received
    · -- it reaches behind the mark of the first document
      obtain ⟨later, rfl⟩ := hfirst
      rcases ih ((List.prefix_append_right_inj _).1 h) with rfl | hlater
      · exact .inl (join_cons record records).symm
      · obtain ⟨done, next, bytes, more, hpre, rfl, happend, hmore⟩ := hlater
        refine .inr ⟨record :: done, next, bytes, more, ?_, ?_, happend, hmore⟩
        · exact List.cons_prefix_cons.2 ⟨rfl, hpre⟩
        · rw [join_cons, List.append_assoc _ (join done)]
    · obtain ⟨more, happend⟩ := (List.prefix_or_prefix_of_prefix h
        (List.prefix_append _ _)).resolve_right hfirst
      refine .inr ⟨[], record, received, more, List.cons_prefix_cons.2 ⟨rfl, List.nil_prefix⟩, rfl,
        happend, fun hmore => hfirst ⟨[], ?_⟩⟩
      rw [List.append_nil, ← happend, hmore, List.append_nil]

/-- **Where documents within a limit leave more than that**: only inside a mark. -/
theorem lt_length_split_iff {limit : Nat} {records : List Bytes} {received : Bytes}
    (hrecords : ∀ record ∈ records, IsRecord record ∧ record.length ≤ limit)
    (hreceived : received <+: join records) :
    limit < (split received).2.length ↔ EndsInMark limit records received := by
  have hclean : ∀ record ∈ records, IsRecord record := fun record h => (hrecords record h).1
  constructor
  · intro hlong
    rcases eq_or_exists_of_prefix_join hreceived with rfl | hinside
    · rw [split_join hclean] at hlong
      exact absurd hlong (Nat.not_lt_zero limit)
    · obtain ⟨done, record, bytes, more, hpre, rfl, happend, hmore⟩ := hinside
      rw [split_join_append_of_append hclean hpre happend hmore] at hlong
      have hshort : record.length ≤ limit := (hrecords record (hpre.mem (by simp))).2
      have hlength := congrArg List.length happend
      have hpos := List.length_pos_iff.2 hmore
      rw [List.length_append, List.length_append] at hlength
      -- the bytes reach beyond the document, so they are that and a part of its mark
      have hbytes : bytes = record ++ mark.take (bytes.length - record.length) :=
        calc
          bytes = (record ++ mark).take bytes.length := List.prefix_iff_eq_take.1 ⟨more, happend⟩
          _ = record ++ mark.take (bytes.length - record.length) := by
            rw [List.take_append, List.take_of_length_le (by omega)]
      refine ⟨done, record, bytes.length - record.length, hpre, by omega, ?_, by omega⟩
      rw [← hbytes]
  · rintro ⟨done, record, k, hpre, hk, rfl, hlong⟩
    have happend : record ++ mark.take k ++ mark.drop k = record ++ mark := by
      rw [List.append_assoc, List.take_append_drop]
    have hmore : mark.drop k ≠ [] := by
      rw [Ne, List.drop_eq_nil_iff]
      omega
    rw [split_join_append_of_append hclean hpre happend hmore, List.length_append,
      List.length_take]
    omega

end ClusterLink.Document
