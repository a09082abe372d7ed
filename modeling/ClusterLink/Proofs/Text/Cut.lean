import ClusterLink.Text.Cut

/-!
# Cuts and what is appended

A cut is decided by the first occurrence of its mark, so nothing that is
appended later can move it (`cut?_append`). Conversely a text that lacks only
the end of its mark is not cut at all (`cut?_eq_none_of_append`). From these
two follow the parts of a text that was written with marks between them
(`pieces_append_flatMap`).
-/

namespace ClusterLink.Text

variable {α : Type} [BEq α]

theorem cutOnto_eq (mark acc s : List α) :
    cutOnto mark acc s = (cut? mark s).map fun p => (acc.reverse ++ p.1, p.2) := by
  unfold cut?
  induction s generalizing acc with
  | nil =>
    simp only [cutOnto]
    split <;> simp
  | cons x rest ih =>
    simp only [cutOnto]
    split
    · simp
    · rw [ih (x :: acc), ih [x]]
      cases cutOnto mark [] rest <;> simp

theorem cut?_nil {mark : List α} (hm : mark ≠ []) : cut? mark [] = none := by
  simp [cut?, cutOnto, hm]

/-- A cut is either right here or one element further on. -/
theorem cut?_cons (mark : List α) (x : α) (rest : List α) :
    cut? mark (x :: rest) =
      if mark.isPrefixOf (x :: rest) then some ([], (x :: rest).drop mark.length)
      else (cut? mark rest).map fun p => (x :: p.1, p.2) := by
  rw [cut?, cutOnto]
  split
  · rfl
  · rw [cutOnto_eq]
    rfl

variable [LawfulBEq α]

theorem isPrefixOf_append_iff {mark s : List α} (t : List α) (h : mark.length ≤ s.length) :
    mark.isPrefixOf (s ++ t) = mark.isPrefixOf s := by
  rw [Bool.eq_iff_iff, List.isPrefixOf_iff_prefix, List.isPrefixOf_iff_prefix]
  constructor
  · exact fun hp => List.prefix_of_prefix_length_le hp (List.prefix_append s t) h
  · exact fun hp => hp.trans (List.prefix_append s t)

/-- What is appended does not move a cut. -/
theorem cut?_append {mark s before after : List α} (h : cut? mark s = some (before, after))
    (t : List α) : cut? mark (s ++ t) = some (before, after ++ t) := by
  induction s generalizing before with
  | nil =>
    by_cases hm : mark = []
    · subst hm
      simp only [cut?, cutOnto, List.isEmpty_nil, if_true, List.reverse_nil, Option.some.injEq,
        Prod.mk.injEq] at h
      obtain ⟨rfl, rfl⟩ := h
      cases t <;> simp [cut?, cutOnto]
    · simp [cut?_nil hm] at h
  | cons x rest ih =>
    have hlen := congrArg List.length (eq_append_of_cut? h)
    simp only [List.length_append] at hlen
    have hprefix : mark.isPrefixOf (x :: rest ++ t) = mark.isPrefixOf (x :: rest) :=
      isPrefixOf_append_iff t (by omega)
    rw [List.cons_append] at hprefix
    rw [cut?_cons] at h
    rw [List.cons_append, cut?_cons, hprefix]
    split at h
    · rename_i hp
      simp only [Option.some.injEq, Prod.mk.injEq] at h
      obtain ⟨rfl, rfl⟩ := h
      rw [if_pos hp, ← List.cons_append, List.drop_append_of_le_length (by omega)]
    · rename_i hp
      obtain ⟨p, hp', hpe⟩ := Option.map_eq_some_iff.1 h
      obtain ⟨b, a⟩ := p
      simp only [Prod.mk.injEq] at hpe
      obtain ⟨rfl, rfl⟩ := hpe
      rw [if_neg hp, ih hp']
      rfl

/-- A cut is decided by what stands up to the end of its mark. -/
theorem cut?_of_append_cut? {mark part s t rest : List α}
    (h : cut? mark (s ++ t) = some (part, rest)) (hlen : part.length + mark.length ≤ s.length) :
    cut? mark s = some (part, s.drop (part.length + mark.length)) := by
  induction s generalizing part with
  | nil =>
    obtain ⟨hpart, hmark⟩ := Nat.add_eq_zero_iff.1 (Nat.le_zero.1 hlen)
    rw [List.eq_nil_of_length_eq_zero hpart, List.eq_nil_of_length_eq_zero hmark]
    rfl
  | cons x s ih =>
    have hprefix : mark.isPrefixOf (x :: s ++ t) = mark.isPrefixOf (x :: s) :=
      isPrefixOf_append_iff t (by omega)
    rw [List.cons_append] at h hprefix
    rw [cut?_cons, hprefix] at h
    rw [cut?_cons]
    split at h
    · rename_i hp
      cases h
      rw [if_pos hp, List.length_nil, Nat.zero_add]
    · rename_i hp
      obtain ⟨⟨before, after⟩, hcut, hpart⟩ := Option.map_eq_some_iff.1 h
      cases hpart
      simp only [List.length_cons] at hlen
      rw [if_neg hp, ih hcut (by omega), Option.map_some, List.length_cons,
        Nat.add_right_comm, List.drop_succ_cons]

/-- A text that is cut only when more is appended has not come to the end of the mark. -/
theorem length_lt_of_cut?_eq_none {mark part s t rest : List α}
    (h : cut? mark (s ++ t) = some (part, rest)) (hs : cut? mark s = none) :
    s.length < part.length + mark.length := by
  refine Nat.lt_of_not_le fun hlen => ?_
  rw [cut?_of_append_cut? h hlen] at hs
  cases hs

/-- A text that ends inside its only mark is not cut. -/
theorem cut?_eq_none_of_append {mark part b t : List α}
    (h : cut? mark (part ++ mark) = some (part, [])) (he : b ++ t = part ++ mark) (ht : t ≠ []) :
    cut? mark b = none := by
  cases hb : cut? mark b with
  | none => rfl
  | some p =>
    have := cut?_append hb t
    rw [he, h] at this
    simp only [Option.some.injEq, Prod.mk.injEq] at this
    exact absurd (List.append_eq_nil_iff.1 this.2.symm).2 ht

theorem cut?_self_append {mark : List α} (hm : mark ≠ []) (s : List α) :
    cut? mark (mark ++ s) = some ([], s) := by
  cases mark with
  | nil => exact absurd rfl hm
  | cons m rest =>
    rw [List.cons_append, cut?_cons, if_pos]
    · simp
    · rw [List.isPrefixOf_iff_prefix, ← List.cons_append]
      exact List.prefix_append _ _

/-- No cut falls where the first element of the mark does not stand. -/
theorem cut?_append_of_not_mem {m : α} {rest part : List α} (h : m ∉ part) (s : List α) :
    cut? (m :: rest) (part ++ s) = (cut? (m :: rest) s).map fun p => (part ++ p.1, p.2) := by
  induction part with
  | nil => simp
  | cons x part ih =>
    simp only [List.mem_cons, not_or] at h
    rw [List.cons_append, cut?_cons, ih h.2, if_neg]
    · cases cut? (m :: rest) s <;> rfl
    · simp [List.isPrefixOf, h.1]

/-- A part without the first element of the mark ends where the mark begins. -/
theorem cut?_of_not_mem {m : α} {rest part : List α} (h : m ∉ part) (s : List α) :
    cut? (m :: rest) (part ++ (m :: rest ++ s)) = some (part, s) := by
  rw [cut?_append_of_not_mem h, cut?_self_append (by simp)]
  simp

/-- A text without the first element of the mark is not cut. -/
theorem cut?_eq_none_of_not_mem {m : α} {rest part : List α} (h : m ∉ part) :
    cut? (m :: rest) part = none := by
  have : cut? (m :: rest) (part ++ []) = _ := cut?_append_of_not_mem h []
  rw [List.append_nil, cut?_nil (by simp)] at this
  simpa using this

theorem pieces_of_cut?_eq_none {mark s : List α} (h : cut? mark s = none) :
    pieces mark s = [s] := by
  rw [pieces]
  split
  · rfl
  · split
    · rfl
    · rename_i hc
      rw [h] at hc
      cases hc

theorem pieces_of_cut?_eq_some {mark s before after : List α} (hm : mark ≠ [])
    (h : cut? mark s = some (before, after)) : pieces mark s = before :: pieces mark after := by
  rw [pieces, dif_neg hm]
  split
  · rename_i hc
    rw [h] at hc
    cases hc
  · rename_i hc
    rw [h] at hc
    simp only [Option.some.injEq, Prod.mk.injEq] at hc
    obtain ⟨rfl, rfl⟩ := hc
    rfl

theorem pieces_ne_nil (mark s : List α) : pieces mark s ≠ [] := by
  rw [pieces]
  split
  · exact List.cons_ne_nil _ _
  · split <;> exact List.cons_ne_nil _ _

/-- Parts written with marks between them are found again. -/
theorem pieces_append_flatMap {m : α} {rest part : List α} {parts : List (List α)}
    (hpart : m ∉ part) (hparts : ∀ p ∈ parts, m ∉ p) :
    pieces (m :: rest) (part ++ parts.flatMap (m :: rest ++ ·)) = part :: parts := by
  induction parts generalizing part with
  | nil =>
    rw [List.flatMap_nil, List.append_nil]
    exact pieces_of_cut?_eq_none (cut?_eq_none_of_not_mem hpart)
  | cons next parts ih =>
    rw [List.flatMap_cons, List.append_assoc,
      pieces_of_cut?_eq_some (by simp) (cut?_of_not_mem hpart _),
      ih (hparts next List.mem_cons_self) fun p hp => hparts p (List.mem_cons_of_mem _ hp)]

end ClusterLink.Text
