import ClusterLink.Proofs.Text.Cut
import Mathlib.Data.List.Infix

/-!
# Where a mark occurs

Cuts and parts in terms of the places at which a mark occurs in a text. A text
is cut at the first of them (`cut?_eq_some_iff`) and not cut if there is none
(`cut?_eq_none_iff`), so the parts of a text are determined by what they are put
together to and by where the mark occurs in them: `pieces_eq_concat_iff` is for any
mark, also one that can overlap itself, such as several line feeds, and
`pieces_eq_cons_iff` for a mark that begins in it only once, such as a line end.
-/

namespace ClusterLink.Text

variable {α : Type}

/-- The first occurrence of `mark` in `s` stands behind `n` elements. -/
structure FirstAt (mark s : List α) (n : Nat) : Prop where
  /-- There is one behind `n` elements. -/
  here : mark <+: s.drop n
  /-- There is none before. -/
  not_before : ∀ i < n, ¬ mark <+: s.drop i

theorem firstAt_zero {mark s : List α} (h : mark <+: s) : FirstAt mark s 0 :=
  ⟨h, fun _ hi => absurd hi (Nat.not_lt_zero _)⟩

/-- The first occurrence is either right here or one element further on. -/
theorem firstAt_cons_succ_iff {mark s : List α} {x : α} {n : Nat} :
    FirstAt mark (x :: s) (n + 1) ↔ ¬ mark <+: x :: s ∧ FirstAt mark s n := by
  constructor
  · rintro ⟨hhere, hbefore⟩
    exact ⟨hbefore 0 n.succ_pos, hhere, fun i hi => hbefore (i + 1) (Nat.succ_lt_succ hi)⟩
  · rintro ⟨hnot, hhere, hbefore⟩
    refine ⟨hhere, fun i hi => ?_⟩
    cases i with
    | zero => exact hnot
    | succ i => exact hbefore i (Nat.lt_of_succ_lt_succ hi)

/-- Marks behind all parts but the last are marks in front of all parts but the first. -/
theorem join_eq_of_cons_eq_concat {first last : List α} {parts more : List (List α)}
    (mark : List α) (h : first :: more = parts ++ [last]) :
    first ++ more.flatMap (mark ++ ·) = parts.flatMap (· ++ mark) ++ last := by
  induction parts generalizing first more with
  | nil =>
    obtain ⟨rfl, rfl⟩ : first = last ∧ more = [] := by simpa using h
    exact List.append_nil first
  | cons part parts ih =>
    rw [List.cons_append] at h
    obtain ⟨rfl, rfl⟩ := List.cons.inj h
    have hne : parts ++ [last] ≠ [] :=
      List.append_ne_nil_of_right_ne_nil parts (List.cons_ne_nil last [])
    obtain ⟨next, others, hnext⟩ := List.exists_cons_of_ne_nil hne
    rw [hnext, List.flatMap_cons, List.append_assoc, ih hnext.symm, List.flatMap_cons]
    simp only [List.append_assoc]

/-- A mark does not begin in a part without its first element. -/
theorem infix_append_iff_of_not_mem {m : α} {rest part s : List α} (h : m ∉ part) :
    m :: rest <:+: part ++ s ↔ m :: rest <:+: s := by
  induction part with
  | nil => rfl
  | cons x part ih =>
    obtain ⟨hx, hpart⟩ := not_or.1 (mt List.mem_cons.2 h)
    rw [List.cons_append, List.infix_cons_iff, List.cons_prefix_cons, ih hpart]
    exact or_iff_right fun hprefix => hx hprefix.1

/-- Nor does it end in a part without its last element. -/
theorem append_infix_iff_of_not_mem {m : α} {rest part s : List α} (h : m ∉ part) :
    rest ++ [m] <:+: s ++ part ↔ rest ++ [m] <:+: s := by
  have hreverse (t : List α) : rest ++ [m] <:+: t ↔ m :: rest.reverse <:+: t.reverse := by
    rw [← List.reverse_infix, List.reverse_append]
    rfl
  rw [hreverse, hreverse, List.reverse_append]
  exact infix_append_iff_of_not_mem (mt List.mem_reverse.1 h)

variable [BEq α] [LawfulBEq α]

/-- A text is cut unless the mark occurs nowhere in it. -/
theorem cut?_eq_none_iff {mark s : List α} : cut? mark s = none ↔ ¬ mark <:+: s := by
  induction s with
  | nil =>
    rw [cut?, cutOnto, List.infix_nil]
    cases mark <;> simp
  | cons x s ih =>
    rw [cut?_cons, List.infix_cons_iff, not_or, ← ih]
    by_cases hp : mark <+: x :: s
    · simp [hp]
    · simp [hp]

/-- A text is cut where the mark occurs first. -/
theorem cut?_eq_some_iff {mark s before after : List α} :
    cut? mark s = some (before, after) ↔
      s = before ++ mark ++ after ∧ FirstAt mark s before.length := by
  constructor
  · intro h
    refine ⟨eq_append_of_cut? h, ?_⟩
    induction s generalizing before with
    | nil =>
      obtain ⟨rfl, rfl, rfl⟩ : before = [] ∧ mark = [] ∧ after = [] := by
        simpa [and_assoc] using eq_append_of_cut? h
      exact firstAt_zero List.nil_prefix
    | cons x s ih =>
      rw [cut?_cons] at h
      by_cases hp : mark.isPrefixOf (x :: s) = true
      · rw [if_pos hp] at h
        cases h
        exact firstAt_zero (List.isPrefixOf_iff_prefix.1 hp)
      · rw [if_neg hp] at h
        obtain ⟨⟨part, rest⟩, hcut, heq⟩ := Option.map_eq_some_iff.1 h
        cases heq
        have hnot : ¬ mark <+: x :: s := fun hprefix => hp (List.isPrefixOf_iff_prefix.2 hprefix)
        exact firstAt_cons_succ_iff.2 ⟨hnot, ih hcut⟩
  · rintro ⟨hs, hfirst⟩
    induction before generalizing s with
    | nil =>
      subst hs
      cases mark with
      | nil => cases after <;> rfl
      | cons m mark => exact cut?_self_append (List.cons_ne_nil m mark) after
    | cons x before ih =>
      subst hs
      obtain ⟨hnot, hfirst⟩ := firstAt_cons_succ_iff.1 hfirst
      rw [List.cons_append, List.cons_append, cut?_cons, if_neg, ih rfl hfirst]
      · rfl
      · exact fun hp => hnot (List.isPrefixOf_iff_prefix.1 hp)

/-- In front of the first mark there is none. -/
theorem not_infix_of_cut? {mark s before after : List α} (hm : mark ≠ [])
    (h : cut? mark s = some (before, after)) : ¬ mark <:+: before := by
  rw [← cut?_eq_none_iff]
  cases hbefore : cut? mark before with
  | none => rfl
  | some cut =>
    -- the mark in front would be the first
    have hcut := cut?_append hbefore (mark ++ after)
    rw [← List.append_assoc, ← eq_append_of_cut? h, h] at hcut
    obtain ⟨hpart, -⟩ := Prod.mk.inj (Option.some.inj hcut)
    have hlength := congrArg List.length (eq_append_of_cut? hbefore)
    rw [List.length_append, List.length_append, ← hpart] at hlength
    have := List.length_pos_iff.2 hm
    omega

/-! ### A mark of one element -/

theorem cut?_singleton_eq_none_iff {m : α} {s : List α} : cut? [m] s = none ↔ m ∉ s := by
  rw [cut?_eq_none_iff, List.singleton_infix_iff]

theorem cut?_singleton_eq_some_iff {m : α} {s before after : List α} :
    cut? [m] s = some (before, after) ↔ s = before ++ m :: after ∧ m ∉ before := by
  constructor
  · intro h
    have hbefore := not_infix_of_cut? (List.cons_ne_nil m []) h
    rw [List.singleton_infix_iff] at hbefore
    exact ⟨by simpa using eq_append_of_cut? h, hbefore⟩
  · rintro ⟨rfl, hbefore⟩
    exact cut?_of_not_mem hbefore after

/-! ### Parts between marks -/

/-- **The parts of a text**, for any mark, also one that can overlap itself: each part is in front
of the first mark that follows, and no mark follows the last part. -/
theorem pieces_eq_concat_iff {mark s last : List α} {parts : List (List α)} (hm : mark ≠ []) :
    pieces mark s = parts ++ [last] ↔
      s = parts.flatMap (· ++ mark) ++ last ∧
        (∀ part ∈ parts, FirstAt mark (part ++ mark) part.length) ∧ ¬ mark <:+: last := by
  constructor
  · intro h
    induction parts generalizing s with
    | nil =>
      cases hcut : cut? mark s with
      | none =>
        rw [pieces_of_cut?_eq_none hcut] at h
        cases h
        exact ⟨rfl, List.forall_mem_nil _, cut?_eq_none_iff.1 hcut⟩
      | some cut =>
        rw [pieces_of_cut?_eq_some hm hcut] at h
        exact absurd (List.cons.inj h).2 (pieces_ne_nil mark cut.2)
    | cons part parts ih =>
      cases hcut : cut? mark s with
      | none =>
        rw [pieces_of_cut?_eq_none hcut] at h
        simp at h
      | some cut =>
        obtain ⟨before, after⟩ := cut
        rw [pieces_of_cut?_eq_some hm hcut, List.cons_append] at h
        obtain ⟨rfl, hafter⟩ := List.cons.inj h
        obtain ⟨rfl, hparts, hlast⟩ := ih hafter
        have hs := eq_append_of_cut? hcut
        refine ⟨?_, List.forall_mem_cons.2 ⟨?_, hparts⟩, hlast⟩
        · rw [hs, List.flatMap_cons, List.append_assoc _ (List.flatMap _ _)]
        · -- the mark behind the part is all that counts
          rw [hs] at hcut
          have hfirst := cut?_of_append_cut? (s := before ++ mark) hcut (by simp)
          exact (cut?_eq_some_iff.1 hfirst).2
  · rintro ⟨rfl, hparts, hlast⟩
    induction parts with
    | nil => exact pieces_of_cut?_eq_none (cut?_eq_none_iff.2 hlast)
    | cons part parts ih =>
      obtain ⟨hpart, hparts⟩ := List.forall_mem_cons.1 hparts
      have hfirst : cut? mark (part ++ mark) = some (part, []) :=
        cut?_eq_some_iff.2 ⟨(List.append_nil _).symm, hpart⟩
      rw [List.flatMap_cons, List.append_assoc,
        pieces_of_cut?_eq_some hm (cut?_append hfirst _), List.nil_append, ih hparts]
      rfl

/-! ### Marks that cannot overlap themselves -/

variable {m : α} {rest : List α}

/-- A mark whose first element stands in it only once is found behind a part without it. -/
theorem cut?_append_of_no_mark (hm : m ∉ rest) {part : List α} (h : ¬ m :: rest <:+: part)
    (s : List α) : cut? (m :: rest) (part ++ (m :: rest ++ s)) = some (part, s) := by
  induction part with
  | nil => exact cut?_self_append (List.cons_ne_nil m rest) s
  | cons x part ih =>
    rw [List.infix_cons_iff, not_or] at h
    have hnot : ¬ (m :: rest).isPrefixOf (x :: part ++ (m :: rest ++ s)) = true := by
      rw [List.isPrefixOf_iff_prefix]
      intro hprefix
      by_cases hlong : (m :: rest).length ≤ (x :: part).length
      · exact h.1 ((List.isPrefix_append_of_length hlong).1 hprefix)
      · -- the part would end inside the mark, which would begin again there
        have hinside : x :: part ++ [m] <+: m :: rest := by
          refine List.prefix_of_prefix_length_le ?_ hprefix ?_
          · rw [List.prefix_append_right_inj, List.cons_append]
            exact List.cons_prefix_cons.2 ⟨rfl, List.nil_prefix⟩
          · simp only [List.length_append, List.length_cons, List.length_nil] at hlong ⊢
            omega
        rw [List.cons_append, List.cons_prefix_cons] at hinside
        exact hm (hinside.2.mem (List.mem_append_right part (List.mem_singleton_self m)))
    rw [List.cons_append] at hnot ⊢
    rw [cut?_cons, if_neg hnot, ih h.2]
    rfl

/-- Such a mark is the first behind a part exactly if it does not occur in the part. -/
theorem firstAt_append_iff (hm : m ∉ rest) {part : List α} :
    FirstAt (m :: rest) (part ++ m :: rest) part.length ↔ ¬ m :: rest <:+: part := by
  constructor
  · intro h
    have hcut : cut? (m :: rest) (part ++ m :: rest) = some (part, []) :=
      cut?_eq_some_iff.2 ⟨(List.append_nil _).symm, h⟩
    exact not_infix_of_cut? (List.cons_ne_nil m rest) hcut
  · intro h
    have hcut := cut?_append_of_no_mark hm h []
    rw [List.append_nil] at hcut
    exact (cut?_eq_some_iff.1 hcut).2

/-- **The parts of a text are what stands between the marks.** -/
theorem pieces_eq_cons_iff (hm : m ∉ rest) {s first : List α} {more : List (List α)} :
    pieces (m :: rest) s = first :: more ↔
      s = first ++ more.flatMap (m :: rest ++ ·) ∧
        ∀ part ∈ first :: more, ¬ m :: rest <:+: part := by
  obtain ⟨parts, last, hparts⟩ : ∃ parts last, first :: more = parts ++ [last] :=
    ⟨_, _, (List.dropLast_concat_getLast (List.cons_ne_nil first more)).symm⟩
  rw [join_eq_of_cons_eq_concat _ hparts, hparts, pieces_eq_concat_iff (List.cons_ne_nil m rest)]
  simp only [firstAt_append_iff hm, List.forall_mem_append, List.forall_mem_singleton]

/-- What stands between the marks of two texts with a mark between them. -/
theorem pieces_append_mark_append (hm : m ∉ rest) (part s : List α) :
    pieces (m :: rest) (part ++ (m :: rest ++ s)) =
      pieces (m :: rest) part ++ pieces (m :: rest) s := by
  obtain ⟨first, more, hpart⟩ := List.exists_cons_of_ne_nil (pieces_ne_nil (m :: rest) part)
  obtain ⟨next, others, hs⟩ := List.exists_cons_of_ne_nil (pieces_ne_nil (m :: rest) s)
  obtain ⟨hpart', hmore⟩ := (pieces_eq_cons_iff hm).1 hpart
  obtain ⟨hs', hothers⟩ := (pieces_eq_cons_iff hm).1 hs
  rw [hpart, hs]
  refine (pieces_eq_cons_iff hm).2 ⟨?_, List.forall_mem_append.2 ⟨hmore, hothers⟩⟩
  rw [hpart', hs']
  simp only [List.append_eq, List.flatMap_append, List.flatMap_cons, List.append_assoc]

/-- A text is in one piece exactly if there is no mark in it. -/
theorem length_pieces_eq_one_iff (hm : m ∉ rest) {s : List α} :
    (pieces (m :: rest) s).length = 1 ↔ ¬ m :: rest <:+: s := by
  constructor
  · intro h
    obtain ⟨piece, hpiece⟩ := List.length_eq_one_iff.1 h
    obtain ⟨hs, hnone⟩ := (pieces_eq_cons_iff hm).1 hpiece
    rw [hs, List.flatMap_nil, List.append_nil]
    exact hnone piece List.mem_cons_self
  · intro h
    rw [pieces_of_cut?_eq_none (cut?_eq_none_iff.2 h)]
    rfl

/-- The last part stands behind the last mark. -/
theorem getLast?_pieces_eq_some_iff {s last : List α} :
    (pieces [m] s).getLast? = some last ↔
      m ∉ last ∧ (s = last ∨ ∃ before, s = before ++ m :: last) := by
  have hconcat (s last : List α) (parts : List (List α)) : pieces [m] s = parts ++ [last] ↔
      s = parts.flatMap (· ++ [m]) ++ last ∧ (∀ part ∈ parts, m ∉ part) ∧ m ∉ last := by
    simp only [pieces_eq_concat_iff (List.cons_ne_nil m []), firstAt_append_iff List.not_mem_nil,
      List.singleton_infix_iff]
  obtain ⟨parts, item, hpieces⟩ : ∃ parts item, pieces [m] s = parts ++ [item] :=
    ⟨_, _, (List.dropLast_concat_getLast (pieces_ne_nil [m] s)).symm⟩
  constructor
  · intro h
    rw [hpieces, List.getLast?_concat, Option.some.injEq] at h
    subst h
    obtain ⟨hs, -, hitem⟩ := (hconcat _ _ _).1 hpieces
    refine ⟨hitem, ?_⟩
    rcases List.eq_nil_or_concat parts with rfl | ⟨parts, part, rfl⟩
    · exact .inl hs
    · refine .inr ⟨parts.flatMap (· ++ [m]) ++ part, ?_⟩
      simp [hs]
  · rintro ⟨hlast, rfl | ⟨before, rfl⟩⟩
    · rw [(hconcat s s []).2 ⟨rfl, List.forall_mem_nil _, hlast⟩]
      rfl
    · obtain ⟨parts, item, hbefore⟩ : ∃ parts item, pieces [m] before = parts ++ [item] :=
        ⟨_, _, (List.dropLast_concat_getLast (pieces_ne_nil [m] before)).symm⟩
      obtain ⟨rfl, hparts, hitem⟩ := (hconcat _ _ _).1 hbefore
      have hall : ∀ part ∈ parts ++ [item], m ∉ part :=
        List.forall_mem_append.2 ⟨hparts, List.forall_mem_singleton.2 hitem⟩
      rw [(hconcat _ last (parts ++ [item])).2 ⟨by simp, hall, hlast⟩, List.getLast?_concat]

end ClusterLink.Text
