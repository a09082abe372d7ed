/-!
# Cutting a list at a mark

`cut? mark s` cuts `s` at the first place where the list `mark` occurs, and
drops the mark; `pieces mark s` cuts at every such place from the left. The
mark is a line end, a delimiter or a single separator, and the elements are
bytes or characters.
-/

namespace ClusterLink.Text

variable {α : Type} [BEq α]

/-- `cut?` on the rest of a list whose part before it is `acc`, last element first. -/
def cutOnto (mark acc : List α) : List α → Option (List α × List α)
  | [] => if mark.isEmpty then some (acc.reverse, []) else none
  | x :: rest =>
    if mark.isPrefixOf (x :: rest) then
      some (acc.reverse, (x :: rest).drop mark.length)
    else
      cutOnto mark (x :: acc) rest

/-- What stands before the first occurrence of `mark`, and what stands after it. -/
def cut? (mark s : List α) : Option (List α × List α) :=
  cutOnto mark [] s

/-- A cut only removes the mark. -/
theorem cutOnto_eq_some [LawfulBEq α] {mark acc s before after : List α}
    (h : cutOnto mark acc s = some (before, after)) :
    acc.reverse ++ s = before ++ mark ++ after := by
  induction s generalizing acc with
  | nil =>
    simp only [cutOnto] at h
    split at h <;> simp_all
  | cons x rest ih =>
    simp only [cutOnto] at h
    split at h
    · rename_i hp
      obtain ⟨t, ht⟩ := List.isPrefixOf_iff_prefix.1 hp
      simp only [Option.some.injEq, Prod.mk.injEq] at h
      obtain ⟨rfl, rfl⟩ := h
      rw [← ht]
      simp
    · have := ih h
      simpa using this

theorem eq_append_of_cut? [LawfulBEq α] {mark s before after : List α}
    (h : cut? mark s = some (before, after)) : s = before ++ mark ++ after := by
  simpa using cutOnto_eq_some h

/-- A cut at a mark that is not empty leaves less behind the mark than there was. -/
theorem length_lt_of_cut? [LawfulBEq α] {mark s before after : List α} (hm : mark ≠ [])
    (h : cut? mark s = some (before, after)) : after.length < s.length := by
  have hlen := congrArg List.length (eq_append_of_cut? h)
  have hpos := List.length_pos_iff.2 hm
  simp only [List.length_append] at hlen
  omega

/-- The parts between the occurrences of a mark, at least one; an empty mark cuts nothing. -/
def pieces [LawfulBEq α] (mark s : List α) : List (List α) :=
  if hm : mark = [] then [s]
  else
    match h : cut? mark s with
    | none => [s]
    | some (before, after) =>
      have := length_lt_of_cut? hm h
      before :: pieces mark after
termination_by s.length

end ClusterLink.Text
