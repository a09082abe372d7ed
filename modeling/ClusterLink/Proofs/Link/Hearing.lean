import ClusterLink.Link.Basic

/-!
# What callers hear

Callers who have stopped waiting get no answer, and what they still want to hand
in is withdrawn. So what callers hear is compared with what is said only up to such
callers (`LeavesOut`). Who has not stopped waiting, and is addressed just once, hears just
what is said to it (`Hears.of_mem`).
-/

namespace ClusterLink

namespace Link

/-! ### Lists up to those who have gone -/

/-- `kept` is `all` without some of those who have gone. -/
structure LeavesOut {α : Type} (caller : α → Nat) (gone : List Nat) (all kept : List α) : Prop where
  /-- Nothing is added, and the order is the same. -/
  sublist : kept.Sublist all
  /-- Those who have not gone are all there. -/
  filter_eq : kept.filter (caller · ∉ gone) = all.filter (caller · ∉ gone)

namespace LeavesOut

variable {α : Type} {caller : α → Nat} {gone : List Nat} {all all' kept kept' : List α}

theorem refl (all : List α) : LeavesOut caller gone all all :=
  ⟨List.Sublist.refl _, rfl⟩

theorem trans (h : LeavesOut caller gone all kept) (h' : LeavesOut caller gone kept kept') :
    LeavesOut caller gone all kept' :=
  ⟨h'.sublist.trans h.sublist, h'.filter_eq.trans h.filter_eq⟩

theorem append (h : LeavesOut caller gone all kept) (h' : LeavesOut caller gone all' kept') :
    LeavesOut caller gone (all ++ all') (kept ++ kept') := by
  refine ⟨h.sublist.append h'.sublist, ?_⟩
  rw [List.filter_append, List.filter_append, h.filter_eq, h'.filter_eq]

/-- Those who have gone may be left out. -/
theorem filter (all : List α) : LeavesOut caller gone all (all.filter (caller · ∉ gone)) := by
  refine ⟨List.filter_sublist, ?_⟩
  rw [List.filter_filter]
  simp only [Bool.and_self]

/-- More may have gone. -/
theorem mono {gone' : List Nat} (h : LeavesOut caller gone all kept) (hgone : gone ⊆ gone') :
    LeavesOut caller gone' all kept := by
  refine ⟨h.sublist, ?_⟩
  have hsplit (l : List α) : l.filter (caller · ∉ gone') =
      (l.filter (caller · ∉ gone)).filter (caller · ∉ gone') := by
    rw [List.filter_filter]
    refine List.filter_congr fun a _ => ?_
    by_cases ha : caller a ∈ gone
    · simp [ha, hgone ha]
    · simp [ha]
  rw [hsplit, hsplit all, h.filter_eq]

/-- Those who have not gone are kept. -/
theorem mem (h : LeavesOut caller gone all kept) {a : α} (ha : a ∈ all) (hgone : caller a ∉ gone) :
    a ∈ kept := by
  have hmem : a ∈ all.filter (caller · ∉ gone) := List.mem_filter.2 ⟨ha, by simpa using hgone⟩
  rw [← h.filter_eq] at hmem
  exact (List.mem_filter.1 hmem).1

/-- What is kept for one caller is all there was, or the caller has gone. -/
theorem filter_caller (h : LeavesOut caller gone all kept) (c : Nat) :
    (kept.filter (caller · = c)).Sublist (all.filter (caller · = c)) ∧
      (c ∉ gone → kept.filter (caller · = c) = all.filter (caller · = c)) := by
  refine ⟨h.sublist.filter _, fun hc => ?_⟩
  have hsplit (l : List α) : l.filter (caller · = c) =
      (l.filter (caller · ∉ gone)).filter (caller · = c) := by
    rw [List.filter_filter]
    refine List.filter_congr fun a _ => ?_
    by_cases ha : caller a = c <;> simp [ha, hc]
  rw [hsplit, hsplit all, h.filter_eq]

end LeavesOut

/-! ### Answering -/

/-- Several callers are answered. -/
theorem foldl_answer (l : Link) (news : List (Nat × Outcome)) :
    news.foldl (fun l p => l.answer p.1 p.2) l =
      { l with answers := l.answers ++ news.filter (·.1 ∉ l.abandoned) } := by
  induction news generalizing l with
  | nil => simp
  | cons p news ih =>
    rw [List.foldl_cons, ih, answer]
    by_cases hp : p.1 ∈ l.abandoned
    · rw [if_pos hp, List.filter_cons_of_neg (by simpa using hp)]
    · rw [if_neg hp, List.filter_cons_of_pos (by simpa using hp)]
      simp

/-- The news that the connection has ended, for some callers. -/
def closedTo (callers : List Nat) : List (Nat × Outcome) :=
  callers.map (·, .closed)

/-- The responses to some requests, for their callers. -/
def responsesTo (done : List Ticket) (responses : List Response) : List (Nat × Outcome) :=
  (done.zip responses).map fun p => (p.1.id, .response p.2)

/-- A caller is told that the connection has ended. -/
theorem answer_closed_eq (l : Link) (caller : Nat) : l.answer caller .closed =
    { l with answers := l.answers ++ (closedTo [caller]).filter (·.1 ∉ l.abandoned) } :=
  l.foldl_answer (closedTo [caller])

theorem deliver_eq (l : Link) (done : List Ticket) (responses : List Response) :
    l.deliver ((done.zip responses).map fun p => ⟨p.1.id, p.2⟩) = { l with
      answers := l.answers ++ (responsesTo done responses).filter (·.1 ∉ l.abandoned) } := by
  rw [← foldl_answer, responsesTo, List.foldl_map, deliver, List.foldl_map]

theorem closedTo_append (callers more : List Nat) :
    closedTo (callers ++ more) = closedTo callers ++ closedTo more :=
  List.map_append

theorem map_fst_closedTo (callers : List Nat) : (closedTo callers).map (·.1) = callers := by
  rw [closedTo, List.map_map]
  exact List.map_id callers

theorem map_fst_responsesTo {done : List Ticket} {responses : List Response}
    (h : done.length = responses.length) :
    (responsesTo done responses).map (·.1) = done.map (·.id) := by
  have hfst : (done.zip responses).map Prod.fst = done := List.map_fst_zip (by omega)
  conv => rhs; rw [← hfst]
  rw [responsesTo, List.map_map, List.map_map]
  rfl

theorem responsesTo_append {done more : List Ticket} {responses responses' : List Response}
    (h : done.length = responses.length) :
    responsesTo (done ++ more) (responses ++ responses') =
      responsesTo done responses ++ responsesTo more responses' := by
  rw [responsesTo, List.zip_append h, List.map_append]
  rfl

/-! ### What a caller hears -/

/-- How a caller's waiting has ended; more than one outcome would be one too many. -/
def outcomes (l : Link) (caller : Nat) : List Outcome :=
  (l.answers.filter (·.1 = caller)).map (·.2)

/-- A caller who has not stopped waiting hears just what is expected, and one who has may hear
nothing instead. -/
structure Hears (l : Link) (caller : Nat) (expected : List Outcome) : Prop where
  /-- Nothing else is heard, and nothing twice. -/
  sublist : (l.outcomes caller).Sublist expected
  /-- Nothing is missed by a caller who waits. -/
  outcomes_eq : caller ∉ l.abandoned → l.outcomes caller = expected

variable {l : Link}

theorem Hears.of_leavesOut {news : List (Nat × Outcome)}
    (h : LeavesOut (·.1) l.abandoned news l.answers) {caller : Nat}
    {expected : List (Nat × Outcome)} (hnews : news.filter (·.1 = caller) = expected) :
    l.Hears caller (expected.map (·.2)) := by
  obtain ⟨hsublist, heq⟩ := h.filter_caller caller
  subst hnews
  exact ⟨hsublist.map _, fun hwaits => congrArg (List.map Prod.snd) (heq hwaits)⟩

/-- Who is addressed once hears what is addressed to it. -/
theorem Hears.of_mem {news : List (Nat × Outcome)}
    (h : LeavesOut (·.1) l.abandoned news l.answers) (hnodup : (news.map (·.1)).Nodup)
    {caller : Nat} {outcome : Outcome} (hmem : (caller, outcome) ∈ news) :
    l.Hears caller [outcome] := by
  have honce : news.filter (·.1 = caller) = [(caller, outcome)] := by
    clear h
    induction news with
    | nil => cases hmem
    | cons p news ih =>
      rw [List.map_cons, List.nodup_cons] at hnodup
      rcases List.mem_cons.1 hmem with rfl | hmem
      · rw [List.filter_cons_of_pos (by simp), List.filter_eq_nil_iff.2]
        intro q hq heq
        exact hnodup.1 (List.mem_map.2 ⟨q, hq, by simpa using heq⟩)
      · have hne : ¬ p.1 = caller := fun heq =>
          hnodup.1 (List.mem_map.2 ⟨(caller, outcome), hmem, heq.symm⟩)
        rw [List.filter_cons_of_neg (by simpa using hne), ih hnodup.2 hmem]
  exact .of_leavesOut h honce

/-- Who is not addressed hears nothing. -/
theorem Hears.of_not_mem {news : List (Nat × Outcome)}
    (h : LeavesOut (·.1) l.abandoned news l.answers)
    {caller : Nat} (hmem : caller ∉ news.map (·.1)) : l.Hears caller [] := by
  have hnever : news.filter (·.1 = caller) = [] := by
    rw [List.filter_eq_nil_iff]
    intro p hp heq
    exact hmem (List.mem_map.2 ⟨p, hp, by simpa using heq⟩)
  exact .of_leavesOut h hnever

end Link

end ClusterLink
