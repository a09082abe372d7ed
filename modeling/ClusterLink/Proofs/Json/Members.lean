import ClusterLink.Json.Fields
import ClusterLink.Proofs.Json.Printing

/-!
# The members of an object

The fields of a record are given by name: their order does not matter, nor do members under
other names (`Mixed.fields?`). An object that has been printed gives back what was put into it
(`parse?_record`).
-/

namespace ClusterLink

namespace Json

/-- The members of an object: those in `entries`, their names spelled in any way, and among them any
others whose names are none of `names`. -/
inductive Mixed (names : List String) : List (String × Tree) → List (List Piece × Tree) → Prop where
  /-- No members. -/
  | nil : Mixed names [] []
  /-- A member that is asked for. -/
  | entry {name : String} {key : List Piece} {t : Tree} {entries : List (String × Tree)}
      {members : List (List Piece × Tree)} : text? key = some name → Mixed names entries members →
      Mixed names ((name, t) :: entries) ((key, t) :: members)
  /-- Another member. -/
  | other {name : String} {key : List Piece} {t : Tree} {entries : List (String × Tree)}
      {members : List (List Piece × Tree)} : text? key = some name → name ∉ names →
      Mixed names entries members → Mixed names entries ((key, t) :: members)

variable {names : List String} {entries : List (String × Tree)}
  {members : List (List Piece × Tree)}

/-- Under a name is given what is found there, if all names are different. -/
theorem given?_eq_lookup (h : (entries.map (·.1)).Nodup) (name : String) :
    given? entries name = some (entries.lookup name) := by
  induction entries with
  | nil => rfl
  | cons m entries ih =>
    obtain ⟨n, t⟩ := m
    obtain ⟨hn, hentries⟩ := List.nodup_cons.1 h
    by_cases heq : n = name
    · subst heq
      have hnone : entries.filter (·.1 == n) = [] := by
        simp only [List.filter_eq_nil_iff, beq_iff_eq]
        rintro m hm rfl
        exact hn (List.mem_map.2 ⟨m, hm, rfl⟩)
      simp [given?, hnone]
    · have hskip : given? ((n, t) :: entries) name = given? entries name := by
        simp [given?, heq]
      rw [hskip, ih hentries, List.lookup_cons, beq_eq_false_iff_ne.2 (Ne.symm heq)]

/-- The other members do not matter to what is given under the names. -/
theorem Mixed.exists_named (h : Mixed names entries members) :
    ∃ named, members.mapM (fun (key, t) => (text? key).map (·, t)) = some named ∧
      ∀ name ∈ names, given? named name = given? entries name := by
  suffices hfilter : ∃ named, members.mapM (fun (key, t) => (text? key).map (·, t)) = some named ∧
      ∀ name ∈ names, named.filter (·.1 == name) = entries.filter (·.1 == name) by
    obtain ⟨named, hnamed, hfilter⟩ := hfilter
    exact ⟨named, hnamed, fun name hname => by rw [given?, hfilter name hname, given?]⟩
  induction h with
  | nil => exact ⟨[], rfl, fun _ _ => rfl⟩
  | @entry name key t entries members hkey _ ih =>
    obtain ⟨named, hnamed, hfilter⟩ := ih
    refine ⟨(name, t) :: named, by simp [List.mapM_cons, hkey, hnamed], fun other hother => ?_⟩
    rw [List.filter_cons, List.filter_cons, hfilter other hother]
  | @other name key t entries members hkey hname _ ih =>
    obtain ⟨named, hnamed, hfilter⟩ := ih
    refine ⟨(name, t) :: named, by simp [List.mapM_cons, hkey, hnamed], fun other hother => ?_⟩
    have hne : name ≠ other := by
      rintro rfl
      exact hname hother
    rw [List.filter_cons, beq_eq_false_iff_ne.2 hne, hfilter other hother]
    rfl

/-- An object gives its entries, and nothing under the other names. -/
theorem Mixed.fields? (h : Mixed names entries members) (hnodup : (entries.map (·.1)).Nodup) :
    (Tree.object members).fields? names = some (names.map fun name => entries.lookup name) := by
  obtain ⟨named, hnamed, hgiven⟩ := h.exists_named
  have hall (ns : List String) (hns : ∀ name ∈ ns, name ∈ names) :
      ns.mapM (given? named) = some (ns.map fun name => entries.lookup name) := by
    induction ns with
    | nil => rfl
    | cons n ns ih =>
      obtain ⟨hn, hns⟩ := List.forall_mem_cons.1 hns
      simp [List.mapM_cons, hgiven n hn, given?_eq_lookup hnodup, ih hns]
  simp [Tree.fields?, hnamed, hall names fun _ => id]

/-- The object with some entries. -/
def record (entries : List (String × Tree)) : Tree :=
  .object (entries.map fun m => (Piece.ofText m.1, m.2))

theorem printable_record (h : ∀ m ∈ entries, m.2.Printable) : (record entries).Printable := by
  refine .object ?_ ?_
  · intro m hm
    obtain ⟨n, -, rfl⟩ := List.mem_map.1 hm
    exact printable_ofText n.1
  · intro m hm
    obtain ⟨n, hn, rfl⟩ := List.mem_map.1 hm
    exact h n hn

/-- Every entry of an object is read back when the object has been printed. -/
theorem parse?_record (h : ∀ m ∈ entries, m.2.Printable) (names : List String) :
    ∃ members, Tree.parse? (record entries).render = some (.object members) ∧
      Mixed names (entries.map fun m => (m.1, m.2.reread)) members := by
  refine ⟨_, Tree.parse?_render (printable_record h), ?_⟩
  clear h
  induction entries with
  | nil => exact .nil
  | cons m entries ih => exact .entry (by rw [text?_map_reread, text?_ofText]) ih

end Json

end ClusterLink
