import ClusterLink.Text.Utf8

/-!
# Cutting finer

Things that carry bytes, such as reads or frames with a piece of a body, stand in a list with
others. One list is cut finer than another if some of these are cut into several where the
other has one (`Finer`); all the rest is the same in both.
-/

namespace ClusterLink.Text

variable {α : Type}

/-- The first list is the second with some of the bytes cut, where `carry` carries bytes. -/
inductive Finer (carry : Bytes → α) : List α → List α → Prop where
  /-- Nothing is there to cut. -/
  | nil : Finer carry [] []
  /-- What comes first is the same. -/
  | cons {fine coarse : List α} (x : α) : Finer carry fine coarse →
      Finer carry (x :: fine) (x :: coarse)
  /-- What comes first is cut. -/
  | cut {fine coarse : List α} {b : Bytes} (a : Bytes) : Finer carry fine (carry b :: coarse) →
      Finer carry (carry a :: fine) (carry (a ++ b) :: coarse)

namespace Finer

variable {carry : Bytes → α} {fine coarse : List α}

theorem refl (carry : Bytes → α) (xs : List α) : Finer carry xs xs := by
  induction xs with
  | nil => exact .nil
  | cons x xs ih => exact .cons x ih

/-- What comes before may be the same. -/
theorem append_left (xs : List α) (h : Finer carry fine coarse) :
    Finer carry (xs ++ fine) (xs ++ coarse) := by
  induction xs with
  | nil => exact h
  | cons x xs ih => exact .cons x ih

/-- Bytes may be cut into any number of pieces. -/
theorem flatten {pieces : List Bytes} (hne : pieces ≠ []) (h : Finer carry fine coarse) :
    Finer carry (pieces.map carry ++ fine) (carry pieces.flatten :: coarse) := by
  induction pieces with
  | nil => exact absurd rfl hne
  | cons piece pieces ih =>
    by_cases hlast : pieces = []
    · subst hlast
      rw [List.flatten_singleton]
      exact .cons _ h
    · rw [List.flatten_cons]
      exact .cut piece (ih hlast)

end Finer

end ClusterLink.Text
