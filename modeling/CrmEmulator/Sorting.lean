/-!
# CrmEmulator.Sorting — stable sorting by insertion

Every element moves from the end of the sorted part towards its beginning, past those that it is
smaller than, and stops at the first that it is not smaller than.  So elements that compare equal
keep their order.
-/

namespace CrmEmulator

variable {α : Type}

/-- Insert into a list in descending order, behind all elements that are greater. -/
def insertDown (cmp : α → α → Ordering) (x : α) : List α → List α
  | [] => [x]
  | y :: ys => if cmp x y = .lt then y :: insertDown cmp x ys else x :: y :: ys

/-- The elements in ascending order; equal ones keep their order. -/
def stableSort (cmp : α → α → Ordering) (xs : List α) : List α :=
  (xs.foldl (fun sorted x => insertDown cmp x sorted) []).reverse

/-- Inserting loses nothing and adds nothing but the new element. -/
theorem insertDown_perm (cmp : α → α → Ordering) (x : α) (ys : List α) :
    (insertDown cmp x ys).Perm (x :: ys) := by
  induction ys with
  | nil => exact List.Perm.refl _
  | cons y ys ih =>
    unfold insertDown
    split
    · exact (ih.cons y).trans (List.Perm.swap x y ys)
    · exact List.Perm.refl _

/-- Sorting loses nothing and adds nothing. -/
theorem stableSort_perm (cmp : α → α → Ordering) (xs : List α) : (stableSort cmp xs).Perm xs := by
  -- what is sorted so far and what is still to come make up the list
  have hsorted : ∀ (xs sorted : List α),
      (xs.foldl (fun sorted x => insertDown cmp x sorted) sorted).Perm (xs ++ sorted) := by
    intro xs
    induction xs with
    | nil => exact fun sorted => List.Perm.refl _
    | cons x xs ih =>
      intro sorted
      have hinsert := (insertDown_perm cmp x sorted).append_left xs
      exact ((ih _).trans hinsert).trans List.perm_middle
  have hall := hsorted xs []
  rw [List.append_nil] at hall
  exact (List.reverse_perm _).trans hall

end CrmEmulator
