import CrmEmulator.Sorting

/-!
# CrmEmulator.Proofs.Sorting — what stable sorting arrives at

1. `Orders`: a comparison that orders the elements of a list.
2. One insertion into a list in descending order leaves it in descending order, and so does the
   whole run.  Elements that compare equal stand as they stood before: `Before`.
3. Sorting commutes with a map that the comparison does not notice, so numbers can be tied to the
   elements to follow them.
-/

namespace CrmEmulator

variable {α β : Type} {cmp : α → α → Ordering} {R : α → α → Prop}

/-- The comparison is a total order on the elements of a list, up to equal ones. -/
structure Orders (cmp : α → α → Ordering) (xs : List α) : Prop where
  swap : ∀ x ∈ xs, ∀ y ∈ xs, cmp y x = (cmp x y).swap
  trans : ∀ x ∈ xs, ∀ y ∈ xs, ∀ z ∈ xs, (cmp x y).isLE → (cmp y z).isLE → (cmp x z).isLE

theorem Orders.comap {xs : List α} {ys : List β} (h : Orders cmp xs) (f : β → α)
    (hmem : ∀ y ∈ ys, f y ∈ xs) : Orders (fun a b => cmp (f a) (f b)) ys where
  swap a ha b hb := h.swap (f a) (hmem a ha) (f b) (hmem b hb)
  trans a ha b hb c hc := h.trans (f a) (hmem a ha) (f b) (hmem b hb) (f c) (hmem c hc)

theorem Orders.subset {xs ys : List α} (h : Orders cmp xs) (hsub : ys ⊆ xs) : Orders cmp ys :=
  h.comap id fun _ hy => hsub hy

/-- The first element is smaller, or the two compare equal and stood so before. -/
def Before (cmp : α → α → Ordering) (R : α → α → Prop) (x y : α) : Prop :=
  cmp x y = .lt ∨ cmp x y = .eq ∧ R x y

theorem Before.isLE {x y : α} (h : Before cmp R x y) : (cmp x y).isLE := by
  rcases h with h | ⟨h, -⟩ <;> rw [h] <;> rfl

/-- What is not greater, and earlier where it is equal, stands before. -/
theorem before_of_isLE {x y : α} (h : (cmp x y).isLE) (hR : R x y) : Before cmp R x y := by
  cases hcmp : cmp x y with
  | lt => exact .inl hcmp
  | eq => exact .inr ⟨hcmp, hR⟩
  | gt =>
    rw [hcmp] at h
    cases h

/-- Of two elements one stands before the other, not both. -/
theorem Before.asymm {x y : α} (hswap : cmp y x = (cmp x y).swap) (hR : R x y → ¬R y x)
    (h : Before cmp R x y) : ¬Before cmp R y x := by
  unfold Before
  rw [hswap]
  rcases h with hlt | ⟨heq, hxy⟩
  · simp [hlt]
  · simpa [heq] using hR hxy

/-! ## Order -/

/-- One insertion of an element that stood behind all others. -/
theorem pairwise_insertDown {x : α} {ys : List α} (horders : Orders cmp (x :: ys))
    (hys : ys.Pairwise fun y z => Before cmp R z y) (hx : ∀ y ∈ ys, R y x) :
    (insertDown cmp x ys).Pairwise fun y z => Before cmp R z y := by
  induction ys with
  | nil => exact List.pairwise_singleton _ _
  | cons y ys ih =>
    obtain ⟨hbefore, hys'⟩ := List.pairwise_cons.mp hys
    unfold insertDown
    split
    · next hlt =>
      -- everything behind `y` is before it, and so is the new element
      refine List.pairwise_cons.mpr ⟨fun z hz => ?_, ih ?_ hys' ?_⟩
      · rcases List.mem_cons.mp ((insertDown_perm cmp x ys).mem_iff.mp hz) with rfl | hz
        · exact .inl hlt
        · exact hbefore z hz
      · exact horders.subset (List.cons_subset_cons x (List.subset_cons_self y ys))
      · exact fun z hz => hx z (List.mem_cons_of_mem y hz)
    · next hlt =>
      have hxmem : x ∈ x :: y :: ys := List.mem_cons_self
      have hymem : y ∈ x :: y :: ys := List.mem_cons_of_mem x List.mem_cons_self
      have hyx : (cmp y x).isLE := by
        rw [horders.swap x hxmem y hymem]
        cases hcmp : cmp x y with
        | lt => exact absurd hcmp hlt
        | eq | gt => rfl
      refine List.pairwise_cons.mpr ⟨fun z hz => before_of_isLE ?_ (hx z hz), hys⟩
      rcases List.mem_cons.mp hz with rfl | hz'
      · exact hyx
      · exact horders.trans z (List.mem_cons_of_mem x hz) y hymem x hxmem (hbefore z hz').isLE hyx

/-- A run of insertions. -/
theorem pairwise_foldl_insertDown {xs sorted : List α} (horders : Orders cmp (xs ++ sorted))
    (hxs : xs.Pairwise R) (hacross : ∀ y ∈ sorted, ∀ x ∈ xs, R y x)
    (hsorted : sorted.Pairwise fun y z => Before cmp R z y) :
    (xs.foldl (fun sorted x => insertDown cmp x sorted) sorted).Pairwise
      fun y z => Before cmp R z y := by
  induction xs generalizing sorted with
  | nil => exact hsorted
  | cons x xs ih =>
    obtain ⟨hx, hxs'⟩ := List.pairwise_cons.mp hxs
    have hperm := insertDown_perm cmp x sorted
    refine ih (horders.subset ?_) hxs' ?_ ?_
    · exact ((hperm.append_left xs).trans List.perm_middle).subset
    · intro y hy z hz
      rcases List.mem_cons.mp (hperm.mem_iff.mp hy) with rfl | hy
      · exact hx z hz
      · exact hacross y hy z (List.mem_cons_of_mem x hz)
    · refine pairwise_insertDown (horders.subset ?_) hsorted fun y hy =>
        hacross y hy x List.mem_cons_self
      exact List.cons_subset_cons x (List.subset_append_right xs sorted)

/-- Sorted elements are in order; those that compare equal stand to each other as they did. -/
theorem pairwise_stableSort {xs : List α} (horders : Orders cmp xs) (hxs : xs.Pairwise R) :
    (stableSort cmp xs).Pairwise (Before cmp R) := by
  refine List.pairwise_reverse.mpr (pairwise_foldl_insertDown ?_ hxs ?_ List.Pairwise.nil)
  · rwa [List.append_nil]
  · exact fun y hy => absurd hy List.not_mem_nil

/-! ## Maps -/

/-- Inserting by keys is inserting the keys. -/
theorem map_insertDown (f : β → α) (x : β) (ys : List β) :
    (insertDown (fun a b => cmp (f a) (f b)) x ys).map f = insertDown cmp (f x) (ys.map f) := by
  induction ys with
  | nil => rfl
  | cons y ys ih =>
    unfold insertDown
    split
    · rw [List.map_cons, ih]
      exact (if_pos ‹_›).symm
    · exact (if_neg ‹_›).symm

/-- Sorting by keys sorts the keys. -/
theorem map_stableSort (f : β → α) (xs : List β) :
    (stableSort (fun a b => cmp (f a) (f b)) xs).map f = stableSort cmp (xs.map f) := by
  have hfold : ∀ (xs sorted : List β),
      (xs.foldl (fun sorted x => insertDown (fun a b => cmp (f a) (f b)) x sorted) sorted).map f =
        (xs.map f).foldl (fun sorted x => insertDown cmp x sorted) (sorted.map f) := by
    intro xs
    induction xs with
    | nil => exact fun sorted => rfl
    | cons x xs ih =>
      intro sorted
      rw [List.foldl_cons, ih, map_insertDown, List.map_cons, List.foldl_cons]
  rw [stableSort, stableSort, List.map_reverse, hfold, List.map_nil]

end CrmEmulator
