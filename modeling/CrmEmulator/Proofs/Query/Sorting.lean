import CrmEmulator.Analytics.Pipeline
import CrmEmulator.Proofs.Sorting
import CrmEmulator.Proofs.Value.Order

/-!
# CrmEmulator.Proofs.Query.Sorting — sorted rows

1. `Precedes`: how a key orders two values, with nulls at their end whatever the direction is.
2. `Stands`: how several keys order two rows that carry the numbers of their input.  The first key
   that tells them apart decides, and then their numbers.
3. `SortedStably`: the rows, each with its number, in that order.  There is only one such list.
4. Sorting by one more key in front keeps what the later keys arranged (`SortedStably.sort`), so
   sorting by the last key first arrives at the order of all keys.
-/

namespace CrmEmulator

/-! ## Values under a key -/

/-- The first value stands before the second. -/
inductive Precedes (direction : SortDirection) (nulls : NullsPosition) : Value → Value → Prop
  | ascending {a b : Value} (asc : direction = .asc) (ha : a.isNull = false)
      (hb : b.isNull = false) (less : a.compare b = .lt) : Precedes direction nulls a b
  | descending {a b : Value} (desc : direction = .desc) (ha : a.isNull = false)
      (hb : b.isNull = false) (greater : a.compare b = .gt) : Precedes direction nulls a b
  | nullLast {a b : Value} (last : nulls = .last) (ha : a.isNull = false) (hb : b.isNull) :
      Precedes direction nulls a b
  | nullFirst {a b : Value} (first : nulls = .first) (ha : a.isNull) (hb : b.isNull = false) :
      Precedes direction nulls a b

namespace OrderBy

variable {direction : SortDirection} {nulls : NullsPosition} {a b c : Value}

/-- Comparing in the other order gives the opposite. -/
theorem compareValues_swap (direction : SortDirection) (nulls : NullsPosition) (a b : Value) :
    compareValues direction nulls b a = (compareValues direction nulls a b).swap := by
  cases ha : a.isNull <;> cases hb : b.isNull <;> simp only [compareValues, ha, hb]
  case false.false =>
    rw [Value.compare_swap a b]
    cases direction <;> rfl
  case false.true | true.false => cases nulls <;> rfl
  case true.true => rfl

/-- A value comes first exactly if it precedes. -/
theorem compareValues_lt_iff :
    compareValues direction nulls a b = .lt ↔ Precedes direction nulls a b := by
  constructor
  · intro h
    cases ha : a.isNull <;> cases hb : b.isNull <;> simp only [compareValues, ha, hb] at h
    -- only where neither is null does the direction matter
    case false.false =>
      cases direction with
      | asc => exact .ascending rfl ha hb h
      | desc => exact .descending rfl ha hb (Ordering.swap_eq_lt.mp h)
    case false.true =>
      cases nulls with
      | first => cases h
      | last => exact .nullLast rfl ha hb
    case true.false =>
      cases nulls with
      | first => exact .nullFirst rfl ha hb
      | last => cases h
    case true.true => cases h
  · rintro (⟨rfl, ha, hb, hcmp⟩ | ⟨rfl, ha, hb, hcmp⟩ | ⟨rfl, ha, hb⟩ | ⟨rfl, ha, hb⟩) <;>
      simp only [compareValues, ha, hb]
    · exact hcmp
    · exact Ordering.swap_eq_lt.mpr hcmp
    · rfl
    · rfl

/-- Values are level exactly if they compare as equal. -/
theorem compareValues_eq_iff : compareValues direction nulls a b = .eq ↔ a.compare b = .eq := by
  cases ha : a.isNull <;> cases hb : b.isNull <;> simp only [compareValues, ha, hb]
  case false.false =>
    cases direction with
    | asc => exact Iff.rfl
    | desc => exact Ordering.swap_eq_eq
  -- a null is neither equal to another value under a key nor without one
  case false.true =>
    rw [Value.compare_swap b a, Value.compare_null hb ha]
    cases nulls <;> decide
  case true.false =>
    rw [Value.compare_null ha hb]
    cases nulls <;> decide
  case true.true => exact iff_of_true trivial (Value.compare_nulls ha hb)

/-- The order under a key is transitive where the order of values is. -/
theorem compareValues_trans (hascending : ¬Value.Straddles a b c)
    (hdescending : ¬Value.Straddles c b a) (hab : (compareValues direction nulls a b).isLE)
    (hbc : (compareValues direction nulls b c).isLE) :
    (compareValues direction nulls a c).isLE := by
  cases ha : a.isNull <;> cases hb : b.isNull <;> cases hc : c.isNull <;>
    simp only [compareValues, ha, hb, hc] at hab hbc ⊢
  case false.false.false =>
    cases direction with
    | asc => exact Value.compare_trans hascending hab hbc
    | desc =>
      simp only [SortDirection.turn, ← Value.compare_swap] at hab hbc ⊢
      exact Value.compare_trans hdescending hbc hab
  -- a null between two other values would stand at both ends
  case false.true.false =>
    cases nulls with
    | first => cases hab
    | last => cases hbc
  case false.false.true | true.true.false => exact hbc
  case false.true.true | true.false.false => exact hab
  case true.false.true | true.true.true => rfl

end OrderBy

/-! ## Rows under a key -/

/-- An integer that is too large to be sure that it is a double. -/
def Value.isBeyond : Value → Bool
  | .integer n => Double.exactBound < n.toInt.natAbs
  | _ => false

def Value.isDouble : Value → Bool
  | .double _ => true
  | _ => false

/-- Straddling takes a double, and an integer beyond those that are doubles. -/
theorem Value.Straddles.isBeyond {a b c : Value} (h : Straddles a b c) :
    b.isDouble ∧ (a.isBeyond ∨ c.isBeyond) := by
  cases h with
  | intro hlt hfirst hlast =>
    refine ⟨rfl, ?_⟩
    simpa [Value.isBeyond] using (Straddles.intro hlt hfirst hlast).beyond

/-- A field of the rows holds both a double and an integer beyond `2 ^ 53`. -/
def Mixes (field : String) (rows : List Record) : Prop :=
  (∃ r ∈ rows, (r.getOrNull field).isDouble) ∧ ∃ r ∈ rows, (r.getOrNull field).isBeyond

instance (field : String) (rows : List Record) : Decidable (Mixes field rows) :=
  inferInstanceAs (Decidable (_ ∧ _))

/-- A field that does not mix them has no straddling rows. -/
theorem not_straddles_of_not_mixes {field : String} {rows : List Record}
    (h : ¬Mixes field rows) {r s t : Record} (hr : r ∈ rows) (hs : s ∈ rows) (ht : t ∈ rows) :
    ¬Value.Straddles (r.getOrNull field) (s.getOrNull field) (t.getOrNull field) := by
  intro hstraddles
  obtain ⟨hdouble, hbeyond⟩ := hstraddles.isBeyond
  refine h ⟨⟨s, hs, hdouble⟩, ?_⟩
  rcases hbeyond with hbeyond | hbeyond
  · exact ⟨r, hr, hbeyond⟩
  · exact ⟨t, ht, hbeyond⟩

/-- Comparing rows by a field that does not mix them is an order. -/
theorem OrderBy.orders {o : OrderBy} {rows : List Record} (h : ¬Mixes o.field rows) :
    Orders o.compare rows where
  swap _ _ _ _ := compareValues_swap o.direction o.nulls _ _
  trans _ hr _ hs _ ht :=
    compareValues_trans (not_straddles_of_not_mixes h hr hs ht)
      (not_straddles_of_not_mixes h ht hs hr)

/-! ## Rows under several keys -/

/-- One numbered row stands before another: by the first key on which they differ, and if there is
none, by their numbers. -/
def Stands (nulls : NullsPosition) :
    List (String × SortDirection) → Record × Nat → Record × Nat → Prop
  | [], x, y => x.2 < y.2
  | (field, direction) :: keys, x, y =>
    Precedes direction nulls (x.1.getOrNull field) (y.1.getOrNull field) ∨
      (x.1.getOrNull field).compare (y.1.getOrNull field) = .eq ∧ Stands nulls keys x y

/-- Standing before by several keys is by the first one, and then by the others. -/
theorem stands_cons {nulls : NullsPosition} {field : String} {direction : SortDirection}
    {keys : List (String × SortDirection)} {x y : Record × Nat} :
    Stands nulls ((field, direction) :: keys) x y ↔
      Before (fun x y => OrderBy.compare ⟨field, direction, nulls⟩ x.1 y.1) (Stands nulls keys)
        x y :=
  or_congr OrderBy.compareValues_lt_iff.symm
    (and_congr OrderBy.compareValues_eq_iff.symm Iff.rfl)

/-- Of two rows one stands before the other, not both. -/
theorem stands_asymm {nulls : NullsPosition} (keys : List (String × SortDirection))
    {x y : Record × Nat} (hxy : Stands nulls keys x y) : ¬Stands nulls keys y x := by
  induction keys with
  | nil => exact Nat.lt_asymm hxy
  | cons key keys ih =>
    obtain ⟨field, direction⟩ := key
    rw [stands_cons] at hxy ⊢
    exact hxy.asymm (OrderBy.compareValues_swap direction nulls _ _) ih

/-- The rows in the order of the keys, where rows that are equal on all of them keep the order of
their input. -/
structure SortedStably (nulls : NullsPosition) (keys : List (String × SortDirection))
    (rows sorted : List Record) : Prop where
  perm : sorted.Perm rows
  /-- Every row can be tied to a place of the input such that any two stand in order. -/
  numbered : ∃ numbered : List (Record × Nat), numbered.Perm rows.zipIdx ∧
    numbered.map (·.1) = sorted ∧ numbered.Pairwise (Stands nulls keys)

namespace SortedStably

variable {nulls : NullsPosition} {keys : List (String × SortDirection)} {rows sorted : List Record}

/-- Without keys the rows stay as they are. -/
theorem refl (nulls : NullsPosition) (rows : List Record) : SortedStably nulls [] rows rows where
  perm := List.Perm.refl rows
  numbered := by
    refine ⟨rows.zipIdx, List.Perm.refl _, List.zipIdx_map_fst 0 rows, ?_⟩
    have hnumbers : (rows.zipIdx.map (·.2)).Pairwise (· < ·) := by
      rw [List.zipIdx_map_snd]
      exact List.pairwise_lt_range'
    exact (List.pairwise_map.mp hnumbers).imp id

/-- Sorting by one more key in front. -/
theorem sort {field : String} (direction : SortDirection) (hmixes : ¬Mixes field rows)
    (h : SortedStably nulls keys rows sorted) :
    SortedStably nulls ((field, direction) :: keys) rows
      (stableSort (OrderBy.compare ⟨field, direction, nulls⟩) sorted) := by
  let key : OrderBy := ⟨field, direction, nulls⟩
  obtain ⟨numbered, hperm, hrows, hstands⟩ := h.numbered
  -- the numbered rows are sorted along with the rows
  have hperm' := stableSort_perm (fun x y : Record × Nat => key.compare x.1 y.1) numbered
  refine ⟨(stableSort_perm _ sorted).trans h.perm, _, hperm'.trans hperm, ?_, ?_⟩
  · rw [map_stableSort, hrows]
  · have hmem : ∀ x ∈ numbered, x.1 ∈ rows := by
      intro x hx
      have hx' := List.mem_map_of_mem (f := Prod.fst) hx
      rw [hrows] at hx'
      exact h.perm.mem_iff.mp hx'
    have horders : Orders key.compare rows := OrderBy.orders hmixes
    exact (pairwise_stableSort (horders.comap Prod.fst hmem) hstands).imp stands_cons.mpr

/-- However rows are sorted, they are sorted in one way. -/
theorem unique {sorted' : List Record} (h : SortedStably nulls keys rows sorted)
    (h' : SortedStably nulls keys rows sorted') : sorted = sorted' := by
  obtain ⟨numbered, hperm, rfl, hstands⟩ := h.numbered
  obtain ⟨numbered', hperm', rfl, hstands'⟩ := h'.numbered
  have hsame := List.Perm.eq_of_pairwise
    (fun x y _ _ hxy hyx => absurd hyx (stands_asymm keys hxy)) hstands hstands'
    (hperm.trans hperm'.symm)
  rw [hsame]

end SortedStably

/-- Sorting by keys sorts stably and lexicographically. -/
theorem sortedStably_sortByKeys {keys : List (String × SortDirection)} {rows : List Record}
    (h : ∀ key ∈ keys, ¬Mixes key.1 rows) : SortedStably .last keys rows (sortByKeys keys rows) := by
  induction keys with
  | nil => exact .refl .last rows
  | cons key keys ih =>
    obtain ⟨field, direction⟩ := key
    have hlater := ih fun key hkey => h key (List.mem_cons_of_mem _ hkey)
    exact hlater.sort direction (h (field, direction) List.mem_cons_self)

/-- Sorting by several keys, and by one key with nulls at either end, arrives at the order of the
keys if no key field mixes doubles with integers beyond `2 ^ 53`. -/
theorem sorting_is_lexicographic_and_stable (rows : List Record) :
    (∀ keys : List (String × SortDirection), (∀ key ∈ keys, ¬Mixes key.1 rows) →
      ∃ sorted, Saql.Step.apply (.order keys) (.rows rows) = .ok (.rows sorted) ∧
        SortedStably .last keys rows sorted) ∧
    ∀ o : OrderBy, ¬Mixes o.field rows →
      SortedStably o.nulls [(o.field, o.direction)] rows (OrderBy.arrange (some o) rows) := by
  refine ⟨fun keys h => ⟨sortByKeys keys rows, rfl, sortedStably_sortByKeys h⟩, fun o h => ?_⟩
  exact (SortedStably.refl o.nulls rows).sort o.direction h

/-- Towns with the same number of ferries, with none, and with an unknown number. -/
def towns : List Record :=
  [.ofFields [("Name", .text "Lund"), ("Ferries", .null), ("Size", .integer 2)],
    .ofFields [("Name", .text "Ystad"), ("Ferries", .integer 3), ("Size", .double (.ofInt 1))],
    .ofFields [("Name", .text "Malmö"), ("Size", .integer 3)],
    .ofFields [("Name", .text "Visby"), ("Ferries", .double (.ofInt 3)), ("Size", .integer 1)],
    .ofFields [("Name", .text "Oslo"), ("Ferries", .integer 4), ("Size", .integer 9)]]

/-- The most ferries first, then the smallest town. -/
def ferriesThenSize : List (String × SortDirection) := [("Ferries", .desc), ("Size", .asc)]

/-- Ystad and Visby are equal on both keys, and the towns without ferries come last. -/
theorem towns_are_sorted :
    (∃ sorted, Saql.Step.apply (.order ferriesThenSize) (.rows towns) = .ok (.rows sorted) ∧
      SortedStably .last ferriesThenSize towns sorted ∧
      sorted.map (fun r => (r.getOrNull "Name").coerceText) =
        ["Oslo", "Ystad", "Visby", "Lund", "Malmö"]) ∧
    SortedStably .first [("Ferries", .desc)] towns
      (OrderBy.arrange (some ⟨"Ferries", .desc, .first⟩) towns) := by
  obtain ⟨hkeys, hkey⟩ := sorting_is_lexicographic_and_stable towns
  obtain ⟨sorted, hsorted, hstably⟩ := hkeys ferriesThenSize (by decide +kernel)
  refine ⟨⟨sorted, hsorted, hstably, ?_⟩, hkey ⟨"Ferries", .desc, .first⟩ (by decide +kernel)⟩
  have hrun : sortByKeys ferriesThenSize towns = sorted := Stream.rows.inj (Except.ok.inj hsorted)
  rw [← hrun]
  decide +kernel

end CrmEmulator
