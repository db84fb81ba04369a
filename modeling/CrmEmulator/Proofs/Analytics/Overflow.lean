import CrmEmulator.Analytics.Pipeline
import CrmEmulator.Proofs.Outcome
import Mathlib.Algebra.GroupWithZero.Nat
import Mathlib.Algebra.Ring.Int.Defs
import Mathlib.Data.List.Infix

/-!
# CrmEmulator.Proofs.Analytics.Overflow — sums that leave the 64-bit range

1. `YieldsIf`: work that has a result under a condition, and is broken off without it.
2. `StaysInRange`: integers that can be added up from left to right without leaving the range.  Then
   their sum is exact; if they cannot, it breaks the work off.
3. Only a field without doubles is summed up in integers.
-/

namespace CrmEmulator

open Saql

/-! ## Work that may be broken off -/

/-- There is a result if a condition holds; if it does not, the work is broken off. -/
structure YieldsIf {α : Type} (p : Prop) (x : Except Halt α) : Prop where
  ok : p → ∃ a, x = .ok a
  overflow : ¬p → x = .error .overflow

namespace YieldsIf

variable {α β : Type} {p : Prop} {x : Except Halt α}

theorem of_ok (h : p) (a : α) : YieldsIf p (.ok a) := ⟨fun _ => ⟨a, rfl⟩, fun hp => (hp h).elim⟩

/-- What is made of a result afterwards makes no difference. -/
theorem map (h : YieldsIf p x) (f : α → β) : YieldsIf p (f <$> x) where
  ok hp := by
    obtain ⟨a, rfl⟩ := h.ok hp
    exact ⟨f a, rfl⟩
  overflow hp := by
    rw [h.overflow hp]
    rfl

/-- Work on one element after the other has a result if the work on each of them has one. -/
theorem mapM {f : α → Except Halt β} {p : α → Prop} {xs : List α}
    (h : ∀ x ∈ xs, YieldsIf (p x) (f x)) : YieldsIf (∀ x ∈ xs, p x) (xs.mapM f) := by
  induction xs with
  | nil => exact of_ok (List.forall_mem_nil _) []
  | cons first rest ih =>
    obtain ⟨hfirst, hrest⟩ := List.forall_mem_cons.mp h
    have hothers := ih hrest
    rw [List.mapM_cons, List.forall_mem_cons]
    by_cases hp : p first
    · obtain ⟨y, hy⟩ := hfirst.ok hp
      rw [hy, ok_bind]
      have hlist := hothers.map (y :: ·)
      exact ⟨fun hall => hlist.ok hall.2, fun hnot => hlist.overflow fun hall => hnot ⟨hp, hall⟩⟩
    · rw [hfirst.overflow hp]
      exact ⟨fun hall => (hp hall.1).elim, fun _ => rfl⟩

end YieldsIf

/-! ## The way to a sum -/

/-- However many of the integers are added up, from the first one on, the sum is in the range. -/
def StaysInRange (ns : List Int) : Prop := ∀ before, before <+: ns → Numeral.inInt64 before.sum

instance (ns : List Int) : Decidable (StaysInRange ns) :=
  decidable_of_iff (∀ before ∈ ns.inits, Numeral.inInt64 before.sum)
    (by simp only [List.mem_inits, StaysInRange])

theorem toInt_ofInt {n : Int} (h : Numeral.inInt64 n) : (Int64.ofInt n).toInt = n := by
  have hbound : Numeral.int64Bound = 2 ^ 63 := rfl
  simp only [Numeral.inInt64, hbound, Bool.and_eq_true, decide_eq_true_eq] at h
  exact Int64.toInt_ofInt_of_le h.1 h.2

theorem inInt64_toInt (n : Int64) : Numeral.inInt64 n.toInt := by
  have hbound : Numeral.int64Bound = 2 ^ 63 := rfl
  simp only [Numeral.inInt64, hbound, Bool.and_eq_true, decide_eq_true_eq]
  exact ⟨n.le_toInt, n.toInt_lt⟩

/-- Adding integers to a sum that was begun.  The sum stays exact as long as it stays in the range,
and the first addition that leaves the range breaks the work off. -/
theorem foldlM_addIntegers (start : Int64) (ns : List Int64) :
    ((∀ before, before <+: ns.map Int64.toInt → Numeral.inInt64 (start.toInt + before.sum)) →
      ns.foldlM addIntegers start = .ok (Int64.ofInt (start.toInt + (ns.map Int64.toInt).sum))) ∧
    ((∃ before, before <+: ns.map Int64.toInt ∧
        Numeral.inInt64 (start.toInt + before.sum) = false) →
      ns.foldlM addIntegers start = .error .overflow) := by
  induction ns generalizing start with
  | nil =>
    refine ⟨fun _ => ?_, ?_⟩
    · rw [List.map_nil, List.sum_nil, Int.add_zero, Int64.ofInt_toInt]
      rfl
    · rintro ⟨before, hbefore, hout⟩
      rw [List.map_nil, List.prefix_nil] at hbefore
      rw [hbefore, List.sum_nil, Int.add_zero, inInt64_toInt] at hout
      cases hout
  | cons n ns ih =>
    rw [List.foldlM_cons, List.map_cons]
    cases hin : Numeral.inInt64 (start.toInt + n.toInt) with
    | false =>
      have hadd : addIntegers start n = .error .overflow := by simp [addIntegers, hin]
      rw [hadd, error_bind]
      refine ⟨fun hall => ?_, fun _ => rfl⟩
      have hone := hall [n.toInt] (by simp)
      rw [List.sum_singleton, hin] at hone
      cases hone
    | true =>
      -- the sum so far is exact, and the rest is added to it
      have hadd : addIntegers start n = .ok (Int64.ofInt (start.toInt + n.toInt)) := by
        simp [addIntegers, hin]
      have hnext := ih (Int64.ofInt (start.toInt + n.toInt))
      rw [toInt_ofInt hin] at hnext
      rw [hadd, ok_bind, List.sum_cons, ← Int.add_assoc]
      refine ⟨fun hall => hnext.1 fun before hbefore => ?_, ?_⟩
      · have hlonger := hall (n.toInt :: before) ((List.prefix_cons_inj _).mpr hbefore)
        rwa [List.sum_cons, ← Int.add_assoc] at hlonger
      · rintro ⟨before, hbefore, hout⟩
        refine hnext.2 ?_
        rcases List.prefix_cons_iff.mp hbefore with rfl | ⟨tail, rfl, htail⟩
        · rw [List.sum_nil, Int.add_zero, inInt64_toInt] at hout
          cases hout
        · rw [List.sum_cons, ← Int.add_assoc] at hout
          exact ⟨tail, htail, hout⟩

/-- Integers of which no addition leaves the range have an exact sum. -/
theorem sumIntegers_of_staysInRange {ns : List Int64} (h : StaysInRange (ns.map Int64.toInt)) :
    sumIntegers ns = .ok (Int64.ofInt (ns.map Int64.toInt).sum) := by
  have hzero : (0 : Int64).toInt = 0 := rfl
  have hsum := (foldlM_addIntegers 0 ns).1
  simp only [hzero, Int.zero_add] at hsum
  exact hsum h

/-- Integers are added up without a result if some of them, from the first one on, add up to a
number outside the range. -/
theorem sumIntegers_of_not_staysInRange {ns : List Int64}
    (h : ¬StaysInRange (ns.map Int64.toInt)) : sumIntegers ns = .error .overflow := by
  have hzero : (0 : Int64).toInt = 0 := rfl
  have hsum := (foldlM_addIntegers 0 ns).2
  simp only [hzero, Int.zero_add] at hsum
  simp only [StaysInRange, not_forall, Bool.not_eq_true] at h
  obtain ⟨before, hbefore, hout⟩ := h
  exact hsum ⟨before, hbefore, hout⟩

/-- Integers that stay in the range add up to a number in it. -/
theorem StaysInRange.sum {ns : List Int} (h : StaysInRange ns) : Numeral.inInt64 ns.sum :=
  h ns List.prefix_rfl

/-! ## Sums of a field -/

/-- The integers in a field of rows. -/
def integersOf (field : String) (rows : List Record) : List Int :=
  (presentValues (some field) rows).filterMap fun v => v.integer?.map Int64.toInt

/-- The integers of a field are those of its present values. -/
theorem integersOf_eq (field : String) (rows : List Record) :
    integersOf field rows =
      rows.filterMap fun row => (row.get? field).bind fun v => v.integer?.map Int64.toInt := by
  rw [integersOf, presentValues, List.filterMap_filter, List.filterMap_filterMap]
  congr 1
  funext row
  cases row.get? field with
  | none => rfl
  | some v => cases v <;> rfl

/-- No row has a double in the field. -/
def WithoutDoubles (field : String) (rows : List Record) : Prop :=
  ∀ row ∈ rows, ∀ x, row.get? field ≠ some (.double x)

/-- A field without doubles is summed up in integers. -/
theorem sum_eq_sumIntegers {field : String} {rows : List Record} (h : WithoutDoubles field rows) :
    Aggregate.sum.apply (some field) rows = .integer <$>
      sumIntegers ((presentValues (some field) rows).filterMap Value.integer?) := by
  have hintegers : ((presentValues (some field) rows).filter Value.isNumeric).all
      fun v => v.integer?.isSome := by
    simp only [presentValues, List.all_eq_true, List.mem_filter, List.mem_filterMap]
    rintro v ⟨⟨⟨row, hrow, hget⟩, -⟩, hnumeric⟩
    cases v with
    | integer n => rfl
    | double x => exact absurd hget (h row hrow x)
    | null | text | boolean | json => cases hnumeric
  have hnumbers : ((presentValues (some field) rows).filter Value.isNumeric).filterMap
      Value.integer? = (presentValues (some field) rows).filterMap Value.integer? := by
    rw [List.filterMap_filter]
    congr 1
    funext v
    cases v <;> rfl
  rw [Aggregate.apply, sumOf, if_pos hintegers, hnumbers]

/-- The sum of a field without doubles is exact if adding up its integers stays in the range. -/
theorem sum_of_staysInRange {field : String} {rows : List Record} (h : WithoutDoubles field rows)
    (hrange : StaysInRange (integersOf field rows)) :
    Aggregate.sum.apply (some field) rows =
      .ok (.integer (Int64.ofInt (integersOf field rows).sum)) := by
  rw [integersOf, ← List.map_filterMap] at hrange
  rw [sum_eq_sumIntegers h, sumIntegers_of_staysInRange hrange, List.map_filterMap]
  rfl

/-- If adding up the integers leaves the range, the sum of the field breaks the work off. -/
theorem sum_of_not_staysInRange {field : String} {rows : List Record}
    (h : WithoutDoubles field rows) (hrange : ¬StaysInRange (integersOf field rows)) :
    Aggregate.sum.apply (some field) rows = .error .overflow := by
  rw [integersOf, ← List.map_filterMap] at hrange
  rw [sum_eq_sumIntegers h, sumIntegers_of_not_staysInRange hrange]
  rfl

/-- With a double in the field, the sum is a double. -/
theorem sum_of_double {field : String} {rows : List Record} (h : ¬WithoutDoubles field rows) :
    ∃ x, Aggregate.sum.apply (some field) rows = .ok (.double x) := by
  simp only [WithoutDoubles, not_forall, not_not] at h
  obtain ⟨row, hrow, x, hget⟩ := h
  have hmem : Value.double x ∈ (presentValues (some field) rows).filter Value.isNumeric := by
    simp only [presentValues, List.mem_filter, List.mem_filterMap]
    exact ⟨⟨⟨row, hrow, hget⟩, rfl⟩, rfl⟩
  have hintegers : ¬((presentValues (some field) rows).filter Value.isNumeric).all
      fun v => v.integer?.isSome := by
    rw [List.all_eq_true]
    intro hall
    cases hall _ hmem
  rw [Aggregate.apply, sumOf, if_neg hintegers]
  exact ⟨_, rfl⟩

/-- The sum of a field without doubles is the exact sum of its integers, as long as it stays in the
64-bit range from the first of them to the last; if it leaves the range anywhere on the way, the
work is broken off.  With a double in the field, the sum is a double. -/
theorem sums_break_off_outside_range (field : String) (rows : List Record) :
    (WithoutDoubles field rows →
      (StaysInRange (integersOf field rows) → ∃ sum : Int64,
        Aggregate.sum.apply (some field) rows = .ok (.integer sum) ∧
          sum.toInt = (integersOf field rows).sum) ∧
      (¬StaysInRange (integersOf field rows) →
        Aggregate.sum.apply (some field) rows = .error .overflow)) ∧
    (¬WithoutDoubles field rows →
      ∃ x, Aggregate.sum.apply (some field) rows = .ok (.double x)) := by
  refine ⟨fun h => ⟨fun hrange => ?_, sum_of_not_staysInRange h⟩, sum_of_double⟩
  exact ⟨_, sum_of_staysInRange h hrange, toInt_ofInt hrange.sum⟩

/-- Rows with integers in one field. -/
def rowsOf (ns : List Int64) : List Record := ns.map fun n => ⟨[("N", .integer n)]⟩

theorem withoutDoubles_rowsOf (ns : List Int64) : WithoutDoubles "N" (rowsOf ns) := by
  simp [WithoutDoubles, rowsOf, Record.get?, Record.lookup]

/-- The largest integer is reached again after one was taken away.  If the one is added before it is
taken away, the work is broken off; and a double among the integers makes the sum a double. -/
theorem order_decides_sum :
    (∃ sum : Int64,
      Aggregate.sum.apply (some "N") (rowsOf [Int64.maxValue, -1, 1]) = .ok (.integer sum) ∧
        sum.toInt = 9223372036854775807) ∧
    Aggregate.sum.apply (some "N") (rowsOf [Int64.maxValue, 1, -1]) = .error .overflow ∧
    ∃ x, Aggregate.sum.apply (some "N")
      (⟨[("N", .double (Double.zero false))]⟩ :: rowsOf [Int64.maxValue, 1]) = .ok (.double x) := by
  have hdown := (sums_break_off_outside_range "N" (rowsOf [Int64.maxValue, -1, 1])).1
    (withoutDoubles_rowsOf _)
  have hup := (sums_break_off_outside_range "N" (rowsOf [Int64.maxValue, 1, -1])).1
    (withoutDoubles_rowsOf _)
  have hdouble : ¬WithoutDoubles "N"
      (⟨[("N", .double (Double.zero false))]⟩ :: rowsOf [Int64.maxValue, 1]) :=
    fun h => h _ List.mem_cons_self _ rfl
  exact ⟨hdown.1 (by decide), hup.2 (by decide), (sums_break_off_outside_range "N" _).2 hdouble⟩

/-- A program that adds up the largest integer and one is broken off, and so it is if the total is
in the range again. -/
theorem exceeding_sums_break_off :
    let sums := [Step.generate [⟨.aggregate .sum (some "N"), "s"⟩]]
    (integersOf "N" (rowsOf [Int64.maxValue, 1])).sum = 9223372036854775808 ∧
      runSteps sums (rowsOf [Int64.maxValue, 1]) = .error .overflow ∧
    (integersOf "N" (rowsOf [Int64.maxValue, 1, -1])).sum = 9223372036854775807 ∧
      runSteps sums (rowsOf [Int64.maxValue, 1, -1]) = .error .overflow := by
  decide +kernel

end CrmEmulator
