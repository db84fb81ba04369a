import CrmEmulator.Proofs.Analytics.Aggregates
import CrmEmulator.Proofs.Double.WholeNumbers
import Mathlib.Data.List.Basic

/-!
# CrmEmulator.Proofs.Analytics.Averages — the rows that sums and averages are made of

1. `Counts`: a row counts for an aggregate if there are rows whose aggregate it changes.  A sum and
   an average are those of the rows that count, and a row counts for a sum if it has a number in the
   field, for an average also if it has a text there that reads as one.
2. Integers whose sizes add up to no more than `2 ^ 53` are added up exactly as doubles, so their
   average is their sum divided by their number, with one rounding.
-/

namespace CrmEmulator

open Saql

/-! ## Values that are taken -/

/-- A text that reads as a number. -/
def Value.isNumeral : Value → Bool
  | .text s => (Double.ofText? (trim s.toList)).isSome
  | _ => false

theorem Value.isSome_coerceNumber? (v : Value) :
    v.coerceNumber?.isSome = (v.isNumeric || v.isNumeral) := by
  cases v <;> rfl

def hasNumber (field : String) (row : Record) : Bool := (row.getOrNull field).isNumeric

def hasNumeral (field : String) (row : Record) : Bool := (row.getOrNull field).isNumeral

/-- The values of a field that have a property which null has not. -/
theorem filter_presentValues {p : Value → Bool} (hnull : p .null = false) (field : String)
    (rows : List Record) :
    (presentValues (some field) rows).filter p =
      (rows.filter fun row => p (row.getOrNull field)).map (·.getOrNull field) := by
  have hvalue (v : Value) : (p v && !v.isNull) = p v := by
    cases v <;> simp [Value.isNull, hnull]
  rw [presentValues, List.filter_filter]
  simp only [hvalue]
  induction rows with
  | nil => rfl
  | cons row rows ih =>
    cases hget : row.get? field with
    | none => simpa [hget, Record.getOrNull, hnull] using ih
    | some v => cases hp : p v <;> simpa [hget, Record.getOrNull, hp] using ih

theorem sumOf_filter (values : List Value) : sumOf (values.filter Value.isNumeric) = sumOf values := by
  simp only [sumOf, List.filter_filter, Bool.and_self]

/-- An average passes over whatever does not convert to a number. -/
theorem meanOf_filter (values : List Value) :
    meanOf (values.filter fun v => v.coerceNumber?.isSome) = meanOf values := by
  have hnumbers : (values.filter fun v => v.coerceNumber?.isSome).filterMap Value.coerceNumber? =
      values.filterMap Value.coerceNumber? := by
    rw [List.filterMap_filter]
    congr 1
    funext v
    cases v.coerceNumber? <;> rfl
  rw [meanOf, hnumbers, meanOf]

/-- A sum is made of the numbers in a field. -/
theorem sum_eq (field : String) (rows : List Record) :
    Aggregate.sum.apply (some field) rows =
      sumOf ((rows.filter (hasNumber field)).map (·.getOrNull field)) := by
  rw [Aggregate.apply, ← sumOf_filter, filter_presentValues rfl]
  rfl

/-- An average is made of the numbers in a field and the texts that read as numbers. -/
theorem avg_eq (field : String) (rows : List Record) :
    Aggregate.avg.apply (some field) rows =
      .ok (meanOf ((rows.filter fun row => hasNumber field row || hasNumeral field row).map
        (·.getOrNull field))) := by
  rw [Aggregate.apply, ← meanOf_filter, filter_presentValues rfl]
  simp only [Value.isSome_coerceNumber?]
  rfl

/-! ## Rows that count -/

/-- A row counts for an aggregate of a field: there are rows whose aggregate it changes. -/
def Counts (function : Aggregate) (field : String) (row : Record) : Prop :=
  ∃ rows, function.apply (some field) (rows ++ [row]) ≠ function.apply (some field) rows

/-- If an aggregate is made of the rows with a property, no other rows count. -/
theorem of_counts {function : Aggregate} {field : String} {p : Record → Bool}
    (make : List Record → Except Halt Value)
    (hmade : ∀ rows, function.apply (some field) rows = make (rows.filter p)) {row : Record}
    (h : Counts function field row) : p row := by
  obtain ⟨rows, hne⟩ := h
  by_contra hp
  have hsame : (rows ++ [row]).filter p = rows.filter p := by simp [hp]
  exact hne (by rw [hmade, hmade, hsame])

theorem sumOf_integer (n : Int64) : sumOf [.integer n] = .ok (.integer n) := by
  have hsum : sumOf [.integer n] = .integer <$> addIntegers 0 n := by
    rw [← bind_pure (addIntegers 0 n)]
    rfl
  have hzero : (0 : Int64).toInt = 0 := rfl
  rw [hsum, addIntegers, hzero, Int.zero_add, if_pos (inInt64_toInt n), Int64.ofInt_toInt]
  rfl

theorem sum_singleton {field : String} {row : Record} (h : hasNumber field row) :
    Aggregate.sum.apply (some field) [row] = sumOf [row.getOrNull field] := by
  rw [sum_eq]
  simp [h]

/-- A negative zero is its own sum, and next to it an integer zero makes the other zero. -/
theorem counts_sum_zero {field : String} {row : Record} (h : row.getOrNull field = .integer 0) :
    Counts .sum field row := by
  -- beside a negative zero even zero counts: it makes the zero positive
  let other : Record := ⟨[(field, .double (Double.zero true))]⟩
  have hget : other.getOrNull field = .double (Double.zero true) := by
    simp [other, Record.getOrNull, Record.get?, Record.lookup]
  have hother : hasNumber field other := by rw [hasNumber, hget]; rfl
  have hrow : hasNumber field row := by rw [hasNumber, h]; rfl
  have hbefore : Aggregate.sum.apply (some field) [other] =
      .ok (.double (Double.zero true)) := by
    have hsum : sumOf [.double (Double.zero true)] =
        .ok (.double (Double.zero true + Double.zero true)) := rfl
    rw [sum_singleton hother, hget, hsum, Double.zero_add_zero]
  have hafter : Aggregate.sum.apply (some field) [other, row] =
      .ok (.double (Double.zero false)) := by
    have hsum : sumOf [.double (Double.zero true), .integer 0] =
        .ok (.double (Double.zero true + Double.zero true + Double.ofInt 0)) := rfl
    rw [sum_eq, List.filter_cons_of_pos hother, List.filter_cons_of_pos hrow, List.filter_nil,
      List.map_cons, List.map_singleton, hget, h, hsum, Double.zero_add_zero,
      Double.zero_add_ofInt (Nat.zero_le _), Double.ofInt_zero]
  refine ⟨[other], ?_⟩
  rw [List.singleton_append, hafter, hbefore]
  simp [Double.zero]

/-- A row with a number changes some sum: that of no rows. -/
theorem counts_sum {field : String} {row : Record} (h : hasNumber field row) :
    Counts .sum field row := by
  have hempty : Aggregate.sum.apply (some field) [] = .ok (.integer 0) := rfl
  cases hvalue : row.getOrNull field with
  | null | text | boolean | json => simp [hasNumber, hvalue, Value.isNumeric] at h
  | double x =>
    refine ⟨[], ?_⟩
    rw [List.nil_append, sum_singleton h, hvalue, hempty]
    exact nofun
  | integer n =>
    by_cases hzero : n = 0
    · exact counts_sum_zero (hzero ▸ hvalue)
    · refine ⟨[], ?_⟩
      rw [List.nil_append, sum_singleton h, hvalue, hempty, sumOf_integer]
      simpa using hzero

/-- A row that converts to a number changes some average: that of no rows, which is null. -/
theorem counts_avg {field : String} {row : Record}
    (h : hasNumber field row || hasNumeral field row) : Counts .avg field row := by
  have hempty : Aggregate.avg.apply (some field) [] = .ok .null := rfl
  have hsome : (row.getOrNull field).coerceNumber?.isSome := by
    rw [Value.isSome_coerceNumber?]
    exact h
  obtain ⟨x, hx⟩ := Option.isSome_iff_exists.mp hsome
  refine ⟨[], ?_⟩
  rw [List.nil_append, hempty, avg_eq]
  simp [h, meanOf, hx]

theorem counts_sum_iff {field : String} {row : Record} :
    Counts .sum field row ↔ hasNumber field row :=
  ⟨of_counts (fun rows => sumOf (rows.map (·.getOrNull field))) (sum_eq field), counts_sum⟩

theorem counts_avg_iff {field : String} {row : Record} :
    Counts .avg field row ↔ hasNumber field row ∨ hasNumeral field row := by
  rw [← Bool.or_eq_true]
  exact ⟨of_counts (fun rows => .ok (meanOf (rows.map (·.getOrNull field)))) (avg_eq field), counts_avg⟩

/-- An average of values is null exactly if none of them converts to a number. -/
theorem meanOf_eq_null_iff {values : List Value} :
    meanOf values = .null ↔ ∀ v ∈ values, v.coerceNumber?.isSome = false := by
  have hnone : values.filterMap Value.coerceNumber? = [] ↔
      ∀ v ∈ values, v.coerceNumber?.isSome = false := by
    simp [List.filterMap_eq_nil_iff]
  rw [← hnone, meanOf]
  cases values.filterMap Value.coerceNumber? with
  | nil => simp
  | cons x xs => simp

/-- An average is null exactly if no row counts for it. -/
theorem avg_eq_null_iff {field : String} {rows : List Record} :
    Aggregate.avg.apply (some field) rows = .ok .null ↔ ∀ row ∈ rows, ¬Counts .avg field row := by
  simp only [counts_avg_iff, ← Bool.or_eq_true]
  rw [avg_eq, Except.ok.injEq, meanOf_eq_null_iff]
  simp only [Value.isSome_coerceNumber?, List.forall_mem_map, List.mem_filter]
  constructor
  · intro h row hrow htaken
    have hnot := h row ⟨hrow, htaken⟩
    rw [hasNumber, hasNumeral, hnot] at htaken
    cases htaken
  · rintro h row ⟨hrow, htaken⟩
    exact absurd htaken (h row hrow)

/-! ## Averages of integers -/

/-- The magnitude of a sum is at most the sum of the magnitudes. -/
theorem natAbs_sum_le (ns : List Int) : ns.sum.natAbs ≤ (ns.map Int.natAbs).sum := by
  induction ns with
  | nil => exact Nat.le_refl 0
  | cons n ns ih =>
    have habs := Int.natAbs_add_le n ns.sum
    rw [List.sum_cons, List.map_cons, List.sum_cons]
    omega

/-- Doubles that are whole numbers are added up exactly, as long as the magnitudes stay within the
exact bound. -/
theorem foldl_ofInt {start : Int} {ns : List Int}
    (h : start.natAbs + (ns.map Int.natAbs).sum ≤ Double.exactBound) :
    (ns.map Double.ofInt).foldl (· + ·) (Double.ofInt start) = Double.ofInt (start + ns.sum) := by
  induction ns generalizing start with
  | nil => rw [List.map_nil, List.foldl_nil, List.sum_nil, Int.add_zero]
  | cons n ns ih =>
    rw [List.map_cons, List.sum_cons] at h
    have habs := Int.natAbs_add_le start n
    rw [List.map_cons, List.foldl_cons, Double.add_ofInt (by omega) (by omega), ih (by omega),
      List.sum_cons, Int.add_assoc]

/-- Integers whose sizes add up to no more than the bound are added up exactly as doubles. -/
theorem sumDoubles_ofInt {ns : List Int} (hsome : ns ≠ [])
    (h : (ns.map Int.natAbs).sum ≤ Double.exactBound) :
    sumDoubles (ns.map Double.ofInt) = Double.ofInt ns.sum := by
  cases ns with
  | nil => exact absurd rfl hsome
  | cons n ns =>
    rw [List.map_cons, List.sum_cons] at h
    have hfirst : n.natAbs ≤ Double.exactBound := Nat.le_trans (Nat.le_add_right _ _) h
    rw [sumDoubles, List.map_cons, List.foldl_cons, Double.zero_add_ofInt hfirst, foldl_ofInt h,
      List.sum_cons]

/-- Every whole number within the exact bound of doubles is a 64-bit integer. -/
theorem inInt64_of_le {n : Int} (h : n.natAbs ≤ Double.exactBound) : Numeral.inInt64 n := by
  have hexact : Double.exactBound = 9007199254740992 := rfl
  have hbound : Numeral.int64Bound = 9223372036854775808 := rfl
  simp only [Numeral.inInt64, hbound, Bool.and_eq_true, decide_eq_true_eq]
  omega

/-- Every row that counts for an average of the field has an integer there. -/
def OnlyIntegers (field : String) (rows : List Record) : Prop :=
  ∀ row ∈ rows, Counts .avg field row → ∃ n, row.getOrNull field = .integer n

/-- If every row that can count holds an integer, no other value is taken. -/
theorem onlyIntegers_of_taken {field : String} {rows : List Record}
    (h : ∀ row ∈ rows, hasNumber field row || hasNumeral field row →
      (row.getOrNull field).integer?.isSome) : OnlyIntegers field rows := by
  intro row hrow hcounts
  have hinteger := h row hrow (Bool.or_eq_true _ _ ▸ counts_avg_iff.mp hcounts)
  cases hvalue : row.getOrNull field with
  | integer n => exact ⟨n, rfl⟩
  | null | double | text | boolean | json => simp [hvalue, Value.integer?] at hinteger

/-- A field that holds only integers holds no doubles. -/
theorem OnlyIntegers.withoutDoubles {field : String} {rows : List Record}
    (h : OnlyIntegers field rows) : WithoutDoubles field rows := by
  intro row hrow x hget
  have hvalue : row.getOrNull field = .double x := by rw [Record.getOrNull, hget]; rfl
  have hnumber : hasNumber field row := by rw [hasNumber, hvalue]; rfl
  obtain ⟨n, hn⟩ := h row hrow (counts_avg_iff.mpr (.inl hnumber))
  rw [hvalue] at hn
  cases hn

/-- The numbers that an average takes from such a field are its integers, as doubles. -/
theorem OnlyIntegers.numbers {field : String} {rows : List Record} (h : OnlyIntegers field rows) :
    (presentValues (some field) rows).filterMap Value.coerceNumber? =
      (integersOf field rows).map Double.ofInt := by
  rw [integersOf, List.map_filterMap]
  refine List.filterMap_congr fun v hv => ?_
  simp only [presentValues, List.mem_filter, List.mem_filterMap] at hv
  obtain ⟨⟨row, hrow, hget⟩, -⟩ := hv
  have hvalue : row.getOrNull field = v := by rw [Record.getOrNull, hget]; rfl
  by_cases hcounts : Counts .avg field row
  · obtain ⟨n, hn⟩ := h row hrow hcounts
    rw [← hvalue, hn]
    rfl
  · rw [counts_avg_iff, ← Bool.or_eq_true, hasNumber, hasNumeral, hvalue,
      ← Value.isSome_coerceNumber?, Bool.not_eq_true, Option.isSome_eq_false_iff,
      Option.isNone_iff_eq_none] at hcounts
    rw [hcounts]
    cases v with
    | integer n => cases hcounts
    | null | double | text | boolean | json => rfl

/-- The average of integers within the exact bound is one division of doubles. -/
theorem avg_of_onlyIntegers {field : String} {rows : List Record} (h : OnlyIntegers field rows)
    (hsome : integersOf field rows ≠ [])
    (hsize : ((integersOf field rows).map Int.natAbs).sum ≤ Double.exactBound) :
    Aggregate.avg.apply (some field) rows = .ok (.double
      (Double.ofInt (integersOf field rows).sum / Double.ofInt (integersOf field rows).length)) := by
  have hnumbers : ((integersOf field rows).map Double.ofInt).isEmpty = false := by
    simpa using hsome
  rw [Aggregate.apply, meanOf, h.numbers, hnumbers, sumDoubles_ofInt hsome hsize, List.length_map]
  rfl

/-- Integers whose sizes add up to a number in the range cannot leave it on the way. -/
theorem staysInRange_of_sizes {ns : List Int}
    (h : (ns.map Int.natAbs).sum ≤ Double.exactBound) : StaysInRange ns := by
  rintro before ⟨after, rfl⟩
  rw [List.map_append, List.sum_append] at h
  have hbefore := natAbs_sum_le before
  exact inInt64_of_le (by omega)

/-- The sum of integers within the exact bound is exact: no addition leaves the range. -/
theorem sum_of_onlyIntegers {field : String} {rows : List Record} (h : OnlyIntegers field rows)
    (hsize : ((integersOf field rows).map Int.natAbs).sum ≤ Double.exactBound) :
    ∃ sum : Int64, Aggregate.sum.apply (some field) rows = .ok (.integer sum) ∧
      sum.toInt = (integersOf field rows).sum := by
  have hrange := staysInRange_of_sizes hsize
  exact ⟨_, sum_of_staysInRange h.withoutDoubles hrange, toInt_ofInt hrange.sum⟩

/-- A row counts for a sum if it has a number in the field, and for an average also if it has a text
there that reads as a number; the other rows may be left out.  So an average is null if no row
counts for it, and where no text reads as a number, if no row counts for the sum.  If all rows that
count have integers, and their sizes add up to no more than `2 ^ 53`, the average is the exact sum
divided by its number of terms, and no double is nearer to that quotient. -/
theorem averages_count_numerals_too (field : String) (rows : List Record) :
    (∀ row, (Counts .sum field row ↔ hasNumber field row) ∧
      (Counts .avg field row ↔ hasNumber field row ∨ hasNumeral field row)) ∧
    Aggregate.sum.apply (some field) rows =
      Aggregate.sum.apply (some field) (rows.filter (hasNumber field)) ∧
    Aggregate.avg.apply (some field) rows = Aggregate.avg.apply (some field)
      (rows.filter fun row => hasNumber field row || hasNumeral field row) ∧
    (∃ mean, Aggregate.avg.apply (some field) rows = .ok mean ∧
      (mean = .null ↔ ∀ row ∈ rows, ¬Counts .avg field row)) ∧
    ((∀ row ∈ rows, hasNumeral field row = false) →
      (∀ row ∈ rows, Counts .avg field row ↔ Counts .sum field row) ∧
      (Aggregate.avg.apply (some field) rows = .ok .null ↔ ∀ row ∈ rows, ¬Counts .sum field row)) ∧
    (OnlyIntegers field rows → integersOf field rows ≠ [] →
      ((integersOf field rows).map Int.natAbs).sum ≤ Double.exactBound →
        ∃ (sum : Int64) (mean : Double),
          Aggregate.sum.apply (some field) rows = .ok (.integer sum) ∧
          sum.toInt = (integersOf field rows).sum ∧
          Aggregate.avg.apply (some field) rows = .ok (.double mean) ∧
          mean = Double.ofInt sum.toInt / Double.ofInt (integersOf field rows).length ∧
          ((integersOf field rows).length ≤ Double.exactBound →
            mean.IsNearestQuotient sum.toInt (integersOf field rows).length)) := by
  refine ⟨fun row => ⟨counts_sum_iff, counts_avg_iff⟩, ?_, ?_, ⟨_, rfl, ?_⟩, fun h => ?_,
    fun h hsome hsize => ?_⟩
  · rw [sum_eq, sum_eq, List.filter_filter]
    simp only [Bool.and_self]
  · rw [avg_eq, avg_eq, List.filter_filter]
    simp only [Bool.and_self]
  · rw [← avg_eq_null_iff, Aggregate.apply, Except.ok.injEq]
  · have hsame : ∀ row ∈ rows, Counts .avg field row ↔ Counts .sum field row := by
      intro row hrow
      rw [counts_avg_iff, counts_sum_iff, h row hrow]
      simp
    refine ⟨hsame, avg_eq_null_iff.trans (forall₂_congr fun row hrow => ?_)⟩
    rw [hsame row hrow]
  · obtain ⟨sum, hsum, htotal⟩ := sum_of_onlyIntegers h hsize
    refine ⟨sum, _, hsum, htotal, htotal ▸ avg_of_onlyIntegers h hsome hsize, rfl, fun hcount => ?_⟩
    have hbound := Nat.le_trans (natAbs_sum_le (integersOf field rows)) hsize
    rw [htotal]
    exact Double.isNearestQuotient_div hbound (List.length_pos_iff.mpr hsome) hcount

/-- Two integers, a text that is no number, and a null. -/
def thirdsRows : List Record := [
  ⟨[("N", .integer 7)]⟩,
  ⟨[("N", .text "x")]⟩,
  ⟨[("N", .integer (-2))]⟩,
  ⟨[("N", .null)]⟩,
  ⟨[("N", .integer 0)]⟩]

/-- The same three rows count for both, and their average is five thirds. -/
theorem thirdsRows_average :
    (∀ row ∈ thirdsRows, Counts .avg "N" row ↔ Counts .sum "N" row) ∧
    ∃ mean : Double, Aggregate.sum.apply (some "N") thirdsRows = .ok (.integer 5) ∧
      Aggregate.avg.apply (some "N") thirdsRows = .ok (.double mean) ∧ mean.IsNearestQuotient 5 3 := by
  have hintegers : OnlyIntegers "N" thirdsRows := onlyIntegers_of_taken (by decide)
  obtain ⟨-, -, -, -, hsame, hexact⟩ := averages_count_numerals_too "N" thirdsRows
  refine ⟨(hsame (by decide)).1, ?_⟩
  obtain ⟨sum, mean, hsum, htotal, havg, -, hnearest⟩ := hexact hintegers (by decide) (by decide)
  have hfive : sum = 5 := Int64.toInt_inj.mp (htotal.trans (by decide))
  subst hfive
  exact ⟨mean, hsum, havg, hnearest (by decide)⟩

/-- A text that reads as five counts for the average and not for the sum. -/
theorem numeral_counts_for_average_only :
    let row : Record := ⟨[("N", .text "5")]⟩
    Counts .avg "N" row ∧ ¬Counts .sum "N" row ∧
      Aggregate.sum.apply (some "N") [row] = .ok (.integer 0) ∧
      Aggregate.avg.apply (some "N") [row] = .ok (.double (Double.ofInt 5)) := by
  intro row
  refine ⟨counts_avg_iff.mpr (.inr (by decide +kernel)), ?_, by decide, by decide +kernel⟩
  rw [counts_sum_iff]
  decide

end CrmEmulator
