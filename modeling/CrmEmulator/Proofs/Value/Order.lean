import CrmEmulator.Proofs.Double.Order
import CrmEmulator.Sorting

/-!
# CrmEmulator.Proofs.Value.Order — how far the order of values is one

Two integers are compared exactly, an integer and a double after the integer is rounded.

1. Exchanging two values reverses their order.
2. Values of different kinds are ordered by rank, so a chain that goes wrong stays in one kind.
3. `RoundAlike`: integers that are rounded to one double.  Up to `2 ^ 53` in magnitude, no integer
   rounds like another.
4. A chain of numbers goes wrong only at a double between two integers that both round to it while
   the greater one stands first: `Straddles`.  Sorting leaves such values as they stand.
5. Integers up to `2 ^ 53` do not straddle.
-/

namespace CrmEmulator

namespace Value

/-! ## Exchange -/

theorem compareNumbers_swap (a b : Double) : compareNumbers b a = (compareNumbers a b).swap := by
  rw [compareNumbers_eq, compareNumbers_eq]
  exact Std.OrientedOrd.eq_swap

theorem compare_swap (a b : Value) : b.compare a = (a.compare b).swap := by
  cases a <;> cases b <;> simp only [compare, rank]
  case integer.double | double.integer | double.double => exact compareNumbers_swap _ _
  all_goals exact Std.OrientedOrd.eq_swap

/-! ## Kinds -/

theorem compare_of_rank_lt {a b : Value} (h : a.rank < b.rank) : a.compare b = .lt := by
  cases a <;> cases b <;> simp only [rank] at h <;> first | omega | rfl

theorem rank_le_of_compare {a b : Value} (h : (a.compare b).isLE) : a.rank ≤ b.rank := by
  refine Nat.le_of_not_lt fun hrank => ?_
  rw [compare_swap b a, compare_of_rank_lt hrank] at h
  cases h

theorem isNull_eq (a : Value) : a.isNull = (a.rank == 0) := by
  cases a <;> rfl

/-- Null is smaller than every other value. -/
theorem compare_null {a b : Value} (ha : a.isNull) (hb : b.isNull = false) :
    a.compare b = .lt := by
  rw [isNull_eq] at ha hb
  have hrank : a.rank = 0 := eq_of_beq ha
  have hrank' : b.rank ≠ 0 := ne_of_beq_false hb
  exact compare_of_rank_lt (by omega)

/-- Nulls are level. -/
theorem compare_nulls {a b : Value} (ha : a.isNull) (hb : b.isNull) : a.compare b = .eq := by
  cases a with
  | null =>
    cases b with
    | null => rfl
    | integer | double | text | boolean | json => cases hb
  | integer | double | text | boolean | json => cases ha

/-! ## Numbers -/

/-- The place of a number on the line of doubles, to which an integer is rounded. -/
def place : Value → Int
  | .integer n => (Double.ofInt n.toInt).place
  | .double x => x.place
  | _ => 0

theorem place_integer (n : Int64) : (integer n).place = (Double.ofInt n.toInt).place := rfl

theorem place_double (x : Double) : (double x).place = x.place := rfl

/-- Numbers are compared by their places, except for two integers. -/
theorem compare_numbers {a b : Value} (ha : a.isNumeric) (hb : b.isNumeric) :
    (∃ m n, a = .integer m ∧ b = .integer n) ∨ a.compare b = Ord.compare a.place b.place := by
  cases a with
  | integer m =>
    cases b with
    | integer n => exact .inl ⟨m, n, rfl, rfl⟩
    | double y => exact .inr (by rw [compare, compareNumbers_eq, place_integer, place_double])
    | null | text | boolean | json => cases hb
  | double x =>
    cases b with
    | integer n => exact .inr (by rw [compare, compareNumbers_eq, place_integer, place_double])
    | double y => exact .inr (by rw [compare, compareNumbers_eq, place_double, place_double])
    | null | text | boolean | json => cases hb
  | null | text | boolean | json => cases ha

theorem place_integer_mono {m n : Int64} (h : m ≤ n) : (integer m).place ≤ (integer n).place := by
  rw [place_integer, place_integer]
  exact Double.place_ofInt_mono (Int64.le_iff_toInt_le.mp h)

theorem integer_le_of_compare {m n : Int64} (h : ((integer m).compare (.integer n)).isLE) :
    m ≤ n := by
  rw [compare] at h
  exact Std.isLE_compare.mp h

/-- A number that is not greater has no greater place. -/
theorem place_le_of_compare {a b : Value} (ha : a.isNumeric) (hb : b.isNumeric)
    (h : (a.compare b).isLE) : a.place ≤ b.place := by
  rcases compare_numbers ha hb with ⟨m, n, rfl, rfl⟩ | hplaces
  · exact place_integer_mono (integer_le_of_compare h)
  · rw [hplaces] at h
    exact Std.isLE_compare.mp h

/-! ## Integers that round alike -/

/-- The doubles that two integers are rounded to are equal. -/
def RoundAlike (a n : Int64) : Prop := (Double.ofInt a.toInt).eq (Double.ofInt n.toInt)

instance (a n : Int64) : Decidable (RoundAlike a n) := inferInstanceAs (Decidable (_ = true))

theorem roundAlike_iff {a n : Int64} :
    RoundAlike a n ↔ (integer a).place = (integer n).place :=
  Double.eq_iff (Double.isNaN_ofInt _) (Double.isNaN_ofInt _)

theorem roundAlike_comm {a n : Int64} : RoundAlike a n ↔ RoundAlike n a := by
  rw [roundAlike_iff, roundAlike_iff, eq_comm]

/-- Integers within the exact bound round alike only if they are equal. -/
theorem eq_of_roundAlike {a n : Int64} (h : RoundAlike a n)
    (ha : a.toInt.natAbs ≤ Double.exactBound) (hn : n.toInt.natAbs ≤ Double.exactBound) :
    a = n := by
  rw [roundAlike_iff, place_integer, place_integer, Double.place_ofInt_of_le ha,
    Double.place_ofInt_of_le hn] at h
  have hunits : (Double.unitsPerOne : Int) ≠ 0 :=
    Int.natCast_ne_zero.mpr (Nat.ne_of_gt Double.unitsPerOne_pos)
  exact Int64.toInt_inj.mp (Int.eq_of_mul_eq_mul_right hunits h)

/-- Of two different integers that round alike, one is beyond `2 ^ 53`. -/
theorem RoundAlike.beyond {a n : Int64} (h : RoundAlike a n) (hne : a ≠ n) :
    Double.exactBound < a.toInt.natAbs ∨ Double.exactBound < n.toInt.natAbs := by
  refine Classical.byContradiction fun hsmall => hne (eq_of_roundAlike h ?_ ?_) <;> omega

/-- Rounding keeps the order, so one place lies before another exactly if the integers do and are
told apart. -/
theorem place_integer_lt_iff {a n : Int64} :
    (integer a).place < (integer n).place ↔ a < n ∧ ¬RoundAlike a n := by
  rw [roundAlike_iff]
  constructor
  · intro hlt
    refine ⟨Int64.not_le.mp fun hle => ?_, Int.ne_of_lt hlt⟩
    have := place_integer_mono hle
    omega
  · rintro ⟨hlt, hne⟩
    have := place_integer_mono (Int64.le_of_lt hlt)
    omega

/-! ## Chains -/

/-- A double between two integers that are both equal to it, the greater integer first. -/
inductive Straddles : Value → Value → Value → Prop
  | intro {m n : Int64} {x : Double} (descending : n < m)
      (first : (integer m).compare (double x) = .eq)
      (last : (double x).compare (integer n) = .eq) :
      Straddles (.integer m) (.double x) (.integer n)

/-- A chain of numbers that does not order its ends straddles. -/
theorem straddles_of_numbers {a b c : Value} (ha : a.isNumeric) (hb : b.isNumeric)
    (hc : c.isNumeric) (hab : (a.compare b).isLE) (hbc : (b.compare c).isLE)
    (hac : a.compare c = .gt) : Straddles a b c := by
  have hfirst := place_le_of_compare ha hb hab
  have hlast := place_le_of_compare hb hc hbc
  rcases compare_numbers ha hc with ⟨m, n, rfl, rfl⟩ | hplaces
  · have hlt : n < m := by
      rw [compare] at hac
      exact Std.compare_eq_gt.mp hac
    cases b with
    | integer k =>
      have hle := Int64.le_trans (integer_le_of_compare hab) (integer_le_of_compare hbc)
      exact absurd hlt (Int64.not_lt.mpr hle)
    | double x =>
      -- rounding keeps the order of the integers, so all three have one place
      have hround := place_integer_mono (Int64.le_of_lt hlt)
      rw [place_integer, place_integer] at hround
      rw [place_integer, place_double] at hfirst
      rw [place_double, place_integer] at hlast
      have hm : (Double.ofInt m.toInt).place = x.place := by omega
      have hn : x.place = (Double.ofInt n.toInt).place := by omega
      refine .intro hlt ?_ ?_
      · rw [compare, compareNumbers_eq, hm, Std.ReflOrd.compare_self]
      · rw [compare, compareNumbers_eq, hn, Std.ReflOrd.compare_self]
    | null | text | boolean | json => cases hb
  · rw [hplaces] at hac
    have hlt : c.place < a.place := Int.compare_eq_gt.mp hac
    omega

/-- A chain of values of one kind that are not numbers does not go wrong. -/
theorem compare_trans_of_kind {a b c : Value} (ha : a.isNumeric = false) (hab : a.rank = b.rank)
    (hbc : b.rank = c.rank) (h₁ : (a.compare b).isLE) (h₂ : (b.compare c).isLE) :
    (a.compare c).isLE := by
  cases a with
  | integer | double => cases ha
  | null =>
    cases b <;> cases hab
    exact h₂
  | text | boolean | json =>
    cases b <;> cases hab
    cases c <;> cases hbc
    exact Std.TransOrd.isLE_trans h₁ h₂

theorem isNumeric_eq (a : Value) : a.isNumeric = (a.rank == 2) := by
  cases a <;> rfl

theorem isNumeric_of_rank {a b : Value} (ha : a.isNumeric) (h : a.rank = b.rank) :
    b.isNumeric := by
  rwa [isNumeric_eq, ← h, ← isNumeric_eq]

/-- The order of values is transitive, but for doubles that straddle. -/
theorem compare_trans {a b c : Value} (h : ¬Straddles a b c) (hab : (a.compare b).isLE)
    (hbc : (b.compare c).isLE) : (a.compare c).isLE := by
  have hrank₁ := rank_le_of_compare hab
  have hrank₂ := rank_le_of_compare hbc
  rcases Nat.lt_or_ge a.rank c.rank with hlt | hge
  · rw [compare_of_rank_lt hlt]
    rfl
  have hkind₁ : a.rank = b.rank := by omega
  have hkind₂ : b.rank = c.rank := by omega
  cases ha : a.isNumeric with
  | false => exact compare_trans_of_kind ha hkind₁ hkind₂ hab hbc
  | true =>
    have hb := isNumeric_of_rank ha hkind₁
    have hc := isNumeric_of_rank hb hkind₂
    rw [Ordering.isLE_iff_ne_gt]
    exact fun hac => h (straddles_of_numbers ha hb hc hab hbc hac)

theorem Straddles.compare_ends {a b c : Value} (h : Straddles a b c) : a.compare c = .gt := by
  obtain ⟨hlt, -, -⟩ := h
  rw [compare]
  exact Std.compare_eq_gt.mpr hlt

/-- The order of values is total; three values of which none is greater than the next are in order,
unless a double stands between two integers that round to it and are in the wrong order. -/
theorem compare_total_but_for_rounding (a b c : Value) :
    b.compare a = (a.compare b).swap ∧
      ((a.compare b ≠ .gt ∧ b.compare c ≠ .gt ∧ a.compare c = .gt) ↔ Straddles a b c) := by
  refine ⟨compare_swap a b, fun ⟨hab, hbc, hac⟩ => ?_, fun h => ⟨?_, ?_, h.compare_ends⟩⟩
  · by_cases h : Straddles a b c
    · exact h
    · have hle := compare_trans h (Ordering.isLE_iff_ne_gt.mpr hab) (Ordering.isLE_iff_ne_gt.mpr hbc)
      exact absurd hac (Ordering.isLE_iff_ne_gt.mp hle)
  · obtain ⟨-, hfirst, -⟩ := h
    rw [hfirst]
    decide
  · obtain ⟨-, -, hlast⟩ := h
    rw [hlast]
    decide

/-- Integers that straddle are not both small enough to be doubles. -/
theorem Straddles.beyond {m n : Int64} {b : Value} (h : Straddles (.integer m) b (.integer n)) :
    Double.exactBound < m.toInt.natAbs ∨ Double.exactBound < n.toInt.natAbs := by
  obtain ⟨hlt, hfirst, hlast⟩ := h
  rw [compare, compareNumbers_eq, Std.compare_eq_iff_eq] at hfirst
  rw [compare, compareNumbers_eq, Std.compare_eq_iff_eq] at hlast
  have halike : RoundAlike m n := roundAlike_iff.mpr (hfirst.trans hlast)
  exact halike.beyond (Int64.ne_of_lt hlt).symm

/-- The least integer that is not a double, the double it is rounded to, and that double as an
integer. -/
def straddling : List Value :=
  [.integer 9007199254740993, .double (Double.ofInt 9007199254740992), .integer 9007199254740992]

/-- No value of the list is greater than the next, but the first is greater than the last; sorting
changes nothing. -/
theorem straddling_stays_unsorted :
    stableSort compare straddling = straddling ∧
      compare straddling[0] straddling[1] ≠ .gt ∧ compare straddling[1] straddling[2] ≠ .gt ∧
      compare straddling[0] straddling[2] = .gt := by
  decide +kernel

end Value

end CrmEmulator
