import CrmEmulator.Proofs.Double.Rounding
import CrmEmulator.Value

/-!
# CrmEmulator.Proofs.Double.Order — doubles on a line

1. `place`: doubles lie on a line of whole numbers, with the infinities at the ends and a missing
   number behind them.  The order of sorting is the order of places.
2. Rounding keeps the order: a larger number is not rounded to a smaller double.  It may be rounded
   to the same one.
3. A count of units that fits is not rounded, so whole numbers up to `2 ^ 53` are doubles.
-/

namespace CrmEmulator

namespace Double

/-! ## Places -/

/-- The place of a double on a line: its units with their sign, the infinities as the first counts
that are too large, and a missing number last. -/
def place : Double → Int
  | .nan => overflowBound + 1
  | .infinity negative => signedUnits negative overflowBound
  | .finite negative units _ => signedUnits negative units

/-- A rounded quotient has the place of its units, cut off at the bound of the range. -/
theorem place_nearest (negative : Bool) (num den : Nat) :
    (nearest negative num den).place =
      signedUnits negative (min (nearestUnits num den) overflowBound) := by
  unfold nearest
  split
  · next h => rw [place, Nat.min_eq_left (Nat.le_of_lt h)]
  · next h => rw [place, Nat.min_eq_right (Nat.le_of_not_lt h)]

/-! ## Rounding keeps the order -/

/-- Rounding a quotient keeps the order. -/
theorem roundDiv_mono {m n : Nat} (h : m ≤ n) (den : Nat) : roundDiv m den ≤ roundDiv n den := by
  rcases Nat.lt_or_eq_of_le (Nat.div_le_div_right (c := den) h) with hquotient | hquotient
  · -- the quotients are one apart, and rounding goes no further than that
    calc roundDiv m den
        ≤ m / den + 1 := roundDiv_le m den
      _ ≤ n / den := hquotient
      _ ≤ roundDiv n den := le_roundDiv n den
  · have hm := Nat.div_add_mod m den
    have hn := Nat.div_add_mod n den
    have hrest : m % den ≤ n % den := by
      rw [hquotient] at hm
      omega
    unfold roundDiv
    rw [hquotient]
    dsimp only
    -- the larger rest is rounded up whenever the smaller one is
    repeat' split
    all_goals omega

theorem nearestUnits_one (n : Nat) : nearestUnits n 1 = roundDiv n (spacing n) * spacing n := by
  simp [nearestUnits]

/-- Greater numbers have no fewer bits to lose. -/
theorem excessBits_mono {m n : Nat} (h : m ≤ n) : excessBits m ≤ excessBits n := by
  have hlog : m.log2 ≤ n.log2 := by
    by_cases hm : m = 0
    · simp [hm]
    · exact (Nat.le_log2 (by omega)).mpr (Nat.le_trans (Nat.log2_self_le hm) h)
  unfold excessBits
  omega

/-- A count is not rounded beyond the power of two above it. -/
theorem nearestUnits_le_pow (n : Nat) : nearestUnits n 1 ≤ Nat.pow 2 (53 + excessBits n) := by
  have hbits : roundDiv n (spacing n) ≤ Nat.pow 2 53 :=
    Nat.le_trans (roundDiv_le n (spacing n)) (div_excess_lt n)
  rw [nearestUnits_one]
  exact Nat.le_trans (Nat.mul_le_mul_right _ hbits) (Nat.le_of_eq (Nat.pow_add 2 53 _).symm)

/-- Nor is it rounded below the power of two under it. -/
theorem pow_le_nearestUnits {n : Nat} (h : 0 < excessBits n) :
    Nat.pow 2 (52 + excessBits n) ≤ nearestUnits n 1 := by
  have hlog : 52 + excessBits n = n.log2 := by
    unfold excessBits at h ⊢
    omega
  have hn : n ≠ 0 := by
    rintro rfl
    simp [excessBits] at h
  have hpow : Nat.pow 2 52 * spacing n ≤ n := by
    refine Nat.le_trans (Nat.le_of_eq ?_) (Nat.log2_self_le hn)
    rw [← hlog]
    exact (Nat.pow_add 2 52 _).symm
  have hquotient : Nat.pow 2 52 ≤ n / spacing n :=
    (Nat.le_div_iff_mul_le (pow_two_pos _)).mpr hpow
  rw [nearestUnits_one]
  calc Nat.pow 2 (52 + excessBits n)
      = Nat.pow 2 52 * spacing n := Nat.pow_add 2 52 _
    _ ≤ roundDiv n (spacing n) * spacing n :=
      Nat.mul_le_mul_right _ (Nat.le_trans hquotient (le_roundDiv n _))

/-- Rounding to a double keeps the order. -/
theorem nearestUnits_mono {m n : Nat} (h : m ≤ n) : nearestUnits m 1 ≤ nearestUnits n 1 := by
  rcases Nat.lt_or_eq_of_le (excessBits_mono h) with hexcess | hexcess
  · -- there is a power of two between the two numbers
    calc nearestUnits m 1
        ≤ Nat.pow 2 (53 + excessBits m) := nearestUnits_le_pow m
      _ ≤ Nat.pow 2 (52 + excessBits n) := pow_two_le (by omega)
      _ ≤ nearestUnits n 1 := pow_le_nearestUnits (by omega)
  · have hspacing : spacing m = spacing n := by rw [spacing, hexcess, spacing]
    rw [nearestUnits_one, nearestUnits_one, hspacing]
    exact Nat.mul_le_mul_right _ (roundDiv_mono h _)

/-- The units of a whole number without a sign after it is rounded. -/
def wholeUnits (k : Nat) : Nat := min (nearestUnits (k * unitsPerOne) 1) overflowBound

theorem wholeUnits_mono {k l : Nat} (h : k ≤ l) : wholeUnits k ≤ wholeUnits l := by
  have := nearestUnits_mono (Nat.mul_le_mul_right unitsPerOne h)
  unfold wholeUnits
  omega

theorem place_ofInt (n : Int) : (ofInt n).place = signedUnits (n < 0) (wholeUnits n.natAbs) :=
  place_nearest _ _ _

/-- A larger whole number is not rounded to a smaller double. -/
theorem place_ofInt_mono {m n : Int} (h : m ≤ n) : (ofInt m).place ≤ (ofInt n).place := by
  rw [place_ofInt, place_ofInt]
  unfold signedUnits
  by_cases hm : m < 0 <;> by_cases hn : n < 0 <;>
    simp only [hm, hn, decide_true, decide_false, Bool.false_eq_true, if_true, if_false]
  · have := wholeUnits_mono (show n.natAbs ≤ m.natAbs by omega)
    omega
  · omega
  · omega
  · have := wholeUnits_mono (show m.natAbs ≤ n.natAbs by omega)
    omega

/-! ## Whole numbers that are not rounded -/

/-- A number of units that fits is not rounded. -/
theorem nearestUnits_of_fits {n : Nat} (h : Fits n) : nearestUnits n 1 = n := by
  have hdvd : spacing n ∣ n := h.1
  rw [nearestUnits_one]
  have hround : roundDiv n (spacing n) = n / spacing n := by
    have hpos : 0 < spacing n := pow_two_pos _
    have hrest : n % spacing n = 0 := Nat.mod_eq_zero_of_dvd hdvd
    simp [roundDiv, hrest, hpos]
  rw [hround, Nat.div_mul_cancel hdvd]

/-- The last whole number up to which all are doubles. -/
def exactBound : Nat := Nat.pow 2 53

/-- A power of two times a smaller one stays below the power of the sum. -/
theorem pow_two_mul_lt {m k l : Nat} (h : m < l) :
    Nat.pow 2 m * Nat.pow 2 k < Nat.pow 2 (k + l) := by
  show 2 ^ m * 2 ^ k < 2 ^ (k + l)
  rw [← Nat.pow_add]
  exact Nat.pow_lt_pow_right (by decide) (by omega)

/-- A double can hold any whole number up to there. -/
theorem fits_whole {k : Nat} (h : k ≤ exactBound) : Fits (k * unitsPerOne) := by
  have hlt : k * unitsPerOne < overflowBound := by
    refine Nat.lt_of_le_of_lt (Nat.mul_le_mul_right unitsPerOne h) ?_
    unfold exactBound unitsPerOne overflowBound
    exact pow_two_mul_lt (by decide)
  unfold unitsPerOne at hlt ⊢
  exact fits_mul_two_pow h hlt

theorem wholeUnits_of_le {k : Nat} (h : k ≤ exactBound) : wholeUnits k = k * unitsPerOne := by
  have hfits := fits_whole h
  rw [wholeUnits, nearestUnits_of_fits hfits, Nat.min_eq_left (Nat.le_of_lt hfits.2)]

/-- The units of a whole number have its sign. -/
theorem signedUnits_natAbs (n : Int) (k : Nat) : signedUnits (n < 0) (n.natAbs * k) = n * k := by
  unfold signedUnits
  split
  · next hn =>
    have habs : (n.natAbs : Int) = -n := Int.ofNat_natAbs_of_nonpos (Int.le_of_lt (by simpa using hn))
    rw [Int.natCast_mul, habs, Int.neg_mul, Int.neg_neg]
  · next hn =>
    have habs : (n.natAbs : Int) = n := Int.natAbs_of_nonneg (by simpa using hn)
    rw [Int.natCast_mul, habs]

theorem place_ofInt_of_le {n : Int} (h : n.natAbs ≤ exactBound) :
    (ofInt n).place = n * unitsPerOne := by
  rw [place_ofInt, wholeUnits_of_le h, signedUnits_natAbs]

/-! ## The order of numbers -/

/-- Every finite double lies between the infinities. -/
theorem finite_between {units : Nat} (fits : Fits units) (negative : Bool) :
    signedUnits true overflowBound < signedUnits negative units ∧
      signedUnits negative units < signedUnits false overflowBound := by
  have hbound := fits.2
  cases negative <;> simp only [signedUnits, Bool.false_eq_true, if_true, if_false] <;> omega

/-- Two numbers lie to each other as their places do. -/
theorem order?_eq {a b : Double} (ha : a.isNaN = false) (hb : b.isNaN = false) :
    a.order? b = some (compare a.place b.place) := by
  cases a with
  | nan => cases ha
  | infinity s =>
    cases b with
    | nan => cases hb
    | infinity t =>
      have hends : signedUnits true overflowBound < signedUnits false overflowBound := by
        have hbetween := finite_between fits_zero false
        omega
      cases s <;> cases t <;>
        simp [order?, place, Int.compare_eq_lt.mpr hends, Int.compare_eq_gt.mpr hends]
    | finite t n hn =>
      have hbetween := finite_between hn t
      cases s <;>
        simp [order?, place, Int.compare_eq_lt.mpr hbetween.1, Int.compare_eq_gt.mpr hbetween.2]
  | finite s m hm =>
    cases b with
    | nan => cases hb
    | infinity t =>
      have hbetween := finite_between hm s
      cases t <;>
        simp [order?, place, Int.compare_eq_lt.mpr hbetween.2, Int.compare_eq_gt.mpr hbetween.1]
    | finite t n hn => rfl

theorem lt_iff {a b : Double} (ha : a.isNaN = false) (hb : b.isNaN = false) :
    a.lt b ↔ a.place < b.place := by
  rw [lt, order?_eq ha hb, beq_iff_eq, Option.some_inj, Int.compare_eq_lt]

theorem eq_iff {a b : Double} (ha : a.isNaN = false) (hb : b.isNaN = false) :
    a.eq b ↔ a.place = b.place := by
  rw [eq, order?_eq ha hb, beq_iff_eq, Option.some_inj, Std.compare_eq_iff_eq]

theorem le_iff {a b : Double} (ha : a.isNaN = false) (hb : b.isNaN = false) :
    a.le b ↔ a.place ≤ b.place := by
  have hle : a.le b ↔ a.lt b ∨ a.eq b := by rw [le, Bool.or_eq_true, lt, eq]
  rw [hle, lt_iff ha hb, eq_iff ha hb, Int.le_iff_lt_or_eq]

theorem isNaN_of_isFinite {a : Double} (h : a.isFinite) : a.isNaN = false := by
  cases a with
  | finite => rfl
  | nan | infinity => cases h

/-- What a number is equal to is a number. -/
theorem isNaN_of_eq {a b : Double} (h : a.eq b) : b.isNaN = false := by
  cases b with
  | nan => cases a <;> cases h
  | infinity | finite => rfl

/-- What equals a finite double is finite. -/
theorem isFinite_of_eq {a b : Double} (ha : a.isFinite) (h : a.eq b) : b.isFinite := by
  cases a with
  | nan | infinity => cases ha
  | finite =>
    cases b with
    | finite => rfl
    | nan => cases h
    | infinity negative => cases negative <;> cases h

theorem isNaN_nearest (negative : Bool) (num den : Nat) :
    (nearest negative num den).isNaN = false := by
  unfold nearest
  split <;> rfl

theorem isNaN_ofInt (n : Int) : (ofInt n).isNaN = false := by
  unfold ofInt
  exact isNaN_nearest _ _ _

theorem eq_nan_of_isNaN {a : Double} (h : a.isNaN) : a = .nan := by
  cases a with
  | nan => rfl
  | infinity | finite => cases h

/-- The missing number is placed above all numbers. -/
theorem place_lt_nan {a : Double} (h : a.isNaN = false) : a.place < nan.place := by
  have hnan : nan.place = overflowBound + 1 := rfl
  cases a with
  | nan => cases h
  | infinity s =>
    rw [hnan, place]
    unfold signedUnits
    split <;> omega
  | finite s n hn =>
    have hbetween := (finite_between hn s).2
    have hend : signedUnits false overflowBound = overflowBound := rfl
    rw [hnan, place]
    omega

end Double

/-- Numbers are sorted by their places. -/
theorem Value.compareNumbers_eq (a b : Double) :
    compareNumbers a b = Ord.compare a.place b.place := by
  cases ha : a.isNaN <;> cases hb : b.isNaN <;> simp only [compareNumbers, ha, hb]
  · rw [Double.order?_eq ha hb, Option.getD_some]
  · rw [Double.eq_nan_of_isNaN hb, Int.compare_eq_lt.mpr (Double.place_lt_nan ha)]
  · rw [Double.eq_nan_of_isNaN ha, Int.compare_eq_gt.mpr (Double.place_lt_nan hb)]
  · rw [Double.eq_nan_of_isNaN ha, Double.eq_nan_of_isNaN hb, Std.ReflOrd.compare_self]

end CrmEmulator
