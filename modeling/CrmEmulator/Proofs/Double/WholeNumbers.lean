import CrmEmulator.Proofs.Double.Nearness

/-!
# CrmEmulator.Proofs.Double.WholeNumbers — sums and quotients of whole numbers

1. Whole numbers up to `2 ^ 53` are doubles, and as long as sums stay below that bound they are
   exact.
2. Rounding goes to the nearest count that a double can hold: what it can hold lies on the grid
   around the rounded number, or below a power of two that does.
3. So the quotient of two whole numbers up to the bound is a double that no other is nearer to it
   than (`IsNearestQuotient`).
-/

namespace CrmEmulator

namespace Double

/-! ## Sums -/

/-- A number of units that fits is kept by rounding. -/
theorem nearest_of_fits {units : Nat} (h : Fits units) (negative : Bool) :
    nearest negative units 1 = .finite negative units h := by
  have hunits := nearestUnits_of_fits h
  unfold nearest
  rw [dif_pos (hunits.symm ▸ h.2)]
  congr 1

/-- A whole number that is not rounded. -/
theorem ofInt_of_le {n : Int} (h : n.natAbs ≤ exactBound) :
    ofInt n = .finite (n < 0) (n.natAbs * unitsPerOne) (fits_whole h) := by
  rw [ofInt, nearest_of_fits (fits_whole h)]

theorem ofInt_zero : ofInt 0 = zero false := by
  rw [ofInt, Int.natAbs_zero, Nat.zero_mul, nearest_of_fits fits_zero]
  rfl

theorem add_finite (a b : Bool) {m n : Nat} (hm : Fits m) (hn : Fits n) :
    finite a m hm + finite b n hn =
      if signedUnits a m + signedUnits b n = 0 then zero (a && b)
      else nearest (signedUnits a m + signedUnits b n < 0)
        (signedUnits a m + signedUnits b n).natAbs 1 := rfl

theorem mul_unitsPerOne_lt_zero {n : Int} : n * unitsPerOne < 0 ↔ n < 0 := by
  have hpos : (0 : Int) < unitsPerOne := Int.natCast_pos.mpr unitsPerOne_pos
  refine ⟨fun h => Int.not_le.mp fun hn => ?_, fun h => Int.mul_neg_of_neg_of_pos h hpos⟩
  exact Int.not_le.mpr h (Int.mul_nonneg hn (Int.le_of_lt hpos))

theorem mul_unitsPerOne_eq_zero {n : Int} : n * unitsPerOne = 0 ↔ n = 0 := by
  have hpos := unitsPerOne_pos
  rw [Int.mul_eq_zero]
  omega

/-- The double of a whole number that is made from its units. -/
theorem nearest_units (n : Int) :
    nearest (n * unitsPerOne < 0) (n * unitsPerOne).natAbs 1 = ofInt n := by
  rw [ofInt, Int.natAbs_mul, Int.natAbs_natCast, decide_eq_decide.mpr mul_unitsPerOne_lt_zero]

/-- Whole numbers are added up exactly. -/
theorem add_ofInt {a b : Int} (ha : a.natAbs ≤ exactBound) (hb : b.natAbs ≤ exactBound) :
    ofInt a + ofInt b = ofInt (a + b) := by
  rw [ofInt_of_le ha, ofInt_of_le hb, add_finite, signedUnits_natAbs, signedUnits_natAbs,
    ← Int.add_mul, nearest_units]
  split
  · next hzero =>
    rw [mul_unitsPerOne_eq_zero] at hzero
    -- zero is not the sum of two numbers below it
    have hsign : (decide (a < 0) && decide (b < 0)) = false := by
      rw [Bool.and_eq_false_iff, decide_eq_false_iff_not, decide_eq_false_iff_not]
      omega
    rw [hsign, hzero, ofInt_zero]
  · rfl

theorem zero_add_zero : zero true + zero true = zero true := by
  have hunits : signedUnits true 0 + signedUnits true 0 = 0 := rfl
  rw [zero, add_finite, if_pos hunits]
  rfl

/-- A sum begins at the negative zero, which adds nothing. -/
theorem zero_add_ofInt {n : Int} (h : n.natAbs ≤ exactBound) : zero true + ofInt n = ofInt n := by
  have hstart : signedUnits true 0 = 0 := rfl
  have hsum : zero true + ofInt n =
      if n * unitsPerOne = 0 then zero (true && decide (n < 0)) else ofInt n := by
    rw [ofInt_of_le h, zero, add_finite, signedUnits_natAbs,
      hstart, Int.zero_add, nearest_units, ofInt_of_le h]
  rw [hsum]
  split
  · next hzero =>
    rw [mul_unitsPerOne_eq_zero] at hzero
    subst hzero
    exact ofInt_zero.symm
  · rfl

/-! ## The nearest count -/

/-- Rounding a quotient goes to the nearer side. -/
theorem roundDiv_cases (num den : Nat) :
    (roundDiv num den = num / den ∧ 2 * (num % den) ≤ den) ∨
      (roundDiv num den = num / den + 1 ∧ den ≤ 2 * (num % den)) := by
  unfold roundDiv
  dsimp only
  repeat' split
  all_goals omega

/-- A quotient is rounded so that no multiple of the divisor is nearer to the dividend. -/
theorem distance_roundDiv_le (num : Nat) {den : Nat} (hden : 0 < den) (k : Nat) :
    ((den * roundDiv num den : Nat) - num : Int).natAbs ≤ ((den * k : Nat) - num : Int).natAbs := by
  have hnum := Nat.div_add_mod num den
  have hrest := Nat.mod_lt num hden
  have hsides : den * k ≤ den * (num / den) ∨ den * (num / den) + den ≤ den * k := by
    rcases Nat.lt_or_ge (num / den) k with h | h
    · exact .inr (Nat.mul_le_mul_left den h)
    · exact .inl (Nat.mul_le_mul_left den h)
  rcases roundDiv_cases num den with ⟨hround, hhalf⟩ | ⟨hround, hhalf⟩
  · rw [hround]
    omega
  · rw [hround, Nat.mul_succ]
    omega

/-- What a double can hold lies on the grid around a number, or below a power of two that lies on it
and is not greater than the number. -/
theorem on_grid_or_below {m : Nat} (h : Fits m) (n : Nat) :
    (∃ k, m = spacing n * k) ∨ ∃ k, m < spacing n * k ∧ spacing n * k ≤ n := by
  rcases Nat.lt_or_ge (excessBits m) (excessBits n) with hexcess | hexcess
  · right
    have hlog : excessBits n + 52 = n.log2 ∧ m.log2 < n.log2 := by
      unfold excessBits at hexcess ⊢
      omega
    have hpow : spacing n * Nat.pow 2 52 = Nat.pow 2 n.log2 := by
      rw [← hlog.1]
      exact (Nat.pow_add 2 _ 52).symm
    refine ⟨Nat.pow 2 52, ?_, ?_⟩
    · rw [hpow]
      by_cases hm : m = 0
      · rw [hm]
        exact pow_two_pos _
      · exact (Nat.log2_lt hm).mp hlog.2
    · rw [hpow]
      refine Nat.log2_self_le ?_
      rintro rfl
      simp [excessBits] at hexcess
  · exact .inl (Nat.dvd_trans (pow_two_dvd hexcess) h.1)

/-- No count that a double can hold is nearer to a quotient than the one it is rounded to. -/
theorem distance_nearestUnits_le (num : Nat) {den m : Nat} (hden : 0 < den) (h : Fits m) :
    ((den * nearestUnits num den : Nat) - num : Int).natAbs ≤
      ((den * m : Nat) - num : Int).natAbs := by
  have hgrid : den * nearestUnits num den =
      den * spacing (num / den) * roundDiv num (den * spacing (num / den)) := by
    rw [nearestUnits, Nat.mul_comm (roundDiv _ _), Nat.mul_assoc]
  have hpos : 0 < den * spacing (num / den) := Nat.mul_pos hden (pow_two_pos _)
  have hnearest := distance_roundDiv_le num hpos
  rw [hgrid]
  rcases on_grid_or_below h (num / den) with ⟨k, rfl⟩ | ⟨k, hbelow, hle⟩
  · rw [← Nat.mul_assoc]
    exact hnearest k
  · -- the power of two between the count and the quotient is nearer already
    have hclose := hnearest k
    have hfar := Nat.mul_lt_mul_of_pos_left hbelow hden
    have hless : den * (spacing (num / den) * k) ≤ num :=
      Nat.le_trans (Nat.mul_le_mul_left den hle) (Nat.mul_div_le num den)
    rw [Nat.mul_assoc den _ k] at hclose
    omega

/-! ## Quotients -/

/-- No double is nearer to the quotient of two whole numbers. -/
structure IsNearestQuotient (x : Double) (num : Int) (den : Nat) : Prop where
  isFinite : x.isFinite
  nearest : ∀ y : Double, y.isFinite →
    (x.place * den - num * unitsPerOne).natAbs ≤ (y.place * den - num * unitsPerOne).natAbs

/-- A factor of both numbers does not change the rounded quotient. -/
theorem roundDiv_mul_right (num den : Nat) {k : Nat} (h : 0 < k) :
    roundDiv (num * k) (den * k) = roundDiv num den := by
  have hless (a b : Nat) : a * k < b * k ↔ a < b := Nat.mul_lt_mul_right h
  unfold roundDiv
  dsimp only
  rw [Nat.mul_div_mul_right _ _ h, Nat.mul_mod_mul_right, ← Nat.mul_assoc]
  simp only [hless]

/-- A factor of both numbers does not change the double nearest to the quotient. -/
theorem nearest_mul_right (negative : Bool) (num den : Nat) {k : Nat} (h : 0 < k) :
    nearest negative (num * k) (den * k) = nearest negative num den := by
  have hunits : nearestUnits (num * k) (den * k) = nearestUnits num den := by
    unfold nearestUnits
    rw [Nat.mul_div_mul_right _ _ h, Nat.mul_right_comm, roundDiv_mul_right _ _ h]
  unfold nearest
  simp only [hunits]

/-- A factor can be taken into the units. -/
theorem signedUnits_mul (negative : Bool) (units den : Nat) :
    signedUnits negative units * den = signedUnits negative (den * units) := by
  unfold signedUnits
  split
  · rw [Int.natCast_mul, Int.neg_mul, Int.mul_comm]
  · rw [Int.natCast_mul, Int.mul_comm]

/-- Counts of one sign are as far apart as without it. -/
theorem distance_signedUnits (negative : Bool) (m n : Nat) :
    (signedUnits negative m - signedUnits negative n).natAbs = (m - n : Int).natAbs := by
  unfold signedUnits
  split <;> omega

/-- Counts of different signs are further apart. -/
theorem distance_le_signedUnits (a b : Bool) (m n : Nat) :
    (m - n : Int).natAbs ≤ (signedUnits a m - signedUnits b n).natAbs := by
  unfold signedUnits
  split <;> split <;> omega

/-- Rounding a quotient of whole numbers within the exact bound gives a double next to it. -/
theorem isNearestQuotient_nearest {num : Int} {den : Nat} (hnum : num.natAbs ≤ exactBound)
    (hden : 0 < den) :
    IsNearestQuotient (nearest (num < 0) (num.natAbs * unitsPerOne) den) num den := by
  have hsmall : 2 * (num.natAbs * unitsPerOne / den) + 1 < overflowBound := by
    have hdiv := Nat.div_le_self (num.natAbs * unitsPerOne) den
    have hbits : num.natAbs < Nat.pow 2 54 := Nat.lt_of_le_of_lt hnum (pow_two_lt (by decide))
    have hless := two_mul_units_lt hbits
    have hbound : digitsBound 54 ≤ overflowBound := digitsBound_le (by decide)
    omega
  have hunits : nearestUnits (num.natAbs * unitsPerOne) den < overflowBound :=
    Nat.lt_of_le_of_lt (nearestUnits_le _ _) hsmall
  refine ⟨(within_nearest hsmall (Nat.le_refl _) _).isFinite, fun y hy => ?_⟩
  cases y with
  | nan | infinity => cases hy
  | finite negative m fits =>
    have hdistance := distance_nearestUnits_le (num.natAbs * unitsPerOne) hden fits
    rw [place_nearest, Nat.min_eq_left (Nat.le_of_lt hunits), place, signedUnits_mul,
      signedUnits_mul, ← signedUnits_natAbs num, distance_signedUnits]
    exact Nat.le_trans hdistance (distance_le_signedUnits _ _ _ _)

/-- The quotient of two whole numbers is rounded only once. -/
theorem ofInt_div_ofInt {num : Int} {den : Nat} (hnum : num.natAbs ≤ exactBound) (hpos : 0 < den)
    (hden : den ≤ exactBound) :
    ofInt num / ofInt den = nearest (num < 0) (num.natAbs * unitsPerOne) den := by
  have hsize : (den : Int).natAbs ≤ exactBound := by rwa [Int.natAbs_natCast]
  have hsign : decide ((den : Int) < 0) = false := by
    rw [decide_eq_false_iff_not]
    omega
  have hunits : den * unitsPerOne ≠ 0 := Nat.ne_of_gt (Nat.mul_pos hpos unitsPerOne_pos)
  rw [ofInt_of_le hnum, ofInt_of_le hsize, div_finite, Int.natAbs_natCast, if_neg hunits,
    nearest_mul_right _ _ _ unitsPerOne_pos, hsign, Bool.bne_false]

/-- Dividing the doubles of such numbers gives a double next to the quotient, too. -/
theorem isNearestQuotient_div {num : Int} {den : Nat} (hnum : num.natAbs ≤ exactBound)
    (hpos : 0 < den) (hden : den ≤ exactBound) :
    IsNearestQuotient (ofInt num / ofInt den) num den := by
  rw [ofInt_div_ofInt hnum hpos hden]
  exact isNearestQuotient_nearest hnum hpos

end Double

end CrmEmulator
