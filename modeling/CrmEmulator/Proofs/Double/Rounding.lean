import CrmEmulator.Double.Reading

/-!
# CrmEmulator.Proofs.Double.Rounding — how far rounding goes

1. A count is rounded to at most about twice as much and to at least half of it.
2. `Within`: a finite double of less than so many units.  A number that is small before it is
   rounded, or divided by a power of ten, is finite after it.
3. So 64 bits of digits, however far they are scaled down, make a finite double; and numbers that
   are scaled up are read only if they are finite.
-/

namespace CrmEmulator

namespace Double

/-! ## Counts -/

/-- The spacing at a number is not above it. -/
theorem spacing_le {n : Nat} (h : n ≠ 0) : spacing n ≤ n := by
  unfold spacing
  have hbits : excessBits n ≤ n.log2 := by
    unfold excessBits
    omega
  have hpow : Nat.pow 2 n.log2 ≤ n := Nat.log2_self_le h
  exact Nat.le_trans (Nat.pow_le_pow_right (by decide) hbits) hpow

/-- Rounding does not go further than to the next number of the grid. -/
theorem nearestUnits_le (num den : Nat) : nearestUnits num den ≤ 2 * (num / den) + 1 := by
  have hround := roundDiv_le num (den * spacing (num / den))
  rw [← Nat.div_div_eq_div_mul] at hround
  have hgrid := Nat.div_mul_le_self (num / den) (spacing (num / den))
  have hspacing : spacing (num / den) ≤ num / den + 1 := by
    by_cases hzero : num / den = 0
    · rw [hzero]
      decide
    · exact Nat.le_succ_of_le (spacing_le hzero)
  calc nearestUnits num den
      ≤ (num / den / spacing (num / den) + 1) * spacing (num / den) :=
        Nat.mul_le_mul_right _ hround
    _ = num / den / spacing (num / den) * spacing (num / den) + spacing (num / den) :=
        Nat.succ_mul _ _
    _ ≤ 2 * (num / den) + 1 := by omega

/-- Rounding goes down by less than one. -/
theorem le_roundDiv (num den : Nat) : num / den ≤ roundDiv num den := by
  unfold roundDiv
  dsimp only
  split
  · exact Nat.le_refl _
  · split <;> omega

/-- Rounding keeps at least half of a number. -/
theorem le_two_mul_nearestUnits (num den : Nat) : num / den ≤ 2 * nearestUnits num den := by
  by_cases hzero : num / den = 0
  · omega
  have hround := le_roundDiv num (den * spacing (num / den))
  rw [← Nat.div_div_eq_div_mul] at hround
  have hpos : 0 < spacing (num / den) := pow_two_pos _
  have hgrid : num / den < num / den / spacing (num / den) * spacing (num / den) +
      spacing (num / den) := Nat.lt_div_mul_add hpos
  -- the number is not smaller than the grid around it, so it keeps one step of the grid
  have hone : 1 ≤ num / den / spacing (num / den) := (Nat.one_le_div_iff hpos).mpr (spacing_le hzero)
  have hstep := Nat.mul_le_mul_right (spacing (num / den)) hone
  have hkept := Nat.mul_le_mul_right (spacing (num / den)) hround
  unfold nearestUnits
  omega

theorem pow_two_le {m k : Nat} (h : m ≤ k) : Nat.pow 2 m ≤ Nat.pow 2 k :=
  Nat.pow_le_pow_right (by decide) h

/-! ## Finite doubles -/

/-- A finite double of less than so many units. -/
inductive Within (bound : Nat) : Double → Prop
  | mk {negative : Bool} {units : Nat} {fits : Fits units} (h : units < bound) :
      Within bound (.finite negative units fits)

theorem Within.isFinite {bound : Nat} {x : Double} (h : x.Within bound) : x.isFinite := by
  cases h
  rfl

theorem isFinite_neg {x : Double} (h : x.isFinite) : (-x).isFinite := by
  cases x with
  | finite => rfl
  | nan | infinity => cases h

/-- A quotient well below a bound is rounded to a double within it. -/
theorem within_nearest {num den bound : Nat} (h : 2 * (num / den) + 1 < bound)
    (hbound : bound ≤ overflowBound) (negative : Bool) : (nearest negative num den).Within bound := by
  have hunits := Nat.lt_of_le_of_lt (nearestUnits_le num den) h
  unfold nearest
  rw [dif_pos (Nat.lt_of_lt_of_le hunits hbound)]
  exact .mk hunits

theorem unitsPerOne_pos : 0 < unitsPerOne := by
  unfold unitsPerOne
  exact pow_two_pos _

theorem div_finite (a b : Bool) {m n : Nat} (hm : Fits m) (hn : Fits n) :
    finite a m hm / finite b n hn =
      if n = 0 then (if m = 0 then .nan else .infinity (a != b))
      else nearest (a != b) (m * unitsPerOne) n := rfl

/-- A power of ten is at least a half, or too large for a double. -/
theorem powerOfTen_cases {n : Nat} (h : n ≤ 308) :
    powerOfTen n = .infinity false ∨
      ∃ units fits, powerOfTen n = .finite false units fits ∧ unitsPerOne ≤ 2 * units := by
  have hpower : powerOfTen n = nearest false (1 * Nat.pow 10 n * unitsPerOne) 1 := by
    have hlarge : ¬ (400 : Int) < n := by omega
    have hsmall : ¬ ((n : Int) + (Nat.log2 1 : Nat) < -1100) := by omega
    unfold powerOfTen ofDecimal
    rw [if_neg Nat.one_ne_zero, if_neg hlarge, if_neg hsmall, if_pos (Int.natCast_nonneg n)]
    rfl
  have hunits : unitsPerOne ≤ 1 * Nat.pow 10 n * unitsPerOne := by
    rw [Nat.one_mul]
    exact Nat.le_mul_of_pos_left _ (Nat.pow_pos (by decide))
  have hhalf := le_two_mul_nearestUnits (1 * Nat.pow 10 n * unitsPerOne) 1
  rw [Nat.div_one] at hhalf
  rw [hpower]
  unfold nearest
  split
  · next hfits => exact .inr ⟨_, fits_nearestUnits hfits, rfl, Nat.le_trans hunits hhalf⟩
  · exact .inl rfl

/-- Dividing by a power of ten does not enlarge a number but for the rounding. -/
theorem Within.div_powerOfTen {bound n : Nat} {x : Double} (h : x.Within bound) (hn : n ≤ 308)
    (hbound : 8 * bound ≤ overflowBound) : (x / powerOfTen n).Within (8 * bound) := by
  cases h with
  | @mk negative m fits hm =>
    rcases powerOfTen_cases hn with hinfinite | ⟨units, fits', hpower, hunits⟩
    · rw [hinfinite]
      have hpos : 0 < 8 * bound := by omega
      exact .mk hpos
    · have hpos := unitsPerOne_pos
      have hunits_pos : 0 < units := by omega
      have hquotient : m * unitsPerOne / units ≤ 2 * m := by
        refine Nat.div_le_of_le_mul ?_
        calc m * unitsPerOne
            ≤ m * (2 * units) := Nat.mul_le_mul_left m hunits
          _ = units * (2 * m) := by rw [Nat.mul_comm, Nat.mul_comm 2 units, Nat.mul_assoc]
      have hless : 2 * (m * unitsPerOne / units) + 1 < 8 * bound := by omega
      rw [hpower, div_finite, if_neg (Nat.ne_of_gt hunits_pos)]
      exact within_nearest hless hbound _

/-- Scaling up a number of so many bits stays below the power that has room for them. -/
theorem two_mul_scaled_lt {n k : Nat} (h : n < Nat.pow 2 k) (m : Nat) :
    2 * (n * Nat.pow 2 m) + 1 < Nat.pow 2 (m + (k + 2)) := by
  have hscaled : (n + 1) * Nat.pow 2 m ≤ Nat.pow 2 k * Nat.pow 2 m := Nat.mul_le_mul_right _ h
  have hpow : Nat.pow 2 (m + (k + 2)) = 4 * (Nat.pow 2 k * Nat.pow 2 m) := by
    show 2 ^ (m + (k + 2)) = 4 * (2 ^ k * 2 ^ m)
    rw [Nat.pow_add, Nat.pow_add]
    lia
  have hpos := pow_two_pos m
  rw [Nat.add_mul] at hscaled
  omega

/-- More units than digits of so many bits make. -/
def digitsBound (bits : Nat) : Nat := Nat.pow 2 (unitExponent + (bits + 2))

theorem digitsBound_le {bits : Nat} (h : bits < 1000) : digitsBound bits ≤ overflowBound := by
  have hexponent : overflowExponent = 1024 := rfl
  unfold digitsBound overflowBound
  exact pow_two_le (by omega)

theorem eight_mul_digitsBound (bits : Nat) : 8 * digitsBound bits = digitsBound (bits + 3) := by
  unfold digitsBound
  show 8 * 2 ^ (unitExponent + (bits + 2)) = 2 ^ (unitExponent + (bits + 2) + 3)
  rw [Nat.pow_add 2 _ 3, Nat.mul_comm]

/-- Each step of scaling down costs three bits at most, so a number that is small enough to begin
with stays finite. -/
theorem Within.scaleDown {fuel bits : Nat} {x : Double} (h : x.Within (digitsBound bits))
    (exponent : Nat) (hbits : bits + 3 * fuel < 1000) : (scaleDown x exponent fuel).isFinite := by
  induction fuel generalizing x bits exponent with
  | zero => exact h.isFinite
  | succ fuel ih =>
    have hbound : digitsBound (bits + 3) ≤ overflowBound := digitsBound_le (by omega)
    have hdivided {n : Nat} (hn : n ≤ 308) : (x / powerOfTen n).Within (digitsBound (bits + 3)) := by
      rw [← eight_mul_digitsBound] at hbound ⊢
      exact h.div_powerOfTen hn hbound
    unfold Double.scaleDown
    split
    · next hexponent => exact (hdivided hexponent).isFinite
    · split
      · exact h.isFinite
      · exact ih (hdivided (Nat.le_refl 308)) _ (by omega)

theorem two_mul_units_lt {n bits : Nat} (h : n < Nat.pow 2 bits) :
    2 * (n * unitsPerOne) + 1 < digitsBound bits := by
  unfold unitsPerOne digitsBound
  exact two_mul_scaled_lt h unitExponent

/-- The double of a number of so many bits is within the bound for them. -/
theorem within_ofDigits {n bits : Nat} (h : n < Nat.pow 2 bits) (hbits : bits < 1000)
    (negative : Bool) : (nearest negative (n * unitsPerOne) 1).Within (digitsBound bits) := by
  refine within_nearest ?_ (digitsBound_le hbits) negative
  rw [Nat.div_one]
  exact two_mul_units_lt h

/-- A whole number of 64 bits is far from the largest double. -/
theorem isFinite_ofInt {n : Int} (h : n.natAbs < Nat.pow 2 64) : (ofInt n).isFinite := by
  unfold ofInt
  exact (within_ofDigits h (by decide) _).isFinite

/-- A number that is read from digits of 64 bits is finite. -/
theorem isFinite_ofScaled? {negative : Bool} {digits : Nat} {exponent : Int} {x : Double}
    (h : ofScaled? negative digits exponent = some x) (hdigits : digits < Nat.pow 2 64) :
    x.isFinite := by
  have hsigned {y : Double} (hy : y.isFinite) : (if negative then -y else y).isFinite := by
    split
    · exact isFinite_neg hy
    · exact hy
  have hread := within_ofDigits hdigits (by decide) false
  simp only [ofScaled?] at h
  split at h
  · split at h
    · split at h
      · next hfinite =>
        cases h
        exact hsigned hfinite
      · cases h
    · split at h
      · cases h
        exact hsigned hread.isFinite
      · cases h
  · cases h
    exact hsigned (hread.scaleDown _ (by decide))

end Double

end CrmEmulator
