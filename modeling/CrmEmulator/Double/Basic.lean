/-!
# CrmEmulator.Double.Basic — double-precision numbers, held exactly

A finite double is a whole number of units of `2 ^ (-1074)`, the smallest positive double.  With
that reading every operation is exact arithmetic on integers followed by one rounding:

1. `Fits` says which counts of units a double can hold: 53 significant bits below the overflow
   bound.  The type carries it, so no other count can be built.
2. `nearest` rounds a quotient of counts, a half going to the even neighbour.
3. Sums, products and quotients are `nearest` of the exact result; the order is that of integers.
-/

namespace CrmEmulator

/-- The number of low bits by which a count exceeds a window of 53 bits. -/
def excessBits (n : Nat) : Nat := n.log2 + 1 - 53

/-- The units are so many halvings below one. -/
def unitExponent : Nat := 1074

/-- One times so many doublings is too large for a double. -/
def overflowExponent : Nat := 1024

/-- The first power of two that is too large for a double, in units. -/
def overflowBound : Nat := Nat.pow 2 (unitExponent + overflowExponent)

/-- A double holds the counts of at most 53 significant bits below the overflow bound. -/
def Fits (n : Nat) : Prop := Nat.pow 2 (excessBits n) ∣ n ∧ n < overflowBound

instance (n : Nat) : Decidable (Fits n) := inferInstanceAs (Decidable (_ ∧ _))

/-- A double-precision number: no number, an infinity, or a signed count of smallest positive
doubles. -/
inductive Double
  | nan
  | infinity (negative : Bool)
  | finite (negative : Bool) (units : Nat) (fits : Fits units)
deriving DecidableEq

namespace Double

/-! ## Rounding -/

/-- The quotient rounded to a whole number, a half going to the even neighbour. -/
def roundDiv (num den : Nat) : Nat :=
  let quotient := num / den
  let twice := 2 * (num % den)
  if twice < den then quotient
  else if den < twice then quotient + 1
  else quotient + quotient % 2

/-- Rounding a quotient adds one at most. -/
theorem roundDiv_le (num den : Nat) : roundDiv num den ≤ num / den + 1 := by
  unfold roundDiv
  dsimp only
  split
  · omega
  · split
    · omega
    · have := Nat.mod_lt (num / den) (show 0 < 2 by decide)
      omega

/-- A count with 53 bits, followed by zeros, fits as long as it does not overflow. -/
theorem fits_mul_two_pow {k s : Nat} (hk : k ≤ Nat.pow 2 53)
    (hlt : k * Nat.pow 2 s < overflowBound) : Fits (k * Nat.pow 2 s) := by
  refine ⟨?_, hlt⟩
  rcases Nat.lt_or_ge k (Nat.pow 2 53) with hk' | hk'
  · by_cases h0 : k * Nat.pow 2 s = 0
    · rw [h0]; exact Nat.dvd_zero _
    · have hbits : k * Nat.pow 2 s < Nat.pow 2 (53 + s) :=
        Nat.lt_of_lt_of_eq (Nat.mul_lt_mul_of_pos_right hk' (Nat.two_pow_pos s))
          (Nat.pow_add 2 53 s).symm
      have hlog : (k * Nat.pow 2 s).log2 < 53 + s := (Nat.log2_lt h0).mpr hbits
      have hle : excessBits (k * Nat.pow 2 s) ≤ s := by unfold excessBits; omega
      exact Nat.dvd_trans (Nat.pow_dvd_pow 2 hle) (Nat.dvd_mul_left _ _)
  · have hk2 : k = Nat.pow 2 53 := Nat.le_antisymm hk hk'
    have hone : k * Nat.pow 2 s = Nat.pow 2 (53 + s) := hk2 ▸ (Nat.pow_add 2 53 s).symm
    have hle : excessBits (Nat.pow 2 (53 + s)) ≤ 53 + s := by
      have hlog : (Nat.pow 2 (53 + s)).log2 = 53 + s := Nat.log2_two_pow
      unfold excessBits
      omega
    rw [hone]
    exact Nat.pow_dvd_pow 2 hle

/-- Dividing out the excess of a quotient leaves at most 53 bits. -/
theorem div_excess_lt (n : Nat) : n / Nat.pow 2 (excessBits n) < Nat.pow 2 53 := by
  refine (Nat.div_lt_iff_lt_mul (Nat.two_pow_pos _)).mpr ?_
  refine Nat.lt_of_lt_of_eq ?_ (Nat.pow_add 2 53 (excessBits n))
  refine Nat.lt_of_lt_of_le Nat.lt_log2_self (Nat.pow_le_pow_right (by decide) ?_)
  unfold excessBits
  omega

/-- The spacing of doubles around a count of units. -/
def spacing (units : Nat) : Nat := Nat.pow 2 (excessBits units)

/-- The count of units nearest to `num / den`, on the grid of doubles around it. -/
def nearestUnits (num den : Nat) : Nat :=
  roundDiv num (den * spacing (num / den)) * spacing (num / den)

/-- What rounding leaves below the bound is a number of units that fits. -/
theorem fits_nearestUnits {num den : Nat} (h : nearestUnits num den < overflowBound) :
    Fits (nearestUnits num den) := by
  refine fits_mul_two_pow ?_ h
  refine Nat.le_trans (roundDiv_le _ _) ?_
  rw [← Nat.div_div_eq_div_mul]
  exact div_excess_lt (num / den)

/-- The double nearest to `num / den` units with the given sign; beyond the largest double it is
an infinity. -/
def nearest (negative : Bool) (num den : Nat) : Double :=
  if h : nearestUnits num den < overflowBound then
    .finite negative (nearestUnits num den) (fits_nearestUnits h)
  else .infinity negative

/-! ## Constants and conversions -/

theorem pow_two_pos (n : Nat) : 0 < Nat.pow 2 n := Nat.two_pow_pos n

theorem overflowBound_pos : 0 < overflowBound := by
  unfold overflowBound
  exact pow_two_pos _

theorem fits_zero : Fits 0 := ⟨Nat.dvd_zero _, overflowBound_pos⟩

/-- Zero with a sign. -/
def zero (negative : Bool) : Double := .finite negative 0 fits_zero

/-- The units in one. -/
def unitsPerOne : Nat := Nat.pow 2 unitExponent

/-- The double nearest to an integer. -/
def ofInt (n : Int) : Double := nearest (n < 0) (n.natAbs * unitsPerOne) 1

/-- The double nearest to `digits * 10 ^ exponent`.  Exponents far outside the range of doubles
are settled before any power is computed. -/
def ofDecimal (negative : Bool) (digits : Nat) (exponent : Int) : Double :=
  if digits = 0 then zero negative
  else if 400 < exponent then .infinity negative
  else if exponent + digits.log2 < -1100 then zero negative
  else if 0 ≤ exponent then nearest negative (digits * Nat.pow 10 exponent.toNat * unitsPerOne) 1
  else nearest negative (digits * unitsPerOne) (Nat.pow 10 (-exponent).toNat)

/-- The difference of neighbouring doubles just above one, `2 ^ (-52)`. -/
def epsilon : Double := nearest false (Nat.pow 2 1022) 1

/-! ## Shape -/

def isNaN : Double → Bool
  | .nan => true
  | _ => false

def isFinite : Double → Bool
  | .finite .. => true
  | _ => false

/-- The sign bit; a missing number has none. -/
def isNegative : Double → Bool
  | .nan => false
  | .infinity negative => negative
  | .finite negative _ _ => negative

/-- A finite double without a fractional part. -/
def isIntegral : Double → Bool
  | .finite _ units _ => units % unitsPerOne == 0
  | _ => false

/-- A count of units with its sign. -/
def signedUnits (negative : Bool) (units : Nat) : Int := if negative then -units else units

/-! ## Arithmetic -/

def neg : Double → Double
  | .nan => .nan
  | .infinity negative => .infinity !negative
  | .finite negative units fits => .finite (!negative) units fits

def abs : Double → Double
  | .nan => .nan
  | .infinity _ => .infinity false
  | .finite _ units fits => .finite false units fits

/-- The sum; an exact zero is negative only if both terms are. -/
def add : Double → Double → Double
  | .nan, _ => .nan
  | _, .nan => .nan
  | .infinity a, .infinity b => if a = b then .infinity a else .nan
  | .infinity a, .finite .. => .infinity a
  | .finite .., .infinity b => .infinity b
  | .finite a m _, .finite b n _ =>
    let sum := signedUnits a m + signedUnits b n
    if sum = 0 then zero (a && b) else nearest (sum < 0) sum.natAbs 1

def sub (x y : Double) : Double := add x (neg y)

/-- The product; an infinity times zero is no number. -/
def mul : Double → Double → Double
  | .nan, _ => .nan
  | _, .nan => .nan
  | .infinity a, .infinity b => .infinity (a != b)
  | .infinity a, .finite b n _ => if n = 0 then .nan else .infinity (a != b)
  | .finite a m _, .infinity b => if m = 0 then .nan else .infinity (a != b)
  | .finite a m _, .finite b n _ => nearest (a != b) (m * n) unitsPerOne

/-- The quotient; zero by zero and infinity by infinity are no numbers. -/
def div : Double → Double → Double
  | .nan, _ => .nan
  | _, .nan => .nan
  | .infinity _, .infinity _ => .nan
  | .infinity a, .finite b _ _ => .infinity (a != b)
  | .finite a _ _, .infinity b => zero (a != b)
  | .finite a m _, .finite b n _ =>
    if n = 0 then (if m = 0 then .nan else .infinity (a != b))
    else nearest (a != b) (m * unitsPerOne) n

instance : Neg Double := ⟨neg⟩
instance : Add Double := ⟨add⟩
instance : Sub Double := ⟨sub⟩
instance : Mul Double := ⟨mul⟩
instance : Div Double := ⟨div⟩

/-! ## Order -/

/-- How two doubles lie to each other; a missing number lies nowhere, and both zeros are equal. -/
def order? : Double → Double → Option Ordering
  | .nan, _ => none
  | _, .nan => none
  | .infinity a, .infinity b =>
    some (if a = b then .eq else if a then .lt else .gt)
  | .infinity a, .finite .. => some (if a then .lt else .gt)
  | .finite .., .infinity b => some (if b then .gt else .lt)
  | .finite a m _, .finite b n _ => some (compare (signedUnits a m) (signedUnits b n))

def lt (x y : Double) : Bool := order? x y == some .lt

def le (x y : Double) : Bool := order? x y == some .lt || order? x y == some .eq

/-- Equality of numbers: both zeros are equal and a missing number equals nothing. -/
def eq (x y : Double) : Bool := order? x y == some .eq

/-- Two doubles whose difference is smaller than `epsilon`. -/
def near (x y : Double) : Bool := lt (abs (x - y)) epsilon

end Double

end CrmEmulator
