import CrmEmulator.Proofs.Double.Order

/-!
# CrmEmulator.Proofs.Double.Nearness — doubles that are less than epsilon apart

1. Two doubles are near each other when both are finite and the rounded distance of their places is
   less than the units of epsilon.  So nearness is symmetric, and a double is near itself exactly if
   it is finite.
2. Above one, doubles are epsilon apart or further.  So two that differ and are still near each
   other are both at most one in magnitude.
-/

namespace CrmEmulator

namespace Double

/-! ## Powers of two -/

theorem pow_two_lt {m k : Nat} (h : m < k) : Nat.pow 2 m < Nat.pow 2 k :=
  Nat.pow_lt_pow_right (by decide) h

theorem pow_two_dvd {m k : Nat} (h : m ≤ k) : Nat.pow 2 m ∣ Nat.pow 2 k :=
  Nat.pow_dvd_pow 2 h

theorem le_log2_of_pow_two_le {m n : Nat} (h : Nat.pow 2 m ≤ n) : m ≤ n.log2 :=
  (Nat.le_log2 (Nat.ne_of_gt (Nat.lt_of_lt_of_le (pow_two_pos m) h))).mpr h

/-! ## Distances -/

/-- Epsilon is so many doublings of the smallest double. -/
def epsilonExponent : Nat := 1022

/-- The units in epsilon. -/
def epsilonUnits : Nat := Nat.pow 2 epsilonExponent

theorem epsilonUnits_pos : 0 < epsilonUnits := by
  unfold epsilonUnits
  exact pow_two_pos _

theorem epsilonUnits_lt : epsilonUnits < overflowBound := by
  have hexponent : epsilonExponent < unitExponent + overflowExponent := by decide
  unfold epsilonUnits overflowBound
  exact pow_two_lt hexponent

/-- A power of two in the range of doubles is not rounded. -/
theorem nearestUnits_pow_two {k : Nat} (h : Nat.pow 2 k < overflowBound) :
    nearestUnits (Nat.pow 2 k) 1 = Nat.pow 2 k := by
  rw [← Nat.one_mul (Nat.pow 2 k)] at h ⊢
  exact nearestUnits_of_fits (fits_mul_two_pow (pow_two_pos 53) h)

theorem nearestUnits_epsilonUnits : nearestUnits epsilonUnits 1 = epsilonUnits := by
  have hlt := epsilonUnits_lt
  unfold epsilonUnits at hlt ⊢
  rw [nearestUnits_pow_two hlt]

theorem epsilon_eq : epsilon = nearest false epsilonUnits 1 := rfl

theorem place_epsilon : epsilon.place = epsilonUnits := by
  rw [epsilon_eq, place_nearest, nearestUnits_epsilonUnits,
    Nat.min_eq_left (Nat.le_of_lt epsilonUnits_lt)]
  rfl

theorem abs_nearest (negative : Bool) (num den : Nat) :
    (nearest negative num den).abs = nearest false num den := by
  unfold nearest
  split <;> rfl

/-- Both zeros have the absolute value zero. -/
theorem abs_zero (negative : Bool) : (zero negative).abs = nearest false 0 1 := by
  have hunits : nearestUnits 0 1 = 0 := nearestUnits_of_fits fits_zero
  unfold nearest
  rw [dif_pos (hunits ▸ overflowBound_pos)]
  simp [zero, abs, hunits]

theorem signedUnits_not (negative : Bool) (units : Nat) :
    signedUnits (!negative) units = -signedUnits negative units := by
  cases negative <;> simp [signedUnits]

/-- The size of a difference is the rounded distance of the places. -/
theorem abs_sub {x y : Double} (hx : x.isFinite) (hy : y.isFinite) :
    (x - y).abs = nearest false (x.place - y.place).natAbs 1 := by
  cases x with
  | nan | infinity => cases hx
  | finite a m hm =>
    cases y with
    | nan | infinity => cases hy
    | finite b n hn =>
      have hsub : finite a m hm - finite b n hn =
          add (finite a m hm) (finite (!b) n hn) := rfl
      rw [hsub, add, signedUnits_not, ← Int.sub_eq_add_neg]
      dsimp only [place]
      split
      · next hzero => rw [hzero, abs_zero, Int.natAbs_zero]
      · rw [abs_nearest]

/-- Without two finite doubles, the size of the difference is no number or an infinity. -/
theorem abs_sub_of_nonfinite {x y : Double} (h : ¬(x.isFinite ∧ y.isFinite)) :
    (x - y).abs = .nan ∨ (x - y).abs = .infinity false := by
  cases x with
  | nan => exact .inl rfl
  | infinity a =>
    cases y with
    | nan => exact .inl rfl
    | infinity b => cases a <;> cases b <;> first | exact .inl rfl | exact .inr rfl
    | finite => exact .inr rfl
  | finite =>
    cases y with
    | nan => exact .inl rfl
    | infinity => exact .inr rfl
    | finite => exact absurd ⟨rfl, rfl⟩ h

theorem nan_not_lt (x : Double) : nan.lt x = false := by
  cases x <;> rfl

theorem infinity_not_lt (x : Double) : (infinity false).lt x = false := by
  cases x with
  | nan | finite => rfl
  | infinity negative => cases negative <;> rfl

/-- Two doubles of which one is not finite are never near. -/
theorem not_near_of_nonfinite {x y : Double} (h : ¬(x.isFinite ∧ y.isFinite)) :
    x.near y = false := by
  rcases abs_sub_of_nonfinite h with hnan | hinfinity
  · rw [near, hnan, nan_not_lt]
  · rw [near, hinfinity, infinity_not_lt]

/-- A rounded distance is below epsilon exactly if its units are below those of epsilon. -/
theorem place_nearest_lt_epsilon (num den : Nat) :
    (nearest false num den).place < epsilon.place ↔ nearestUnits num den < epsilonUnits := by
  have hbound := epsilonUnits_lt
  have hunits (n : Nat) : signedUnits false n = n := rfl
  rw [place_epsilon, place_nearest, hunits]
  omega

/-- Nearness of finite doubles, in units: their distance rounds to less than epsilon. -/
theorem near_iff {x y : Double} : x.near y ↔ x.isFinite ∧ y.isFinite ∧
    nearestUnits (x.place - y.place).natAbs 1 < epsilonUnits := by
  by_cases hfinite : x.isFinite ∧ y.isFinite
  · have hepsilon : epsilon.isNaN = false := by
      unfold epsilon
      exact isNaN_nearest _ _ _
    rw [near, abs_sub hfinite.1 hfinite.2, lt_iff (isNaN_nearest _ _ _) hepsilon,
      place_nearest_lt_epsilon, ← and_assoc, and_iff_right hfinite]
  · rw [not_near_of_nonfinite hfinite, ← and_assoc]
    simp [hfinite]

theorem near_comm (x y : Double) : x.near y = y.near x := by
  rw [Bool.eq_iff_iff, near_iff, near_iff, ← Int.natAbs_neg, Int.neg_sub]
  exact and_left_comm

/-- Doubles at one place are near each other, unless they are infinite. -/
theorem near_of_place_eq {x y : Double} (hx : x.isFinite) (hy : y.isFinite)
    (h : x.place = y.place) : x.near y := by
  refine near_iff.mpr ⟨hx, hy, ?_⟩
  rw [h, Int.sub_self, Int.natAbs_zero, nearestUnits_of_fits fits_zero]
  exact epsilonUnits_pos

theorem near_self (x : Double) : x.near x = x.isFinite := by
  rw [Bool.eq_iff_iff]
  exact ⟨fun h => (near_iff.mp h).1, fun h => near_of_place_eq h h rfl⟩

/-- Near doubles are closer than epsilon before rounding, too. -/
theorem distance_lt_of_near {x y : Double} (h : x.near y) :
    (x.place - y.place).natAbs < epsilonUnits := by
  refine Nat.lt_of_not_le fun hle => ?_
  have hround := nearestUnits_mono hle
  have hnear := (near_iff.mp h).2.2
  rw [nearestUnits_epsilonUnits] at hround
  omega

/-! ## Doubles that differ -/

/-- From one upwards, the units of a double are a multiple of epsilon. -/
theorem epsilonUnits_dvd_place {x : Double} (hx : x.isFinite)
    (h : unitsPerOne ≤ x.place.natAbs) : (epsilonUnits : Int) ∣ x.place := by
  cases x with
  | nan | infinity => cases hx
  | finite negative units fits =>
    have habs : (finite negative units fits).place.natAbs = units := by
      cases negative <;> simp [place, signedUnits]
    rw [habs] at h
    have hlog : unitExponent ≤ units.log2 := by
      unfold unitsPerOne at h
      exact le_log2_of_pow_two_le h
    have hexcess : epsilonExponent ≤ excessBits units := by
      have hexponents : epsilonExponent + 52 = unitExponent := rfl
      unfold excessBits
      omega
    have hdvd : epsilonUnits ∣ units := by
      unfold epsilonUnits
      exact Nat.dvd_trans (pow_two_dvd hexcess) fits.1
    cases negative with
    | false => exact Int.natCast_dvd_natCast.mpr hdvd
    | true => exact Int.dvd_neg.mpr (Int.natCast_dvd_natCast.mpr hdvd)

theorem epsilonUnits_dvd_unitsPerOne : epsilonUnits ∣ unitsPerOne := by
  have hexponents : epsilonExponent ≤ unitExponent := by decide
  unfold epsilonUnits unitsPerOne
  exact pow_two_dvd hexponents

theorem eq_of_dvd_of_close {a b e : Int} (ha : e ∣ a) (hb : e ∣ b) (h : (a - b).natAbs < e) :
    a = b := by
  have hzero := Int.eq_zero_of_dvd_of_natAbs_lt_natAbs (Int.dvd_sub ha hb) (by omega)
  omega

/-- Doubles that differ although they are near each other are at most one in magnitude. -/
theorem place_le_of_near {x y : Double} (h : x.near y) (hne : x.place ≠ y.place) :
    x.place.natAbs ≤ unitsPerOne := by
  obtain ⟨hx, hy, -⟩ := near_iff.mp h
  have hclose := distance_lt_of_near h
  refine Nat.le_of_not_lt fun hlarge => hne ?_
  have hxdvd := epsilonUnits_dvd_place hx (Nat.le_of_lt hlarge)
  by_cases hylarge : unitsPerOne ≤ y.place.natAbs
  · exact eq_of_dvd_of_close hxdvd (epsilonUnits_dvd_place hy hylarge) (by omega)
  · -- the first is at least one epsilon beyond one, and the other is below one
    have hstep : unitsPerOne + epsilonUnits ≤ x.place.natAbs := by
      have hdvd : epsilonUnits ∣ x.place.natAbs :=
        Int.natCast_dvd_natCast.mp (Int.dvd_natAbs.mpr hxdvd)
      have hrest := Nat.le_of_dvd (Nat.sub_pos_of_lt hlarge)
        (Nat.dvd_sub hdvd epsilonUnits_dvd_unitsPerOne)
      omega
    omega

/-- So if three doubles are each near the next and do not all stand at one place, all of them are at
most one in magnitude. -/
theorem places_le_of_near {x y z : Double} (hxy : x.near y) (hyz : y.near z)
    (hne : ¬(x.place = y.place ∧ y.place = z.place)) :
    x.place.natAbs ≤ unitsPerOne ∧ y.place.natAbs ≤ unitsPerOne ∧ z.place.natAbs ≤ unitsPerOne := by
  have hyx : y.near x := near_comm x y ▸ hxy
  have hzy : z.near y := near_comm y z ▸ hyz
  by_cases hfirst : x.place = y.place
  · have hlast : y.place ≠ z.place := fun hlast => hne ⟨hfirst, hlast⟩
    have hy := place_le_of_near hyz hlast
    exact ⟨hfirst ▸ hy, hy, place_le_of_near hzy hlast.symm⟩
  · have hy := place_le_of_near hyx (Ne.symm hfirst)
    refine ⟨place_le_of_near hxy hfirst, hy, ?_⟩
    by_cases hlast : y.place = z.place
    · exact hlast ▸ hy
    · exact place_le_of_near hzy (Ne.symm hlast)

end Double

end CrmEmulator
