import CrmEmulator.Proofs.Double.Nearness
import CrmEmulator.Proofs.Json.Equality
import CrmEmulator.Proofs.Value.Order

/-!
# CrmEmulator.Proofs.Value.Equality — how far the equality of values is an equivalence

Two integers are equal exactly; a double equals what is less than epsilon away from it.

1. A value equals itself unless it is an infinite double, and equality is symmetric.
2. Values that are equal are of one kind.  A chain of equal values that are not numbers does not go
   wrong.
3. A chain of numbers goes wrong in two ways only: two integers are rounded to the double between
   them (`Merges`), or three numbers from minus one to one stand less than epsilon apart, but the
   ends do not (`Drifts`).
-/

namespace CrmEmulator

namespace Value

/-! ## Reflexivity and symmetry -/

/-- Is the document in a value proper?  Scalars always are. -/
def Proper : Value → Prop
  | .json doc => doc.Proper
  | _ => True

/-- A proper document is held as a proper value. -/
theorem proper_ofJson {doc : Json} (h : doc.Proper) : (ofJson doc).Proper := by
  cases doc with
  | int n =>
    rw [ofJson]
    split <;> trivial
  | null | bool | double | str => trivial
  | arr | obj => exact h

def isInfinite : Value → Bool
  | .double (.infinity _) => true
  | _ => false

/-- A proper value equals itself, unless it is infinite. -/
theorem same_self {v : Value} (h : v.Proper) : v.same v = !v.isInfinite := by
  cases v with
  | null => rfl
  | integer | text | boolean => exact beq_self_eq_true _
  | json doc => exact Json.same_refl h
  | double x =>
    rw [same, Double.near_self]
    cases x <;> rfl

/-- Equality of proper values does not depend on their order. -/
theorem same_comm {a b : Value} (ha : a.Proper) (hb : b.Proper) : a.same b = b.same a := by
  cases a <;> cases b <;> simp only [same]
  case integer.integer | text.text | boolean.boolean => exact Bool.beq_comm
  case double.double => rw [Double.near_comm, Bool.and_comm]
  case json.json =>
    rw [Bool.eq_iff_iff]
    exact ⟨Json.same_symm ha hb, Json.same_symm hb ha⟩

/-! ## Kinds -/

theorem isNumeric_of_same {a b : Value} (h : a.same b) : a.isNumeric = b.isNumeric := by
  cases a <;> cases b <;> first | rfl | cases h

/-- A chain of equal values that are not numbers does not go wrong. -/
theorem same_trans_of_not_numeric {a b c : Value} (h : a.Proper) (ha : a.isNumeric = false)
    (hab : a.same b) (hbc : b.same c) : a.same c := by
  cases a with
  | integer | double => cases ha
  | null | text | boolean =>
    cases b <;> first
      | exact hbc
      | cases hab
      | exact beq_iff_eq.mp hab ▸ hbc
  | json doc =>
    cases b with
    | json =>
      cases c with
      | json => exact Json.same_trans h hab hbc
      | _ => cases hbc
    | _ => cases hab

/-! ## Numbers -/

/-- The double that a number stands for: an integer is rounded. -/
def rounded : Value → Double
  | .integer n => Double.ofInt n.toInt
  | .double x => x
  | _ => .nan

theorem place_eq {v : Value} (h : v.isNumeric) : v.place = v.rounded.place := by
  cases v with
  | integer | double => rfl
  | null | text | boolean | json => cases h

theorem rounded_integer (n : Int64) : (integer n).rounded = Double.ofInt n.toInt := rfl

theorem rounded_double (x : Double) : (double x).rounded = x := rfl

/-- Numbers are equal when their doubles are near each other, except for two integers. -/
theorem same_numbers {a b : Value} (ha : a.isNumeric) (hb : b.isNumeric) :
    (∃ m n, a = .integer m ∧ b = .integer n) ∨
      a.same b = (a.rounded.isNaN && b.rounded.isNaN || a.rounded.near b.rounded) := by
  cases a with
  | integer m =>
    cases b with
    | integer n => exact .inl ⟨m, n, rfl, rfl⟩
    | double y =>
      exact .inr (by rw [same, rounded_integer, Double.isNaN_ofInt, Bool.false_and, Bool.false_or,
        rounded_double])
    | null | text | boolean | json => cases hb
  | double x =>
    cases b with
    | integer n =>
      exact .inr (by rw [same, rounded_integer, Double.isNaN_ofInt, Bool.and_false, Bool.false_or,
        rounded_double, Double.near_comm])
    | double y => exact .inr rfl
    | null | text | boolean | json => cases hb
  | null | text | boolean | json => cases ha

theorem same_integer {m n : Int64} : (integer m).same (.integer n) ↔ m = n := beq_iff_eq

/-- Equal numbers are one integer, or both missing, or near each other. -/
inductive Agree : Value → Value → Prop
  | integer (n : Int64) : Agree (.integer n) (.integer n)
  | missing : Agree (.double .nan) (.double .nan)
  | close {a b : Value} (h : a.rounded.near b.rounded) : Agree a b

/-- Only the missing number is rounded to a missing number. -/
theorem eq_missing_of_isNaN {v : Value} (hv : v.isNumeric) (h : v.rounded.isNaN) :
    v = .double .nan := by
  cases v with
  | integer n =>
    rw [rounded_integer, Double.isNaN_ofInt] at h
    cases h
  | double x => exact congrArg Value.double (Double.eq_nan_of_isNaN h)
  | null | text | boolean | json => cases hv

/-- Equal numbers agree in one of the ways that are listed. -/
theorem agree_of_same {a b : Value} (ha : a.isNumeric) (h : a.same b) : Agree a b := by
  have hb : b.isNumeric := isNumeric_of_same h ▸ ha
  rcases same_numbers ha hb with ⟨m, n, rfl, rfl⟩ | hsame
  · rw [same_integer.mp h]
    exact .integer n
  · rw [hsame, Bool.or_eq_true, Bool.and_eq_true] at h
    rcases h with ⟨hnan, hnan'⟩ | hnear
    · rw [eq_missing_of_isNaN ha hnan, eq_missing_of_isNaN hb hnan']
      exact .missing
    · exact .close hnear

/-! ## Chains -/

/-- A double between two different integers that are both rounded to it. -/
inductive Merges : Value → Value → Value → Prop
  | intro {m n : Int64} {x : Double} (differ : m ≠ n) (alike : RoundAlike m n)
      (between : (Double.ofInt m.toInt).eq x) : Merges (.integer m) (.double x) (.integer n)

/-- A number from minus one to one. -/
def IsSmall (v : Value) : Prop := v.isNumeric ∧ v.place.natAbs ≤ Double.unitsPerOne

/-- Three small numbers of which each equals the next, but the first does not equal the last. -/
structure Drifts (a b c : Value) : Prop where
  small : a.IsSmall ∧ b.IsSmall ∧ c.IsSmall
  first : a.same b
  last : b.same c
  ends : a.same c = false

/-- Close numbers at one place are equal, unless they are two integers. -/
theorem merges_of_places {a b c : Value} (ha : a.isNumeric) (hb : b.isNumeric) (hc : c.isNumeric)
    (hab : a.same b) (hbc : b.same c) (hac : a.same c = false)
    (hclose : a.rounded.near b.rounded) (hclose' : b.rounded.near c.rounded)
    (hfirst : a.rounded.place = b.rounded.place) (hlast : b.rounded.place = c.rounded.place) :
    Merges a b c := by
  obtain ⟨hfinite, hbetween, -⟩ := Double.near_iff.mp hclose
  obtain ⟨-, hfinite', -⟩ := Double.near_iff.mp hclose'
  rcases same_numbers ha hc with ⟨m, n, rfl, rfl⟩ | hsame
  · have hne : m ≠ n := by
      rintro rfl
      rw [same_integer.mpr rfl] at hac
      cases hac
    cases b with
    | integer k => exact absurd ((same_integer.mp hab).trans (same_integer.mp hbc)) hne
    | double x =>
      have hx := Double.isNaN_of_isFinite hbetween
      exact .intro hne (roundAlike_iff.mpr (hfirst.trans hlast))
        ((Double.eq_iff (Double.isNaN_ofInt _) hx).mpr hfirst)
    | null | text | boolean | json => cases hb
  · have hends := Double.near_of_place_eq hfinite hfinite' (hfirst.trans hlast)
    rw [hsame, hends, Bool.or_true] at hac
    cases hac

/-- A chain of numbers that are near each other goes wrong in the two ways only. -/
theorem merges_or_drifts_of_close {a b c : Value} (ha : a.isNumeric) (hab : a.same b)
    (hbc : b.same c) (hac : a.same c = false) (hclose : a.rounded.near b.rounded)
    (hclose' : b.rounded.near c.rounded) : Merges a b c ∨ Drifts a b c := by
  have hb : b.isNumeric := isNumeric_of_same hab ▸ ha
  have hc : c.isNumeric := isNumeric_of_same hbc ▸ hb
  by_cases hplaces : a.rounded.place = b.rounded.place ∧ b.rounded.place = c.rounded.place
  · exact .inl (merges_of_places ha hb hc hab hbc hac hclose hclose' hplaces.1 hplaces.2)
  · -- doubles that differ and are close are small, and the third is close to one of them
    obtain ⟨hsmall, hsmall', hsmall''⟩ := Double.places_le_of_near hclose hclose' hplaces
    rw [← place_eq ha] at hsmall
    rw [← place_eq hb] at hsmall'
    rw [← place_eq hc] at hsmall''
    exact .inr ⟨⟨⟨ha, hsmall⟩, ⟨hb, hsmall'⟩, ⟨hc, hsmall''⟩⟩, hab, hbc, hac⟩

/-- A chain of equal values goes wrong in the two ways only. -/
theorem merges_or_drifts {a b c : Value} (h : a.Proper) (hab : a.same b) (hbc : b.same c)
    (hac : a.same c = false) : Merges a b c ∨ Drifts a b c := by
  cases ha : a.isNumeric with
  | false =>
    rw [same_trans_of_not_numeric h ha hab hbc] at hac
    cases hac
  | true =>
    have hb : b.isNumeric := isNumeric_of_same hab ▸ ha
    -- a step between integers or missing numbers changes nothing, so both steps are close
    cases agree_of_same ha hab with
    | integer n | missing =>
      rw [hbc] at hac
      cases hac
    | close hclose =>
      cases agree_of_same hb hbc with
      | integer n | missing =>
        rw [hab] at hac
        cases hac
      | close hclose' => exact merges_or_drifts_of_close ha hab hbc hac hclose hclose'

/-- An integer is rounded to a finite double. -/
theorem isFinite_rounded_integer (n : Int64) : (integer n).rounded.isFinite := by
  have hlow := Int64.le_toInt n
  have hhigh := Int64.toInt_lt n
  have hbits : Nat.pow 2 64 = 18446744073709551616 := rfl
  exact Double.isFinite_ofInt (by omega)

/-- In a merging chain each equals the next, and the ends differ. -/
theorem Merges.chain {a b c : Value} (h : Merges a b c) :
    a.same b ∧ b.same c ∧ a.same c = false := by
  obtain ⟨hne, halike, hbetween⟩ := h
  next m n x =>
  have hm := isFinite_rounded_integer m
  have hn := isFinite_rounded_integer n
  rw [rounded_integer] at hm hn
  have hx := Double.isFinite_of_eq hm hbetween
  have hfirst := (Double.eq_iff (Double.isNaN_ofInt _) (Double.isNaN_of_eq hbetween)).mp hbetween
  have hends := roundAlike_iff.mp halike
  rw [place_integer, place_integer] at hends
  refine ⟨?_, ?_, beq_false_of_ne hne⟩
  · rw [same]
    exact Double.near_of_place_eq hm hx hfirst
  · rw [same]
    exact Double.near_of_place_eq hn hx (hends.symm.trans hfirst)

/-- The integers that merge are not both small enough to be doubles. -/
theorem Merges.beyond {m n : Int64} {b : Value} (h : Merges (.integer m) b (.integer n)) :
    Double.exactBound < m.toInt.natAbs ∨ Double.exactBound < n.toInt.natAbs := by
  obtain ⟨hne, halike, -⟩ := h
  exact halike.beyond hne

theorem Merges.double_between {a b c : Value} (h : Merges a b c) : ∃ x, b = .double x := by
  cases h
  exact ⟨_, rfl⟩

/-- Integers do not drift. -/
theorem Drifts.exists_double {a b c : Value} (h : Drifts a b c) :
    ∃ x, a = .double x ∨ b = .double x ∨ c = .double x := by
  obtain ⟨⟨⟨ha, -⟩, ⟨hb, -⟩, -⟩, hab, hbc, hac⟩ := h
  cases a with
  | double x => exact ⟨x, .inl rfl⟩
  | integer m =>
    cases b with
    | double x => exact ⟨x, .inr (.inl rfl)⟩
    | integer k =>
      rw [same_integer.mp hab, hbc] at hac
      cases hac
    | null | text | boolean | json => cases hb
  | null | text | boolean | json => cases ha

/-- Equal values make a chain whose ends are not equal in the two ways only. -/
theorem chain_iff {a b c : Value} (h : a.Proper) :
    (a.same b ∧ b.same c ∧ a.same c = false) ↔ Merges a b c ∨ Drifts a b c := by
  constructor
  · rintro ⟨hab, hbc, hac⟩
    exact merges_or_drifts h hab hbc hac
  · rintro (hmerges | hdrifts)
    · exact hmerges.chain
    · exact ⟨hdrifts.first, hdrifts.last, hdrifts.ends⟩

/-- But for merging and drifting chains, equality of values is transitive. -/
theorem same_trans {a b c : Value} (h : a.Proper) (hmerges : ¬Merges a b c)
    (hdrifts : ¬Drifts a b c) (hab : a.same b) (hbc : b.same c) : a.same c := by
  cases hac : a.same c with
  | true => rfl
  | false => exact ((merges_or_drifts h hab hbc hac).elim hmerges hdrifts).elim

end Value

end CrmEmulator
