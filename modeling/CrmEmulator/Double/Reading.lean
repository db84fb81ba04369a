import CrmEmulator.Double.Basic
import CrmEmulator.Text.Numeral

/-!
# CrmEmulator.Double.Reading — doubles from text

`ofText?` reads the decimal grammar of free text: a sign, digits with an optional point, an
optional exponent, or the words for the infinities and for no number.  The result is the double
nearest to the decimal.

JSON documents are read with `ofScaled?` instead: at most 64 bits of digits count, and one
multiplication or division by a power of ten follows, so the last bit may differ from the nearest.
-/

namespace CrmEmulator.Double

/-! ## Free text -/

/-- The decimal exponent after an `e`. -/
def exponent? : List Char → Option Int
  | [] => some 0
  | c :: cs => if c = 'e' ∨ c = 'E' then Numeral.int? cs else none

/-- Digits, an optional point with more digits, an optional exponent. -/
def decimal? (negative : Bool) (cs : List Char) : Option Double :=
  let whole := cs.takeWhile Char.isDigit
  let rest := cs.dropWhile Char.isDigit
  let (places, rest) := match rest with
    | '.' :: rest => (rest.takeWhile Char.isDigit, rest.dropWhile Char.isDigit)
    | _ => ([], rest)
  if whole = [] ∧ places = [] then none
  else (exponent? rest).map fun e =>
    ofDecimal negative (digitsValue (whole ++ places)) (e - places.length)

/-- An unsigned number or one of the words, in any letter case. -/
def unsigned? (negative : Bool) (cs : List Char) : Option Double :=
  let word := cs.map Char.toLower
  if word = "inf".toList ∨ word = "infinity".toList then some (.infinity negative)
  else if word = "nan".toList then some .nan
  else decimal? negative cs

/-- A double from text. -/
def ofText? : List Char → Option Double
  | '+' :: cs => unsigned? false cs
  | '-' :: cs => unsigned? true cs
  | cs => unsigned? false cs

/-! ## JSON numbers -/

/-- A power of ten as a double. -/
def powerOfTen (n : Nat) : Double := ofDecimal false 1 n

/-- Divide by steps of `10 ^ 308` until the exponent is in the range of the powers of ten. -/
def scaleDown (x : Double) (exponent : Nat) : Nat → Double
  | 0 => x
  | fuel + 1 =>
    if exponent ≤ 308 then x / powerOfTen exponent
    else if x.eq (zero false) then x
    else scaleDown (x / powerOfTen 308) (exponent - 308) fuel

/-- `digits * 10 ^ exponent` by one rounding of the digits and one of the product or quotient;
none if the result would be infinite. -/
def ofScaled? (negative : Bool) (digits : Nat) (exponent : Int) : Option Double :=
  let x := nearest false (digits * unitsPerOne) 1
  let signed (y : Double) := if negative then -y else y
  if 0 ≤ exponent then
    if exponent ≤ 308 then
      let product := x * powerOfTen exponent.toNat
      if product.isFinite then some (signed product) else none
    else if digits = 0 then some (signed x) else none
  else some (signed (scaleDown x (-exponent).toNat 4))

end CrmEmulator.Double
