import CrmEmulator.Double.Shortest

/-!
# CrmEmulator.Double.Layout — doubles as text

Every place of the program that writes a double writes the shortest digits; the places differ in
where positional notation ends and in how an exponent looks.  A `Layout` states those choices, and
the four values below are the ones in use.
-/

namespace CrmEmulator.Double

/-- The choices that a text form of doubles makes. -/
structure Layout where
  /-- Exponents of the leading digit that are written positionally; none means all of them. -/
  positional : Option (Int × Int)
  /-- Is a whole number followed by `.0` in positional notation? -/
  pointZero : Bool
  /-- Is a positive exponent written with its sign? -/
  plusSign : Bool
  tie : Tie
deriving Repr, DecidableEq

namespace Layout

/-- Text coercion: exponents from `10 ^ 16` up and below `10 ^ (-4)`. -/
def coercion : Layout := ⟨some (-4, 15), true, false, .up⟩

/-- Plain display never uses an exponent. -/
def display : Layout := ⟨none, false, false, .up⟩

/-- JSON numbers: exponents from `10 ^ 16` up and below `10 ^ (-5)`, with a written plus. -/
def json : Layout := ⟨some (-5, 15), true, true, .even⟩

end Layout

def natText (n : Nat) : List Char := Nat.toDigits 10 n

def zeros (n : Nat) : List Char := List.replicate n '0'

/-- Decimal digits written without an exponent, given the exponent of the last digit. -/
def positionalText (pointZero : Bool) (digits : List Char) (exponent : Int) : List Char :=
  if 0 ≤ exponent then
    digits ++ zeros exponent.toNat ++ (if pointZero then ".0".toList else [])
  else
    let places := (-exponent).toNat
    if places < digits.length then
      digits.take (digits.length - places) ++ '.' :: digits.drop (digits.length - places)
    else "0.".toList ++ zeros (places - digits.length) ++ digits

/-- Decimal digits with one digit before the point and an exponent. -/
def scientificText (plusSign : Bool) (digits : List Char) (leading : Int) : List Char :=
  let sign := if leading < 0 then ['-'] else if plusSign then ['+'] else []
  digits.take 1 ++ (if digits.length ≤ 1 then [] else '.' :: digits.drop 1) ++
    'e' :: sign ++ natText leading.natAbs

/-- A magnitude of so many units, in the given layout. -/
def unitsText (layout : Layout) (units : Nat) : List Char :=
  if units = 0 then positionalText layout.pointZero ['0'] 0
  else
    let (digits, exponent) := shortest layout.tie units
    let digits := natText digits
    let leading := exponent + digits.length - 1
    match layout.positional with
    | none => positionalText layout.pointZero digits exponent
    | some (low, high) =>
      if low ≤ leading ∧ leading ≤ high then positionalText layout.pointZero digits exponent
      else scientificText layout.plusSign digits leading

def signText (negative : Bool) : List Char := if negative then ['-'] else []

/-- The text of a double in a layout. -/
def format (layout : Layout) : Double → String
  | .nan => "NaN"
  | .infinity negative => String.ofList (signText negative ++ "inf".toList)
  | .finite negative units _ => String.ofList (signText negative ++ unitsText layout units)

/-- The text of a double in a table cell: a whole number is written with all its digits and one
place, any other as it is displayed. -/
def cellText (x : Double) : String :=
  match x with
  | .finite negative units _ =>
    if units % unitsPerOne = 0 then
      String.ofList (signText negative ++ natText (units / unitsPerOne) ++ ".0".toList)
    else format .display x
  | _ => format .display x

end CrmEmulator.Double
