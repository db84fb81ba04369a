import CrmEmulator.Double.Basic

/-!
# CrmEmulator.Double.Shortest — the fewest decimal digits that read back

The reals that round to a double form an interval around it.  `shortest` looks for the coarsest
decimal grid that has a point in that interval, and takes the point nearest to the double.
-/

namespace CrmEmulator.Double

/-- Which of two equally near decimal points is written. -/
inductive Tie
  | up
  | even
deriving Repr, DecidableEq

/-- The interval of reals that round to `units`, in quarters of a unit; its ends belong to it when
the significand is even. -/
structure Window where
  low : Nat
  high : Nat
  closed : Bool
deriving Repr, DecidableEq

/-- Below a power of two the doubles lie twice as dense, so that side of the window is half as
wide. -/
def window (units : Nat) : Window :=
  let step := spacing units
  let below := if units = Nat.pow 2 units.log2 ∧ 53 ≤ units.log2 then step else 2 * step
  ⟨4 * units - below, 4 * units + 2 * step, (units / step) % 2 == 0⟩

/-- Does the point `num / den` (in units) lie in the window? -/
def Window.contains (w : Window) (num den : Nat) : Bool :=
  if w.closed then w.low * den ≤ 4 * num && 4 * num ≤ w.high * den
  else w.low * den < 4 * num && 4 * num < w.high * den

/-- The units in `10 ^ exponent`, as a quotient. -/
def gridStep (exponent : Int) : Nat × Nat :=
  if 0 ≤ exponent then (Nat.pow 10 exponent.toNat * unitsPerOne, 1)
  else (unitsPerOne, Nat.pow 10 (-exponent).toNat)

/-- The multiple of `10 ^ exponent` that lies in the window and is nearest to `units`. -/
def gridPoint? (tie : Tie) (units : Nat) (exponent : Int) : Option Nat :=
  let w := window units
  let (num, den) := gridStep exponent
  let below := units * den / num
  let above := below + 1
  match w.contains (below * num) den, w.contains (above * num) den with
  | false, false => none
  | true, false => some below
  | false, true => some above
  | true, true =>
    let twice := 2 * (units * den % num)
    if twice < num then some below
    else if num < twice then some above
    else match tie with
      | .up => some above
      | .even => some (if below % 2 = 0 then below else above)

/-- Look through ever finer grids for the first with a point in the window. -/
def firstGrid (tie : Tie) (units : Nat) : Nat → Int → Nat × Int
  | 0, exponent => (units / unitsPerOne, exponent)
  | fuel + 1, exponent =>
    match gridPoint? tie units exponent with
    | some digits => (digits, exponent)
    | none => firstGrid tie units fuel (exponent - 1)

/-- A decimal exponent above that of a count of units: a bit is worth at most `0.30103` digits. -/
def exponentAbove (units : Nat) : Int := ((units.log2 : Int) + 1 - 1074) * 30103 / 100000 + 1

/-- Digits and exponent of the shortest decimal that reads back as a positive count of units.  Of
the twenty grids tried the last is finer than the window of any double. -/
def shortest (tie : Tie) (units : Nat) : Nat × Int :=
  firstGrid tie units 21 (exponentAbove units)

end CrmEmulator.Double
