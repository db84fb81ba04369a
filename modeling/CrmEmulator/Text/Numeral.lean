/-!
# CrmEmulator.Text.Numeral — whole numbers written in decimal

Numbers in queries, cells and addresses are ASCII digits with an optional sign.  `digits?` reads
a run of digits, `int64?` a signed 64-bit integer and `count?` an unsigned one; a numeral outside
its range is not read at all.
-/

namespace CrmEmulator

/-- The value of an ASCII digit. -/
def digitValue (c : Char) : Nat := c.toNat - '0'.toNat

/-- The number written by a list of digits, most significant first. -/
def digitsValue (cs : List Char) : Nat := cs.foldl (fun n c => 10 * n + digitValue c) 0

namespace Numeral

/-- A non-empty run of ASCII digits. -/
def digits? (cs : List Char) : Option Nat :=
  if cs ≠ [] ∧ cs.all Char.isDigit then some (digitsValue cs) else none

/-- An integer with an optional sign. -/
def int? : List Char → Option Int
  | '+' :: cs => (digits? cs).map Int.ofNat
  | '-' :: cs => (digits? cs).map fun n => -(n : Int)
  | cs => (digits? cs).map Int.ofNat

/-- The first number that is too large for a signed 64-bit integer. -/
def int64Bound : Int := 9223372036854775808

/-- The range of signed 64-bit integers. -/
def inInt64 (n : Int) : Bool := -int64Bound ≤ n && n < int64Bound

/-- A signed 64-bit integer. -/
def int64? (cs : List Char) : Option Int64 :=
  (int? cs).bind fun n => if inInt64 n then some (Int64.ofInt n) else none

/-- A count: digits with an optional plus, below `2 ^ bits`. -/
def count? (bits : Nat) (cs : List Char) : Option Nat :=
  let read := match cs with
    | '+' :: rest => digits? rest
    | _ => digits? cs
  read.filter (· < Nat.pow 2 bits)

end Numeral

end CrmEmulator
