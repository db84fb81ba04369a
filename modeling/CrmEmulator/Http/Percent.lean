import CrmEmulator.Text.Basic
import CrmEmulator.Text.Utf8

/-!
# CrmEmulator.Http.Percent — percent-encoded text

A percent sign with two hexadecimal digits stands for a byte; any other percent sign stands for
itself.  In queries a plus stands for a blank.
-/

namespace CrmEmulator.Percent

/-- The value of a hexadecimal digit. -/
def hexValue? (c : Char) : Option Nat :=
  if c.isDigit then some (c.toNat - '0'.toNat)
  else if 'a' ≤ c ∧ c ≤ 'f' then some (c.toNat - 'a'.toNat + 10)
  else if 'A' ≤ c ∧ c ≤ 'F' then some (c.toNat - 'A'.toNat + 10)
  else none

/-- The byte of two hexadecimal digits. -/
def byte? (high low : Char) : Option UInt8 := do
  return (16 * (← hexValue? high) + (← hexValue? low)).toUInt8

/-- The bytes that a text stands for. -/
def bytes : List Char → List UInt8
  | '%' :: a :: b :: cs =>
    match byte? a b with
    | some x => x :: bytes cs
    | none => String.utf8EncodeChar '%' ++ bytes (a :: b :: cs)
  | c :: cs => String.utf8EncodeChar c ++ bytes cs
  | [] => []

/-- The text of a segment of a path, if its bytes make one. -/
def decode? (cs : List Char) : Option String := (Utf8.decode? (bytes cs)).map String.ofList

/-- The text of a name or value of a query; broken characters are replaced. -/
def decodeForm (cs : List Char) : String :=
  String.ofList (Utf8.decodeLenient (bytes (cs.map fun c => if c = '+' then ' ' else c)))

/-- The name and the value of a parameter, in their encoding; without an equal sign the value is
empty. -/
def splitParameter (piece : List Char) : List Char × List Char :=
  (cutAt? '=' piece).getD (piece, [])

/-- The parameters of a query in order. -/
def parameters (query : List Char) : List (String × String) :=
  ((splitAtChar '&' query).filter (· ≠ [])).map fun piece =>
    let (name, value) := splitParameter piece
    (decodeForm name, decodeForm value)

/-- The value of a parameter; the last one counts. -/
def parameter? (query : List Char) (name : String) : Option String :=
  ((parameters query).reverse.find? (·.1 = name)).map (·.2)

end CrmEmulator.Percent
