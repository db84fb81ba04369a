import CrmEmulator.Json.Basic
import CrmEmulator.Double.Reading
import CrmEmulator.Text.Basic

/-!
# CrmEmulator.Value — values of record fields

A field holds a scalar, or any other JSON document as it was sent.

1. `Value` and its shape.
2. Coercions: to text for equality tests, to a number for comparisons, to a table cell.
3. `same`, the equality of grouping, and `compare`, the order of sorting.
4. Passage from and to JSON.
-/

namespace CrmEmulator

/-- The value of a record field. -/
inductive Value
  | null
  | integer (value : Int64)
  | double (value : Double)
  | text (value : String)
  | boolean (value : Bool)
  | json (document : Json)
deriving DecidableEq

namespace Value

instance : Inhabited Value := ⟨.null⟩

/-! ## Shape -/

def typeName : Value → String
  | .null => "null"
  | .integer _ => "integer"
  | .double _ => "double"
  | .text _ => "string"
  | .boolean _ => "boolean"
  | .json _ => "json"

def isNull : Value → Bool
  | .null => true
  | _ => false

/-- Null or the empty text: the two shapes of a missing required field. -/
def isBlank : Value → Bool
  | .null => true
  | .text s => s.isEmpty
  | _ => false

def isNumeric : Value → Bool
  | .integer _ | .double _ => true
  | _ => false

def text? : Value → Option String
  | .text s => some s
  | _ => none

/-! ## Coercions -/

def int64Text (n : Int64) : String := toString n.toInt

def boolText (b : Bool) : String := if b then "true" else "false"

/-- The text that equality tests compare.  A double keeps its point, so it never equals the text
of an integer. -/
def coerceText : Value → String
  | .null => "null"
  | .integer n => int64Text n
  | .double x => x.format .coercion
  | .text s => s
  | .boolean b => boolText b
  | .json doc => doc.compact

/-- The number that ordering tests compare; text is read as a number if it is one. -/
def coerceNumber? : Value → Option Double
  | .integer n => some (Double.ofInt n.toInt)
  | .double x => some x
  | .text s => Double.ofText? (trim s.toList)
  | _ => none

/-- The text in a table cell; null is the empty cell. -/
def cellText : Value → String
  | .null => ""
  | .double x => x.cellText
  | v => v.coerceText

/-- The text in messages and searches. -/
def displayText : Value → String
  | .double x => x.format .display
  | v => v.coerceText

/-! ## Equality -/

/-- Equality of values: numbers agree when they are less than `Double.epsilon` apart, and a missing
number equals a missing number. -/
def same : Value → Value → Bool
  | .null, .null => true
  | .integer a, .integer b => a == b
  | .double a, .double b => (a.isNaN && b.isNaN) || a.near b
  | .text a, .text b => a == b
  | .boolean a, .boolean b => a == b
  | .integer a, .double b => (Double.ofInt a.toInt).near b
  | .double a, .integer b => (Double.ofInt b.toInt).near a
  | .json a, .json b => a.same b
  | _, _ => false

/-! ## Order -/

/-- Numbers in ascending order, a missing number last. -/
def compareNumbers (a b : Double) : Ordering :=
  match a.isNaN, b.isNaN with
  | true, true => .eq
  | true, false => .gt
  | false, true => .lt
  | false, false => (a.order? b).getD .eq

/-- The rank of a value's kind among values of different kinds. -/
def rank : Value → Nat
  | .null => 0
  | .boolean _ => 1
  | .integer _ | .double _ => 2
  | .text _ => 3
  | .json _ => 4

/-- The order of sorting: values of one kind by content, numbers of both kinds by size, all others
by the rank of their kind. -/
def compare : Value → Value → Ordering
  | .integer a, .integer b => Ord.compare a b
  | .integer a, .double b => compareNumbers (Double.ofInt a.toInt) b
  | .double a, .integer b => compareNumbers a (Double.ofInt b.toInt)
  | .double a, .double b => compareNumbers a b
  | .text a, .text b => Ord.compare a b
  | .boolean a, .boolean b => Ord.compare a b
  | .json a, .json b => Ord.compare a.compact b.compact
  | a, b => Ord.compare a.rank b.rank

/-! ## JSON -/

/-- The document of a value; a double that is not finite becomes null. -/
def toJson : Value → Json
  | .null => .null
  | .integer n => .int n.toInt
  | .double x => .ofDouble x
  | .text s => .str s
  | .boolean b => .bool b
  | .json doc => doc

/-- The value of a document: whole numbers beyond 64 signed bits become doubles, containers are
kept as they are. -/
def ofJson : Json → Value
  | .null => .null
  | .bool b => .boolean b
  | .int n => if Numeral.inInt64 n then .integer (Int64.ofInt n) else .double (Double.ofInt n)
  | .double x => .double x
  | .str s => .text s
  | doc => .json doc

end Value

end CrmEmulator
