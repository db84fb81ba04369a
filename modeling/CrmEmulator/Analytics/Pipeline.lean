import CrmEmulator.Saql.Reader
import CrmEmulator.Query.Filter

/-!
# CrmEmulator.Analytics.Pipeline — running programs over rows

1. Tests, aggregates and projections of rows.  Only adding up integers can break the work off.
2. `groupRows`: groups in the order of their first rows, by equality of the key values.
3. `Saql.Step.apply`: what a step makes of a stream; only a `foreach` takes groups.
4. `Saql.Program.run`: the steps one after the other.
-/

namespace CrmEmulator

open Saql

/-! ## Tests -/

/-- Equality of a test: numbers by size, texts and truth values exactly; values of different kinds
are never equal. -/
def Value.testEqual (actual expected : Value) : Bool :=
  if actual.isNumeric && expected.isNumeric then actual.compare expected == .eq
  else match actual, expected with
    | .text a, .text b => a == b
    | .boolean a, .boolean b => a == b
    | _, _ => false

/-- An ordering operator on the outcome of a comparison. -/
def CompareOp.holdsFor : CompareOp → Ordering → Bool
  | .gt, o => o == .gt
  | .ge, o => o != .lt
  | .lt, o => o == .lt
  | _, o => o != .gt

/-- Does a row pass a test?  A row without the field passes none, and the ordering operators apply
to numbers only. -/
def Saql.Test.holds (t : Test) (row : Record) : Bool :=
  let actual := row.getOrNull t.field
  if actual.isNull then false
  else match t.op with
    | .eq => actual.testEqual t.value
    | .ne => !actual.testEqual t.value
    | op => actual.isNumeric && t.value.isNumeric && op.holdsFor (actual.compare t.value)

/-! ## Aggregates -/

/-- The values of a field that are there and not null. -/
def presentValues (field : Option String) (rows : List Record) : List Value :=
  match field with
  | some name => (rows.filterMap (·.get? name)).filter fun v => !v.isNull
  | none => []

/-- The sum of doubles from left to right. -/
def sumDoubles (xs : List Double) : Double := xs.foldl (· + ·) (Double.zero true)

/-- The sum of two 64-bit integers; one that is out of their range breaks the work off. -/
def addIntegers (a b : Int64) : Except Halt Int64 :=
  let sum := a.toInt + b.toInt
  if Numeral.inInt64 sum then .ok (Int64.ofInt sum) else .error .overflow

/-- The sum of 64-bit integers from left to right. -/
def sumIntegers (ns : List Int64) : Except Halt Int64 := ns.foldlM addIntegers 0

def Value.integer? : Value → Option Int64
  | .integer n => some n
  | _ => none

/-- The sum of the numbers among values: an integer if all of them are. -/
def sumOf (values : List Value) : Except Halt Value :=
  let numbers := values.filter Value.isNumeric
  if numbers.all fun v => v.integer?.isSome then
    .integer <$> sumIntegers (numbers.filterMap Value.integer?)
  else .ok (.double (sumDoubles (numbers.filterMap Value.coerceNumber?)))

/-- The mean of the values that are numbers or read as numbers. -/
def meanOf (values : List Value) : Value :=
  let numbers := values.filterMap Value.coerceNumber?
  if numbers.isEmpty then .null else .double (sumDoubles numbers / Double.ofInt numbers.length)

/-- The first of the least values. -/
def leastOf : List Value → Value
  | [] => .null
  | v :: vs => vs.foldl (fun best v => if best.compare v = .gt then v else best) v

/-- The last of the greatest values. -/
def greatestOf : List Value → Value
  | [] => .null
  | v :: vs => vs.foldl (fun best v => if best.compare v = .gt then best else v) v

/-- An aggregate of a field over rows; counting looks at the rows themselves. -/
def Saql.Aggregate.apply (function : Aggregate) (field : Option String) (rows : List Record) :
    Except Halt Value :=
  match function with
  | .count => .ok (.integer (Int64.ofNat rows.length))
  | .sum => sumOf (presentValues field rows)
  | .avg => .ok (meanOf (presentValues field rows))
  | .min => .ok (leastOf (presentValues field rows))
  | .max => .ok (greatestOf (presentValues field rows))

/-! ## Projections -/

/-- What a column holds for a group: a field is taken from the key, or else from the first row. -/
def Saql.Column.value? (key : Record) (rows : List Record) : Column → Except Halt (Option Value)
  | .field name => .ok ((key.get? name).or (rows.head?.bind (·.get? name)))
  | .aggregate function source => some <$> function.apply source rows

/-- What an item adds to the output row of a group; what is missing is left out. -/
def Saql.Item.field? (key : Record) (rows : List Record) (item : Item) :
    Except Halt (Option (String × Value)) :=
  (·.map (item.name, ·)) <$> item.column.value? key rows

/-- The output row of a group. -/
def projectGroup (items : List Item) (key : Record) (rows : List Record) : Except Halt Record := do
  let fields ← items.mapM (·.field? key rows)
  return .ofFields (fields.filterMap id)

def Saql.Column.isAggregate : Column → Bool
  | .aggregate .. => true
  | .field _ => false

/-- The output rows of a stream that is not grouped; an aggregate makes one group of all rows. -/
def projectRows (items : List Item) (rows : List Record) : Except Halt (List Record) :=
  if items.any (·.column.isAggregate) then ([·]) <$> projectGroup items .empty rows
  else rows.mapM fun row => projectGroup items row []

/-! ## Groups -/

/-- Rows with equal values in the fields of the key. -/
structure RowGroup where
  key : Record
  rows : List Record
deriving DecidableEq

/-- The key of a row; a missing field counts as null. -/
def keyOf (fields : List String) (row : Record) : Record :=
  .ofFields (fields.map fun name => (name, row.getOrNull name))

/-- Add a row to the first group with its key, or make a new group. -/
def addToGroup (key row : Record) : List RowGroup → List RowGroup
  | [] => [⟨key, [row]⟩]
  | g :: rest =>
    if g.key.same key then { g with rows := g.rows ++ [row] } :: rest
    else g :: addToGroup key row rest

/-- The groups of rows in the order of their first rows.  Grouping nothing by no fields still makes
one group. -/
def groupRows (fields : List String) (rows : List Record) : List RowGroup :=
  let groups := rows.foldl (fun groups row => addToGroup (keyOf fields row) row groups) []
  if fields.isEmpty && groups.isEmpty then [⟨.empty, []⟩] else groups

/-! ## Steps -/

/-- What flows between steps. -/
inductive Stream
  | rows (rows : List Record)
  | groups (groups : List RowGroup)
deriving DecidableEq

/-- The rows of a stream; groups need a `foreach` first. -/
def Stream.toRows (stepName : String) : Stream → Except Halt (List Record)
  | .rows rs => .ok rs
  | .groups _ => .error (.failure (.malformedQuery (stepName ++ " needs a foreach after group")))

/-- Sort by several fields: stable sorts by one field each, the last key first. -/
def sortByKeys (keys : List (String × SortDirection)) (rows : List Record) : List Record :=
  keys.foldr (fun (field, direction) rows =>
    stableSort (OrderBy.compare ⟨field, direction, .last⟩) rows) rows

/-- What a step makes of a stream. -/
def Saql.Step.apply (step : Step) (stream : Stream) : Except Halt Stream :=
  match step with
  | .filter tests => do
    let rows ← stream.toRows "filter"
    return .rows (rows.filter fun row => tests.all (·.holds row))
  | .group fields => do
    return .groups (groupRows fields (← stream.toRows "group"))
  | .generate items =>
    match stream with
    | .rows rows => .rows <$> projectRows items rows
    | .groups groups => .rows <$> groups.mapM fun g => projectGroup items g.key g.rows
  | .order keys => do
    return .rows (sortByKeys keys (← stream.toRows "order"))
  | .limit n => do
    return .rows ((← stream.toRows "limit").take n)

/-- The rows that steps make of rows, one step after the other. -/
def runSteps (steps : List Step) (rows : List Record) : Except Halt (List Record) := do
  let stream ← steps.foldlM (fun stream step => step.apply stream) (Stream.rows rows)
  stream.toRows "the query result"

/-- The rows that a program makes of the rows of its dataset. -/
def Saql.Program.run (p : Program) (rows : List Record) : Except Halt (List Record) :=
  runSteps p.steps rows

/-! ## Metadata -/

/-- Name and kind of every column of the first row. -/
def columnsJson (rows : List Record) : Json :=
  match rows with
  | [] => .arr []
  | row :: _ => .arr (row.fields.map fun (name, v) =>
      .obj [("lineageId", .str name), ("type", .str (if v.isNumeric then "numeric" else "string"))])

end CrmEmulator
