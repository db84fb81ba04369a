import CrmEmulator.Query.Soql

/-!
# CrmEmulator.Saql.Basic — programs of the analytics language

A program is a sequence of statements.  The first loads a dataset, every other one assigns to a
stream what a step makes of a stream that an earlier statement assigned.
-/

namespace CrmEmulator.Saql

/-- A function over the rows of a group. -/
inductive Aggregate
  | count
  | sum
  | avg
  | min
  | max
deriving Repr, DecidableEq

namespace Aggregate

def name : Aggregate → String
  | count => "count"
  | sum => "sum"
  | avg => "avg"
  | min => "min"
  | max => "max"

/-- The function with a name, in any case of ASCII letters. -/
def ofName? (written : String) : Option Aggregate :=
  match String.ofList (written.toList.map Char.toLower) with
  | "count" => some count
  | "sum" => some sum
  | "avg" | "average" => some avg
  | "min" => some min
  | "max" => some max
  | _ => none

end Aggregate

/-- A test of a field against a value. -/
structure Test where
  field : String
  op : CompareOp
  value : Value
deriving DecidableEq

/-- What a column of the output holds. -/
inductive Column
  | field (name : String)
  /-- Only counting does without a field. -/
  | aggregate (function : Aggregate) (field : Option String)
deriving Repr, DecidableEq

/-- A column with its name in the output. -/
structure Item where
  column : Column
  name : String
deriving Repr, DecidableEq

/-- The name of a column that is given none. -/
def Column.defaultAlias : Column → String
  | field name => name
  | aggregate function none => function.name
  | aggregate function (some name) => function.name ++ "_" ++ name

/-- What a statement does with a stream. -/
inductive Step
  /-- Keep the rows that pass all tests. -/
  | filter (tests : List Test)
  /-- Make one row of every row or group. -/
  | generate (items : List Item)
  /-- Group by the values of fields; no fields make one group. -/
  | group (fields : List String)
  /-- Sort by several fields, the first one foremost. -/
  | order (keys : List (String × SortDirection))
  | limit (count : Nat)
deriving DecidableEq

/-- Assign to the stream `target` what a step makes of the stream `source`. -/
structure Statement where
  target : String
  source : String
  step : Step
deriving DecidableEq

/-- A program: the stream that a dataset is loaded into, and the statements after it. -/
structure Program where
  loaded : String
  dataset : String
  statements : List Statement
deriving DecidableEq

def Program.steps (p : Program) : List Step := p.statements.map (·.step)

end CrmEmulator.Saql
