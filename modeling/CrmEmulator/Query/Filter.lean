import CrmEmulator.Query.Soql
import CrmEmulator.Query.Like
import CrmEmulator.Record
import CrmEmulator.Sorting

/-!
# CrmEmulator.Query.Filter — conditions, order and pages over records

A field that is missing counts as null.  Equality compares texts, the ordering operators compare
numbers, and where a comparison makes no sense the condition is false.
-/

namespace CrmEmulator

/-! ## Conditions -/

/-- An ordering operator on two numbers. -/
def CompareOp.holdsOf (op : CompareOp) (a b : Double) : Bool :=
  match op with
  | .gt => b.lt a
  | .ge => b.le a
  | .lt => a.lt b
  | .le => a.le b
  | _ => false

/-- Does a value satisfy an operator with its operand? -/
def Value.satisfies (actual : Value) (op : CompareOp) (operand : Operand) : Bool :=
  match op, operand with
  | .eq, .value expected => actual.coerceText == expected.coerceText
  | .ne, .value expected => actual.coerceText != expected.coerceText
  | .like, .value pattern =>
    !actual.isNull && Like.test actual.coerceText.toList pattern.coerceText.toList
  | .isIn, .list texts => texts.contains actual.coerceText
  | .notIn, .list texts => !texts.contains actual.coerceText
  | .gt, .value expected | .ge, .value expected | .lt, .value expected | .le, .value expected =>
    match actual.coerceNumber?, expected.coerceNumber? with
    | some a, some b => op.holdsOf a b
    | _, _ => false
  | _, _ => false

/-- Does a record satisfy a condition? -/
def Condition.holds (c : Condition) (r : Record) : Bool :=
  (r.getOrNull c.field).satisfies c.op c.operand

def Connective.apply : Connective → Bool → Bool → Bool
  | .and, a, b => a && b
  | .or, a, b => a || b

/-- Does a record satisfy the conditions, joined from left to right? -/
def Where.holds (w : Where) (r : Record) : Bool :=
  w.rest.foldl (fun result (connective, c) => connective.apply result (c.holds r)) (w.first.holds r)

/-- The records that satisfy the conditions, if there are any. -/
def Where.select (w : Option Where) (records : List Record) : List Record :=
  match w with
  | some w => records.filter w.holds
  | none => records

/-! ## Order -/

/-- The comparison turned around for descending order. -/
def SortDirection.turn : SortDirection → Ordering → Ordering
  | .asc, o => o
  | .desc, o => o.swap

/-- Two values in an order; nulls stand at their place whatever the direction is. -/
def OrderBy.compareValues (direction : SortDirection) (nulls : NullsPosition) (a b : Value) :
    Ordering :=
  match a.isNull, b.isNull with
  | true, true => .eq
  | true, false => if nulls = .first then .lt else .gt
  | false, true => if nulls = .first then .gt else .lt
  | false, false => direction.turn (a.compare b)

def OrderBy.compare (o : OrderBy) (a b : Record) : Ordering :=
  OrderBy.compareValues o.direction o.nulls (a.getOrNull o.field) (b.getOrNull o.field)

/-- The records in order, if one is asked for. -/
def OrderBy.arrange (o : Option OrderBy) (records : List Record) : List Record :=
  match o with
  | some o => stableSort o.compare records
  | none => records

/-! ## Pages -/

/-- Pass over `offset` elements and take at most `limit` of the rest. -/
def page {α : Type} (offset limit : Option Nat) (xs : List α) : List α :=
  let rest := xs.drop (offset.getD 0)
  match limit with
  | some n => rest.take n
  | none => rest

/-- The records of a query in its order and page. -/
def Soql.rows (q : Soql) (records : List Record) : List Record :=
  page q.offset q.limit (OrderBy.arrange q.orderBy (Where.select q.filter records))

end CrmEmulator
