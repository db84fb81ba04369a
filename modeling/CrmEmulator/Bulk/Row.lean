import CrmEmulator.Schema.Validation
import CrmEmulator.Store.Collection

/-!
# CrmEmulator.Bulk.Row — one row of a bulk operation

1. `typeRecord`: cells become values of the types of their fields.
2. `RowProcessor.process`: what one row does to a collection.  A row that fails leaves the
   collection and the supply as they are.
3. `RowProcessor.processAll`: row after row; a failing row does not stop the others.
-/

namespace CrmEmulator

/-! ## Operations and results -/

inductive Operation
  | insert
  | update
  | upsert
  | delete
  | query
  | queryAll
deriving Repr, DecidableEq

namespace Operation

def name : Operation → String
  | insert => "insert"
  | update => "update"
  | upsert => "upsert"
  | delete => "delete"
  | query => "query"
  | queryAll => "queryAll"

def ofName? (written : String) : Option Operation :=
  [insert, update, upsert, delete, query, queryAll].find? (·.name == written)

/-- Does the operation write records? -/
def isIngest : Operation → Bool
  | query | queryAll => false
  | _ => true

end Operation

/-- What became of one row. -/
structure RowResult where
  id : Option String
  created : Bool
  errors : List Violation
  /-- The row as it was sent. -/
  input : Record
deriving DecidableEq

namespace RowResult

def success (id : String) (created : Bool) (input : Record) : RowResult :=
  ⟨some id, created, [], input⟩

def failure (id : Option String) (errors : List Violation) (input : Record) : RowResult :=
  ⟨id, false, errors, input⟩

def isSuccess (r : RowResult) : Bool := r.errors.isEmpty

/-- Code and message of every error. -/
def summary (r : RowResult) : String :=
  String.intercalate "; " (r.errors.map (·.summary))

end RowResult

/-! ## Typed cells -/

/-- The cell that stands for null. -/
def nullMarker : String := "#N/A"

/-- The value of a cell by the type of its field; a cell that does not read as one stays text. -/
def typeCell (type : FieldType) (text : String) : Value :=
  let cs := trim text.toList
  let typed := match type with
    | .int => (Numeral.int64? cs).map Value.integer
    | .double | .currency | .percent => (Double.ofText? cs).map Value.double
    | .boolean =>
      if sameWord cs "true".toList then some (.boolean true)
      else if sameWord cs "false".toList then some (.boolean false)
      else none
    | _ => none
  typed.getD (.text text)

/-- The typed value of a field, none if its cell is empty. -/
def typeField (s : Schema) (name : String) : Value → Option Value
  | .text text =>
    if text.isEmpty then none
    else if text = nullMarker then some .null
    else match s.field? name with
      | some d => some (typeCell d.type text)
      | none => some (.text text)
  | v => some v

/-- A row with its cells typed; fields with empty cells are left out. -/
def typeRecord (s : Schema) (r : Record) : Record :=
  .ofFields (r.fields.filterMap fun (name, v) => (typeField s name v).map (name, ·))

/-! ## Rows -/

/-- How rows are processed. -/
structure RowProcessor where
  schema : Schema
  operation : Operation
  externalId : Option String
deriving Repr, DecidableEq

/-- What a row changes: the collection and the supply. -/
structure RowState where
  collection : Collection
  supply : Supply
deriving DecidableEq

namespace RowProcessor

/-- The record without a field. -/
def without (name : String) (r : Record) : Record := ⟨r.fields.filter (·.1 != name)⟩

/-- The text of the id, unless it is missing or blank. -/
def rowId? (r : Record) : Option String :=
  ((r.get? "Id").filter fun v => !v.isBlank).map Value.coerceText

def missingId (operation : String) (input : Record) : RowResult :=
  .failure none [⟨.missingArgument, "Id", "Id is required for " ++ operation ++ " operation"⟩] input

def insert (p : RowProcessor) (st : RowState) (input : Record) : RowResult × RowState :=
  let sent := without "Id" input
  match p.schema.violations .create sent with
  | [] =>
    let (id, supply) := st.supply.freshId p.schema.idPrefix
    (.success id true input, ⟨st.collection.push (.created id supply.now sent), supply⟩)
  | errors => (.failure none errors input, st)

def update (p : RowProcessor) (st : RowState) (input : Record) : RowResult × RowState :=
  match rowId? input with
  | none => (missingId "update" input, st)
  | some id =>
    let sent := without "Id" input
    match st.collection.find? id with
    | none =>
      (.failure (some id)
        [⟨.invalidCrossReferenceKey, "Id", "Record not found: " ++ id⟩] input, st)
    | some _ =>
      match p.schema.violations .update sent with
      | [] => (.success id false input,
          { st with collection := st.collection.update id st.supply.now sent })
      | errors => (.failure (some id) errors input, st)

/-- Update the first record with the external id of the row, or insert the row.  A row without an
external id is inserted. -/
def upsert (p : RowProcessor) (st : RowState) (input : Record) : RowResult × RowState :=
  let external := p.externalId.getD "Id"
  match ((input.get? external).filter fun v => !v.isBlank).map Value.coerceText with
  | none => p.insert st input
  | some key =>
    match st.collection.findByText? external key with
    | none => p.insert st input
    | some found =>
      let sent := without external input
      match p.schema.violations .update sent with
      | [] => (.success (found.id?.getD "") false input,
          { st with
            collection := st.collection.updateByText external key st.supply.now sent })
      | errors => (.failure found.id? errors input, st)

def delete (st : RowState) (input : Record) : RowResult × RowState :=
  match rowId? input with
  | none => (missingId "delete" input, st)
  | some id =>
    match st.collection.find? id with
    | none => (.failure (some id)
        [⟨.entityIsDeleted, "Id", "Entity is deleted or does not exist: " ++ id⟩] input, st)
    | some _ =>
      (.success id false input, { st with collection := st.collection.remove id })

/-- What one row does. -/
def process (p : RowProcessor) (st : RowState) (input : Record) : RowResult × RowState :=
  match p.operation with
  | .insert => p.insert st input
  | .update => p.update st input
  | .upsert => p.upsert st input
  | .delete => delete st input
  | .query | .queryAll =>
    (.failure none
      [⟨.invalidOperation, "", "Unsupported operation: " ++ p.operation.name⟩] input, st)

/-- What rows do one after the other: a result for each. -/
def processAll (p : RowProcessor) (st : RowState) : List Record → List RowResult × RowState
  | [] => ([], st)
  | row :: rows =>
    let (result, st) := p.process st row
    let (results, st) := p.processAll st rows
    (result :: results, st)

/-- Type rows, process them, and report them as they were sent. -/
def processRaw (p : RowProcessor) (st : RowState) (rows : List Record) :
    List RowResult × RowState :=
  let (results, st) := p.processAll st (rows.map (typeRecord p.schema))
  (results.zipWith (fun result row => { result with input := row }) rows, st)

end RowProcessor

end CrmEmulator
