import CrmEmulator.Bulk.Job
import CrmEmulator.Csv
import CrmEmulator.Json.Members
import CrmEmulator.Store.Basic

/-!
# CrmEmulator.Bulk.Ingest — jobs that take uploaded rows

The life of an ingest job consists of four steps, each of which happens as a whole: `upload` while
the job is open, `close`, `process` of a closed job, and `abort` of one that has not ended.  An
abort may come between closing and processing; then nothing is processed.
-/

namespace CrmEmulator

namespace Ingest

/-! ## Creation -/

/-- What a new job is asked to be. -/
structure Request where
  object : Option String
  operation : Option String
  externalId : Option String
  contentType : Option String
  lineEnding : Option String
  columnDelimiter : Option String
deriving Repr, DecidableEq

namespace Request

/-- A request that says nothing. -/
def blank : Request := ⟨none, none, none, none, none, none⟩

/-- The members of a request, in the order of a request by position. -/
def memberNames : List String := [
  "object", "operation", "externalIdFieldName", "contentType", "lineEnding", "columnDelimiter"]

/-- The request in a text. -/
def read? (cs : List Char) : Option Request := do
  let members ← Json.structure? memberNames cs
  let text? (name : String) := Json.readMember? members name none (Json.readOption? Json.readString?)
  return {
    object := ← text? "object"
    operation := ← text? "operation"
    externalId := ← text? "externalIdFieldName"
    contentType := ← text? "contentType"
    lineEnding := ← text? "lineEnding"
    columnDelimiter := ← text? "columnDelimiter" }

end Request

/-- The job of a request, and the supply after it. -/
def create (c : Catalog) (supply : Supply) (version : String) (r : Request) :
    Except Failure (Job × Supply) := do
  let object ← match r.object.filter fun s => !s.isEmpty with
    | some object => .ok object
    | none => .error (.invalidField "object is required")
  if !c.contains object then
    .error (.invalidType ("sObject type '" ++ object ++ "' is not supported."))
  let operation ← match (r.operation.bind Operation.ofName?).filter Operation.isIngest with
    | some operation => .ok operation
    | none => .error (.invalidField "operation must be one of: insert, update, upsert, delete")
  let externalId := r.externalId.filter fun s => !s.isEmpty
  if operation = .upsert ∧ externalId = none then
    .error (.invalidField "externalIdFieldName is required for upsert operations")
  let (j, supply) := Job.create supply operation object (Job.plainVersion version)
    (.ingest ⟨"", [], []⟩)
  return ({ j with
    externalId
    contentType := r.contentType.getD j.contentType
    lineEnding := r.lineEnding.getD j.lineEnding
    columnDelimiter := r.columnDelimiter.getD j.columnDelimiter }, supply)

/-! ## Uploading -/

/-- The text after the first line. -/
def afterFirstLine (cs : List Char) : List Char := (cs.dropWhile (· ≠ '\n')).drop 1

/-- Add an uploaded part to what was uploaded before.  A part that repeats the header adds only
its rows, and begins on a new line. -/
def mergeUpload (buffered part : List Char) : List Char :=
  if buffered.isEmpty then part
  else
    let rows := if Csv.headerLine part = Csv.headerLine buffered then afterFirstLine part else part
    if rows.isEmpty then buffered
    else if buffered.getLast? = some '\n' then buffered ++ rows
    else buffered ++ '\n' :: rows

/-- Upload a part to an open job. -/
def upload (j : Job) (now body : String) : Except Failure Job :=
  if j.state ≠ .open then
    .error (.invalidState
      ("Job " ++ j.id ++ " is not open for uploads (state: " ++ j.state.name ++ ")"))
  else if body.toList.all isBlank then .error (.invalidField "CSV data is required")
  else do
    let data ← j.ingestData
    return { j with
      payload := .ingest
        { data with csv := String.ofList (mergeUpload data.csv.toList body.toList) }
      modifiedDate := now }

/-! ## Changes of state -/

/-- Close an open job: its upload is complete. -/
def close (j : Job) (now : String) : Except Failure Job :=
  if j.state ≠ .open then
    .error (.invalidState ("Job " ++ j.id ++ " cannot be closed from state " ++ j.state.name))
  else .ok (j.setState .uploadComplete now)

/-- Abort a job that has not ended. -/
def abort (j : Job) (now : String) : Except Failure Job :=
  if j.state.isTerminal then
    .error (.invalidState ("Job " ++ j.id ++ " is already " ++ j.state.name))
  else .ok (j.setState .aborted now)

/-- The job after its rows were processed. -/
def finish (j : Job) (now : String) (csv : String) (results : List RowResult) : Job :=
  let successful := results.filter RowResult.isSuccess
  let failed := results.filter fun r => !r.isSuccess
  let state := if successful.isEmpty && !failed.isEmpty then JobState.failed else .jobComplete
  { j.setState state now with
    processed := successful.length
    failed := failed.length
    payload := .ingest ⟨csv, successful, failed⟩ }

/-- Process the rows of a closed job; a job in any other state stays as it is. -/
def process (j : Job) (s : Schema) (st : RowState) : Job × RowState :=
  match j.state, j.payload with
  | .uploadComplete, .ingest data =>
    let p : RowProcessor := ⟨s, j.operation, j.externalId⟩
    let (results, st) := p.processRaw st (Csv.parse data.csv.toList).records
    (finish j st.supply.now data.csv results, st)
  | _, _ => (j, st)

/-! ## Results -/

/-- Results are there when the job has ended without an abort. -/
def ensureFinished (j : Job) : Except Failure Unit :=
  match j.state with
  | .jobComplete | .failed => .ok ()
  | state => .error (.invalidState
      ("Results are not available while the job is " ++ state.name))

/-- A result as a row: its id, what became of it, and the columns that were uploaded. -/
def resultRow (r : RowResult) : Record :=
  let head : Record := .ofFields [
    ("sf__Id", .text (r.id.getD "")),
    if r.isSuccess then ("sf__Created", .text (Value.boolText r.created))
    else ("sf__Error", .text r.summary)]
  r.input.fields.foldl (fun row (name, v) => if row.contains name then row else row.set name v) head

/-- The names of all columns of some rows, in the order in which they first occur. -/
def columnsOf (rows : List Record) : List String :=
  (rows.flatMap Record.names).foldl
    (fun names name => if names.contains name then names else names ++ [name]) []

/-- Results as a table; no results make an empty text. -/
def resultsCsv (results : List RowResult) : String :=
  if results.isEmpty then ""
  else
    let rows := results.map resultRow
    Csv.writeRecords (columnsOf rows) rows

def successfulResults (j : Job) : Except Failure String := do
  ensureFinished j
  return resultsCsv (← j.ingestData).successful

def failedResults (j : Job) : Except Failure String := do
  ensureFinished j
  return resultsCsv (← j.ingestData).failed

/-- What was uploaded to a job that was aborted; nothing otherwise. -/
def unprocessedRecords (j : Job) : Except Failure String := do
  let data ← j.ingestData
  return if j.state = .aborted then data.csv else ""

end Ingest

end CrmEmulator
