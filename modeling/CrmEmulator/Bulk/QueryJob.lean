import CrmEmulator.Bulk.Job
import CrmEmulator.Csv
import CrmEmulator.Json.Members
import CrmEmulator.Query.Engine

/-!
# CrmEmulator.Bulk.QueryJob — jobs that run a query

The query runs when the job is created.  A query that fails leaves a failed job with a message.
-/

namespace CrmEmulator.QueryJob

/-- What a new job is asked to be. -/
structure Request where
  query : Option String
  operation : Option String
  contentType : Option String
  columnDelimiter : Option String
  lineEnding : Option String
deriving Repr, DecidableEq

namespace Request

/-- A request that says nothing. -/
def blank : Request := ⟨none, none, none, none, none⟩

/-- The members of a request, in the order of a request by position. -/
def memberNames : List String := [
  "query", "operation", "contentType", "columnDelimiter", "lineEnding"]

/-- The request in a text. -/
def read? (cs : List Char) : Option Request := do
  let members ← Json.structure? memberNames cs
  let text? (name : String) := Json.readMember? members name none (Json.readOption? Json.readString?)
  return {
    query := ← text? "query"
    operation := ← text? "operation"
    contentType := ← text? "contentType"
    columnDelimiter := ← text? "columnDelimiter"
    lineEnding := ← text? "lineEnding" }

end Request

/-- The columns of a result.  A star stands for the fields of the first record, or for those of the
schema if there is no record. -/
def columns (names : List String) (records : List Record) (s : Schema) : List String :=
  if !names.contains "*" then names
  else match records with
    | first :: _ => first.names
    | [] => "Id" :: s.fieldNames.filter (· ≠ "Id")

/-- The object of a query, the number of records and their table. -/
structure Outcome where
  object : String
  count : Nat
  csv : String
deriving Repr, DecidableEq

/-- Run a query for a job; counts are not supported. -/
def run (c : Catalog) (s : Store) (text : String) : Except Failure Outcome := do
  let q ← (Soql.parse text).mapError QueryFault.failure
  match q.select with
  | .count => .error (.malformedQuery "COUNT() is not supported in Bulk API queries")
  | .fields names =>
    let records ← s.run c q
    let schema ← c.require q.object
    return ⟨q.object, records.length, Csv.writeRecords (columns names records schema) records⟩

/-- The object that a query text names, if it can be read. -/
def objectOf (text : String) : String :=
  match Soql.parse text with
  | .ok q => q.object
  | .error _ => ""

/-- A job with the outcome of its query. -/
def finish (j : Job) (data : QueryData) (outcome : Except Failure Outcome) : Job :=
  match outcome with
  | .ok r => { j with
      object := r.object, processed := r.count, state := .jobComplete
      payload := .query { data with csv := r.csv } }
  | .error e => { j with
      object := objectOf data.query, failed := 1, state := .failed
      payload := .query { data with errorMessage := some e.message } }

/-- The job of a request, which has run its query, and the supply after it. -/
def create (c : Catalog) (s : Store) (supply : Supply) (version : String) (r : Request) :
    Except Failure (Job × Supply) := do
  let text ← match r.query.filter fun q => !q.toList.all isBlank with
    | some text => .ok text
    | none => .error (.malformedQuery "query field is required")
  let operation ← match r.operation with
    | none => .ok Operation.query
    | some written =>
      match (Operation.ofName? written).filter fun op => !op.isIngest with
      | some operation => .ok operation
      | none => .error (.invalidField "operation must be one of: query, queryAll")
  let data : QueryData := ⟨text, "", none⟩
  let (j, supply) := Job.create supply operation "" (Job.plainVersion version) (.query data)
  let j := { j with
    contentType := r.contentType.getD j.contentType
    columnDelimiter := r.columnDelimiter.getD j.columnDelimiter
    lineEnding := r.lineEnding.getD j.lineEnding }
  return (finish j data (run c s text), supply)

/-- The table of a complete job. -/
def results (j : Job) : Except Failure String :=
  if j.state ≠ .jobComplete then
    .error (.invalidState ("Results are not available while the job is " ++ j.state.name))
  else do return (← j.queryData).csv

/-- A query job can only be aborted; its query has run all the same. -/
def changeState (j : Job) (now state : String) : Except Failure Job :=
  if state ≠ "Aborted" then
    .error (.invalidField ("Invalid state: " ++ state ++ ". Query jobs can only be Aborted"))
  else .ok (j.setState .aborted now)

end CrmEmulator.QueryJob
