import CrmEmulator.Bulk.Job
import CrmEmulator.Csv
import CrmEmulator.Xml
import CrmEmulator.Json.Reader
import CrmEmulator.Store.Catalog

/-!
# CrmEmulator.Bulk.Legacy — jobs with batches

The first generation controls jobs with XML documents, and processes a batch when it is added.

1. Creating a job from its document, closing and aborting it.
2. Payloads of batches as CSV, XML or JSON.
3. Adding a batch, and its results in the format of the job.
-/

namespace CrmEmulator

namespace Legacy

/-! ## Failures -/

/-- The exception code of a failure. -/
def exceptionCode : Failure → String
  | .batchNotFound _ => "InvalidBatch"
  | .invalidState _ => "InvalidJobState"
  | .invalidBatchState _ => "InvalidBatchState"
  | .notFound _ | .invalidType _ | .invalidField _ => "InvalidJob"
  | .malformedQuery _ => "InvalidBatch"
  | _ => "ClientInputError"

/-- The document that answers a request with a failure. -/
def errorDocument (e : Failure) : String :=
  (Xml.Document.new "error"
    |>.element "exceptionCode" (exceptionCode e)
    |>.element "exceptionMessage" e.message).finish

/-! ## Job documents -/

def countIn (state : BatchState) (bs : List Batch) : Nat := (bs.filter (·.state == state)).length

/-- An element that is written only if there is a text for it. -/
def optionalElement (d : Xml.Document) (name : String) : Option String → Xml.Document
  | some s => d.element name s
  | none => d

/-- A number as text. -/
def number (n : Nat) : String := toString n

/-- The document that shows a job with batches. -/
def jobDocument (j : Job) (bs : List Batch) : String :=
  let d := Xml.Document.new "jobInfo"
    |>.element "id" j.id
    |>.element "operation" j.operation.name
    |>.element "object" j.object
    |>.element "createdById" Job.creatorId
    |>.element "createdDate" j.createdDate
    |>.element "systemModstamp" j.modifiedDate
    |>.element "state" j.state.name
  (optionalElement d "externalIdFieldName" j.externalId
    |>.element "concurrencyMode" Job.concurrencyMode
    |>.element "contentType" j.contentType
    |>.element "numberBatchesQueued" (number (countIn .queued bs))
    |>.element "numberBatchesInProgress" (number (countIn .inProgress bs))
    |>.element "numberBatchesCompleted" (number (countIn .completed bs))
    |>.element "numberBatchesFailed" (number (countIn .failed bs))
    |>.element "numberBatchesTotal" (number bs.length)
    |>.element "numberRecordsProcessed" (number j.processed)
    |>.element "numberRetries" (number 0)
    |>.element "apiVersion" j.apiVersion
    |>.element "numberRecordsFailed" (number j.failed)
    |>.element "totalProcessingTime" (number 0)
    |>.element "apiActiveProcessingTime" (number 0)
    |>.element "apexProcessingTime" (number 0)).finish

/-- The elements that show a batch. -/
def batchElements (d : Xml.Document) (b : Batch) : Xml.Document :=
  let d := d
    |>.element "id" b.id
    |>.element "jobId" b.jobId
    |>.element "state" b.state.name
  optionalElement d "stateMessage" b.stateMessage
    |>.element "createdDate" b.createdDate
    |>.element "systemModstamp" b.modifiedDate
    |>.element "numberRecordsProcessed" (number b.processed)
    |>.element "numberRecordsFailed" (number b.failed)
    |>.element "totalProcessingTime" (number 0)
    |>.element "apiActiveProcessingTime" (number 0)
    |>.element "apexProcessingTime" (number 0)

def batchDocument (b : Batch) : String := (batchElements (.new "batchInfo") b).finish

def batchListDocument (bs : List Batch) : String :=
  (bs.foldl (fun d b => (batchElements (d.openTag "batchInfo") b).closeTag "batchInfo")
    (Xml.Document.new "batchInfoList")).finish

/-! ## Jobs -/

/-- The job that a document asks for, and the supply after it. -/
def create (c : Catalog) (supply : Supply) (version : String) (xml : String) :
    Except Failure (Job × Supply) := do
  let cs := xml.toList
  let written ← match Xml.elementText? cs "operation" with
    | some written => .ok written
    | none => .error (.invalidField "operation is required")
  let operation ← match Operation.ofName? written with
    | some operation => .ok operation
    | none => .error (.invalidField ("Invalid operation: " ++ written))
  let nonEmpty (name : String) := (Xml.elementText? cs name).filter fun s => !s.isEmpty
  let object ← match nonEmpty "object" with
    | some object => .ok object
    | none => .error (.invalidField "object is required")
  if !c.contains object then .error (.unknownObject object)
  let (j, supply) := Job.create supply operation object (Job.plainVersion version) (.batches [])
  return ({ j with
    contentType := (nonEmpty "contentType").getD "CSV"
    externalId := nonEmpty "externalIdFieldName" }, supply)

/-- A batch of a job that is aborted; one that has not ended will not be processed. -/
def abortBatch (b : Batch) : Batch :=
  match b.state with
  | .queued | .inProgress => { b with state := .notProcessed }
  | _ => b

/-- Close or abort a job. -/
def changeState (j : Job) (bs : List Batch) (now target : String) : Except Failure Job :=
  match j.state, target with
  | .open, "Closed" => .ok (j.setState .closed now)
  | .open, "Aborted" | .closed, "Aborted" =>
    .ok ({ j with payload := .batches (bs.map abortBatch) }.setState .aborted now)
  | state, target =>
    .error (.invalidState ("Cannot change job state from " ++ state.name ++ " to " ++ target))

/-! ## Payloads -/

inductive PayloadFormat
  | csv
  | xml
  | json
deriving Repr, DecidableEq

/-- A content type without the mark of archives, however often it stands there. -/
def plainContentType : List Char → List Char
  | 'Z' :: 'I' :: 'P' :: '_' :: cs => plainContentType cs
  | cs => cs

/-- The format of a content type; archives are taken for what they would hold. -/
def PayloadFormat.ofContentType (contentType : String) : PayloadFormat :=
  match String.ofList (plainContentType contentType.toList) with
  | "XML" => .xml
  | "JSON" => .json
  | _ => .csv

/-- The records of a JSON document: a list of objects, or one object. -/
def recordsOfJson : Json → Except Failure (List Record)
  | .arr items => items.mapM fun item =>
    match Record.ofJson? item with
    | some r => .ok r
    | none => .error (.invalidField "expected an array of objects")
  | .obj members => .ok (Record.ofJson? (.obj members)).toList
  | _ => .error (.invalidField "expected a JSON array or object")

/-- The records of a payload. -/
def parsePayload (format : PayloadFormat) (body : List Char) : Except Failure (List Record) :=
  match format with
  | .csv =>
    let t := Csv.parse body
    if t.headers.isEmpty then .error (.invalidField "CSV header row is missing")
    else .ok t.records
  | .xml =>
    if occursIn "<sObject".toList body then .ok (Xml.parseRecords body)
    else .error (.invalidField "no sObjects element found")
  | .json =>
    match Json.parse? body with
    | some doc => recordsOfJson doc
    | none => .error .notJson

/-! ## Batches -/

/-- A batch after its rows were processed; it fails if no row succeeds. -/
def finishBatch (b : Batch) (results : List RowResult) : Batch :=
  let failed := (results.filter fun r => !r.isSuccess).length
  { b with
    state := if failed = results.length then .failed else .completed
    processed := results.length
    failed
    results }

/-- A batch whose payload cannot be read. -/
def rejectBatch (b : Batch) (e : Failure) : Batch :=
  { b with state := .failed, stateMessage := some ("Failed to parse batch data: " ++ e.message) }

/-- Add a batch to an open job and process it. -/
def addBatch (j : Job) (bs : List Batch) (s : Schema) (st : RowState) (body : String) :
    Except Failure (Batch × Job × RowState) :=
  if j.state ≠ .open then
    .error (.invalidState ("Job " ++ j.id ++ " is not open (state: " ++ j.state.name ++ ")"))
  else
    let (id, supply) := st.supply.freshId Job.batchPrefix
    let st := { st with supply }
    let now := supply.now
    let b : Batch := ⟨id, j.id, .queued, none, now, now, 0, 0, []⟩
    let (b, st) := match parsePayload (.ofContentType j.contentType) body.toList with
      | .ok rows =>
        let (results, st) := (⟨s, j.operation, j.externalId⟩ : RowProcessor).processRaw st rows
        (finishBatch b results, st)
      | .error e => (rejectBatch b e, st)
    let j := { j with
      processed := j.processed + b.processed
      failed := j.failed + b.failed
      payload := .batches (bs ++ [b])
      modifiedDate := now }
    .ok (b, j, st)

def findBatch (bs : List Batch) (id : String) : Except Failure Batch :=
  match bs.find? (·.id == id) with
  | some b => .ok b
  | none => .error (.batchNotFound ("Batch not found: " ++ id))

/-! ## Results -/

/-- A cell between quotes, whatever it holds. -/
def quotedCell (s : String) : String :=
  String.ofList ('"' :: s.toList.flatMap (fun c => if c = '"' then ['"', '"'] else [c]) ++ ['"'])

def resultsCsv (results : List RowResult) : String :=
  let rows := ["Id", "Success", "Created", "Error"] :: results.map fun r => [
    r.id.getD "", Value.boolText r.isSuccess, Value.boolText r.created, r.summary]
  String.join (rows.map fun row => String.intercalate "," (row.map quotedCell) ++ "\n")

/-- The element of an id that is null. -/
def nilId : String :=
  "<id xsi:nil=\"true\" xmlns:xsi=\"http://www.w3.org/2001/XMLSchema-instance\"/>"

def errorElements (d : Xml.Document) (v : Violation) : Xml.Document :=
  let d := d.openTag "errors"
  let d := if v.field.isEmpty then d else d.element "fields" v.field
  d |>.element "message" v.message
    |>.element "statusCode" v.code.text
    |>.closeTag "errors"

def resultElements (d : Xml.Document) (r : RowResult) : Xml.Document :=
  let d := d.openTag "result"
  let d := match r.id with
    | some id => d.element "id" id
    | none => d.line nilId
  let d := d
    |>.element "success" (Value.boolText r.isSuccess)
    |>.element "created" (Value.boolText r.created)
  (r.errors.foldl errorElements d).closeTag "result"

def resultsXml (results : List RowResult) : String :=
  (results.foldl resultElements (Xml.Document.new "results")).finish

def resultsJson (results : List RowResult) : Json :=
  .arr (results.map fun r => .obj [
    ("id", (r.id.map Json.str).getD .null),
    ("success", .bool r.isSuccess),
    ("created", .bool r.created),
    ("errors", .arr (r.errors.map fun v => .obj [
      ("message", .str v.message), ("statusCode", .str v.code.text),
      ("fields", .ofStrings [v.field])]))])

/-- The results of a batch with their content type, in the format of the job. -/
def batchResults (j : Job) (b : Batch) : Except Failure (String × String) :=
  match b.state with
  | .completed | .failed =>
    match PayloadFormat.ofContentType j.contentType with
    | .csv => .ok ("text/csv", resultsCsv b.results)
    | .xml => .ok ("application/xml", resultsXml b.results)
    | .json => .ok ("application/json", (resultsJson b.results).compact)
  | state => .error (.invalidBatchState
      ("Batch " ++ b.id ++ " is not complete (state: " ++ state.name ++ ")"))

end Legacy

end CrmEmulator
