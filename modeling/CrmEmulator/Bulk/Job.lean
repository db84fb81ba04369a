import CrmEmulator.Bulk.Row
import CrmEmulator.Registry
import CrmEmulator.Failure

/-!
# CrmEmulator.Bulk.Job — bulk jobs

All generations of bulk jobs share one table.  A job has what every job has, and a payload that
says of which generation it is: batches, uploaded rows, or a query with its result.
-/

namespace CrmEmulator

/-! ## States -/

inductive JobState
  | open
  | uploadComplete
  | inProgress
  | jobComplete
  | failed
  | aborted
  | closed
deriving Repr, DecidableEq

namespace JobState

def name : JobState → String
  | .open => "Open"
  | uploadComplete => "UploadComplete"
  | inProgress => "InProgress"
  | jobComplete => "JobComplete"
  | failed => "Failed"
  | aborted => "Aborted"
  | closed => "Closed"

/-- A state that is never left. -/
def isTerminal : JobState → Bool
  | jobComplete | failed | aborted => true
  | _ => false

end JobState

inductive BatchState
  | queued
  | inProgress
  | completed
  | failed
  | notProcessed
deriving Repr, DecidableEq

def BatchState.name : BatchState → String
  | queued => "Queued"
  | inProgress => "InProgress"
  | completed => "Completed"
  | failed => "Failed"
  | notProcessed => "Not Processed"

/-! ## Payloads -/

/-- A batch of records. -/
structure Batch where
  id : String
  jobId : String
  state : BatchState
  stateMessage : Option String
  createdDate : String
  modifiedDate : String
  processed : Nat
  failed : Nat
  results : List RowResult
deriving DecidableEq

/-- Uploaded rows, and after processing what became of them. -/
structure IngestData where
  csv : String
  successful : List RowResult
  failed : List RowResult
deriving DecidableEq

/-- A query with its result as a table, or why it has none. -/
structure QueryData where
  query : String
  csv : String
  errorMessage : Option String
deriving DecidableEq

inductive Payload
  | batches (batches : List Batch)
  | ingest (data : IngestData)
  | query (data : QueryData)
deriving DecidableEq

/-! ## Jobs -/

structure Job where
  id : String
  operation : Operation
  object : String
  contentType : String
  state : JobState
  externalId : Option String
  lineEnding : String
  columnDelimiter : String
  apiVersion : String
  createdDate : String
  modifiedDate : String
  processed : Nat
  failed : Nat
  payload : Payload
deriving DecidableEq

/-- The generation of a job. -/
inductive JobKind
  | v1Bulk
  | v2Ingest
  | v2Query
deriving Repr, DecidableEq

def JobKind.name : JobKind → String
  | v1Bulk => "V1Bulk"
  | v2Ingest => "V2Ingest"
  | v2Query => "V2Query"

namespace Job

def idPrefix : String := "750"

def batchPrefix : String := "751"

/-- The user that all jobs are created by. -/
def creatorId : String := "005000000000000AAA"

def concurrencyMode : String := "Parallel"

/-- A new job, open and empty, and the supply after it. -/
def create (supply : Supply) (operation : Operation) (object apiVersion : String)
    (payload : Payload) : Job × Supply :=
  let (id, supply) := supply.freshId idPrefix
  ({ id, operation, object, contentType := "CSV", state := .open, externalId := none,
     lineEnding := "LF", columnDelimiter := "COMMA", apiVersion, createdDate := supply.now,
     modifiedDate := supply.now, processed := 0, failed := 0, payload }, supply)

/-- The version of an interface without the leading letter. -/
def plainVersion (version : String) : String :=
  String.ofList (version.toList.dropWhile (· = 'v'))

def kind (j : Job) : JobKind :=
  match j.payload with
  | .batches _ => .v1Bulk
  | .ingest _ => .v2Ingest
  | .query _ => .v2Query

def setState (j : Job) (state : JobState) (now : String) : Job :=
  { j with state, modifiedDate := now }

def batches (j : Job) : Except Failure (List Batch) :=
  match j.payload with
  | .batches bs => .ok bs
  | _ => .error (.invalidType "This is not a Bulk API v1 job")

def ingestData (j : Job) : Except Failure IngestData :=
  match j.payload with
  | .ingest data => .ok data
  | _ => .error (.invalidType "This is not an ingest job")

def queryData (j : Job) : Except Failure QueryData :=
  match j.payload with
  | .query data => .ok data
  | _ => .error (.invalidType "This is not a query job")

/-! ## JSON -/

/-- The version as a number if it is one, else as text. -/
def versionJson (j : Job) : Json :=
  match Double.ofText? (plainVersion j.apiVersion).toList with
  | some x => if x.isFinite then .double x else .str j.apiVersion
  | none => .str j.apiVersion

/-- A job as the second generation shows it.  Jobs take no measurable time. -/
def toJson (j : Job) : Json :=
  .obj ([
    ("id", .str j.id),
    ("operation", .str j.operation.name),
    ("object", .str j.object),
    ("createdById", .str creatorId),
    ("createdDate", .str j.createdDate),
    ("systemModstamp", .str j.modifiedDate),
    ("state", .str j.state.name),
    ("concurrencyMode", .str concurrencyMode),
    ("contentType", .str j.contentType),
    ("apiVersion", j.versionJson),
    ("jobType", .str j.kind.name),
    ("lineEnding", .str j.lineEnding),
    ("numberRecordsProcessed", .ofNat j.processed),
    ("retries", .ofNat 0),
    ("totalProcessingTime", .ofNat 0)] ++
    match j.payload with
    | .query data => (data.errorMessage.map fun m => ("errorMessage", Json.str m)).toList
    | _ => [
      ("externalIdFieldName", (j.externalId.map Json.str).getD .null),
      ("columnDelimiter", .str j.columnDelimiter),
      ("numberRecordsFailed", .ofNat j.failed)])

end Job

/-! ## The job table -/

abbrev Jobs := Registry Job

namespace Jobs

def insert (jobs : Jobs) (j : Job) : Jobs := jobs.append j.id j

def get (jobs : Jobs) (id : String) : Except Failure Job :=
  match jobs.get? id with
  | some j => .ok j
  | none => .error (.notFound ("Job not found: " ++ id))

def remove (jobs : Jobs) (id : String) : Except Failure Jobs :=
  if jobs.contains id then .ok (jobs.erase id)
  else .error (.notFound ("Job not found: " ++ id))

/-- The jobs of a generation in order of creation. -/
def ofKind (jobs : Jobs) (kind : JobKind) : List Job := jobs.toList.filter (·.kind == kind)

/-- The jobs of a generation as a page that has no next one. -/
def listJson (jobs : Jobs) (kind : JobKind) : Json :=
  .obj [("done", .bool true), ("records", .arr ((jobs.ofKind kind).map Job.toJson)),
    ("nextRecordsUrl", .null)]

end Jobs

end CrmEmulator
