import CrmEmulator.Http.Route
import CrmEmulator.Org.BulkJobs
import CrmEmulator.Org.Content
import CrmEmulator.Org.Description
import CrmEmulator.Org.Overview
import CrmEmulator.Org.Records
import CrmEmulator.Streaming.Bayeux

/-!
# CrmEmulator.Http.Service — requests to an organisation

1. Reading the bodies of requests.
2. `run` and `perform`: what a call does, with its response or how it ends without one.
3. `respond`: the response to any request, if there is one, and the organisation after it.
-/

namespace CrmEmulator.Http

/-! ## Bodies -/

/-- White space between the tokens of a document, and form feeds. -/
def isBlankByte (b : UInt8) : Bool := [0x20, 0x09, 0x0A, 0x0C, 0x0D].contains b

def isBlankBody (body : List UInt8) : Bool := body.all isBlankByte

/-- A body as a document; a blank one is null. -/
def documentBody (body : List UInt8) : Except Failure Json :=
  if isBlankBody body then .ok .null
  else match (Utf8.decode? body).bind Json.parse? with
    | some doc => .ok doc
    | none => .error .notJson

/-- What a reader of members finds in a body that is not blank.  Bytes that make no character are
refused only where the reader looks at them. -/
def readMembers? {α : Type} (blank : α) (read? : List Char → Option α) (body : List UInt8) :
    Option α :=
  if isBlankBody body then some blank else read? (Utf8.decodeEscaped body)

/-- What is said of a body that is not what is expected. -/
def badBody : String := "Invalid JSON in request body"

/-- The state that a body asks for; no state is the empty text. -/
def stateBody (body : List UInt8) : Except Failure String :=
  let read? (cs : List Char) : Option String := do
    let members ← Json.structure? ["state"] cs
    let state ← Json.readMember? members "state" none (Json.readOption? Json.readString?)
    return state.getD ""
  match readMembers? "" read? body with
  | some state => .ok state
  | none => .error (.invalidField badBody)

def ingestBody (body : List UInt8) : Except Failure Ingest.Request :=
  match readMembers? .blank Ingest.Request.read? body with
  | some r => .ok r
  | none => .error (.invalidField badBody)

def queryBody (body : List UInt8) : Except Failure QueryJob.Request :=
  match readMembers? .blank QueryJob.Request.read? body with
  | some r => .ok r
  | none => .error (.malformedQuery badBody)

/-- The program in a body that queries a dataset. -/
def programBody (body : List UInt8) : Except Failure String := do
  let doc ← (documentBody body).mapError fun _ => .malformedQuery badBody
  match ((doc.member? "query").bind Json.readString?).filter fun s => !s.toList.all isBlank with
  | some program => .ok program
  | none => .error (.malformedQuery "SAQL query is required. Provide a \"query\" field.")

/-- The text of a query in the address, or what is said if there is none. -/
def queryParameter (r : Request) (missing : String) : Except Failure String :=
  match (Percent.parameter? r.address.query "q").filter fun s => !s.toList.all isBlank with
  | some text => .ok text
  | none => .error (.malformedQuery missing)

/-! ## Responses -/

/-- A record that was saved; `created` is only said of upserts. -/
def savedJson (id : String) (created : Option Bool) : Json :=
  .obj ([("id", .str id), ("success", .bool true), ("errors", .arr [])] ++
    (created.map fun b => ("created", Json.bool b)).toList)

def downloadResponse (d : Download) : Response where
  status := 200
  headers := [
    ("content-disposition", "attachment; filename=\"" ++ d.fileName ++ "\""),
    ("content-length", toString d.bytes.length)]
  body := .bytes d.contentType d.bytes

/-- The table of a query job, which is always complete. -/
def queryResultsResponse (csv : String) (count : Nat) : Response where
  status := 200
  headers := [("Sforce-Locator", "null"), ("Sforce-NumberOfRecords", toString count)]
  body := .text Response.csvType csv

/-- A failure to run a program says so. -/
def programFailure : Failure → Failure
  | .malformedQuery m => .malformedQuery ("SAQL execution error: " ++ m)
  | e => e

/-! ## Calls -/

/-- What a call answers that does not change the organisation. -/
def look (o : Org) (r : Request) : Call String → Except Failure Response
  | .index => return .json 200 o.indexJson
  | .health => return .json 200 o.healthJson
  | .limits _ => return .json 200 Org.limitsJson
  | .query v => do
    let text ← queryParameter r "SOQL query is required. Use ?q=SELECT..."
    return .json 200 (← o.store.query o.catalog text v).toJson
  | .search v => do
    let text ← queryParameter r
      "SOSL query is required. Use ?q=FIND+\x7bterm\x7d+RETURNING+Object(fields)"
    return .json 200 (Store.searchJson (← o.store.search o.catalog text v))
  | .describe v object => return .json 200 (← o.describe v object)
  | .getRecord v object id => return .json 200 (← o.getRecord v object id)
  | .download _ object id field => return downloadResponse (← o.download object id field)
  | .listDatasets v => return .json 200 (o.datasets.listJson v)
  | .getDataset v dataset => return .json 200 (← o.datasets.getJson v dataset)
  | .datasetVersions v dataset => return .json 200 (← o.datasets.getVersionsJson v dataset)
  | .listIngests _ => return .json 200 (o.jobs.listJson .v2Ingest)
  | .getIngest _ job => return .json 200 (← o.ingestJob job).toJson
  | .successfulResults _ job =>
    return .text 200 Response.csvType (← Ingest.successfulResults (← o.ingestJob job))
  | .failedResults _ job =>
    return .text 200 Response.csvType (← Ingest.failedResults (← o.ingestJob job))
  | .unprocessedRecords _ job =>
    return .text 200 Response.csvType (← Ingest.unprocessedRecords (← o.ingestJob job))
  | .listQueries _ => return .json 200 (o.jobs.listJson .v2Query)
  | .getQuery _ job => return .json 200 (← o.queryJob job).toJson
  | .queryResults _ job => do
    let (csv, count) ← o.queryResults job
    return queryResultsResponse csv count
  | .getBatchJob _ job => return .text 200 Response.xmlType (← o.batchJobDocument job)
  | .listBatches _ job => return .text 200 Response.xmlType (← o.batchList job)
  | .getBatch _ job batch => return .text 200 Response.xmlType (← o.batchDocument job batch)
  | .batchResults _ job batch => do
    let (type, text) ← o.batchResults job batch
    return .text 200 type text
  | .allRecords => return .json 200 o.recordsJson
  | .objectRecords object => return .json 200 (← o.objectJson object)
  | .allSchemas => return .json 200 o.schemasJson
  | .allJobs => return .json 200 o.jobsJson
  | .allEvents => return .json 200 o.bus.eventsJson
  | .allClients => return .json 200 o.bus.clientsJson
  | _ => return .json 200 Org.livenessJson

/-- The text of a body that was found to be one. -/
def bodyText (r : Request) : String := String.ofList (Utf8.decodeLenient r.body)

/-- What a call does that cannot be broken off: its response, and the organisation after it. -/
def run (o : Org) (r : Request) : Call String → Except Failure (Response × Org)
  | .token =>
    let (doc, o) := o.issueToken
    .ok (.json 200 doc, o)
  | .createRecord _ object => do
    let (id, o) ← o.createRecord object (← documentBody r.body)
    return (.json 201 (savedJson id none), o)
  | .updateRecord _ object id => do
    return (.empty 204, ← o.updateRecord object id (← documentBody r.body))
  | .deleteRecord _ object id => return (.empty 204, ← o.deleteRecord object id)
  | .upsertRecord _ object field value => do
    match ← o.upsertRecord object field value (← documentBody r.body) with
    | (.created id, o) => return (.json 201 (savedJson id (some true)), o)
    | (.updated, o) => return (.empty 204, o)
  | .createIngest _ => do
    let (j, o) ← o.createIngest (← ingestBody r.body)
    return (.json 201 j.toJson, o)
  | .changeIngest _ job => do
    let (j, o) ← o.changeIngest job (← stateBody r.body)
    return (.json 200 j.toJson, o)
  | .deleteIngest _ job => return (.empty 204, ← o.deleteIngest job)
  | .upload _ job => return (.empty 201, ← o.upload job (bodyText r))
  | .createQuery _ => do
    let (j, o) ← o.createQuery (← queryBody r.body)
    return (.json 201 j.toJson, o)
  | .changeQuery _ job => do
    let (j, o) ← o.changeQuery job (← stateBody r.body)
    return (.json 200 j.toJson, o)
  | .deleteQuery _ job => return (.empty 204, ← o.deleteQuery job)
  | .createBatchJob _ => do
    let (xml, o) ← o.createBatchJob (bodyText r)
    return (.text 201 Response.xmlType xml, o)
  | .changeBatchJob _ job => do
    let (xml, o) ← o.changeBatchJob job (bodyText r)
    return (.text 200 Response.xmlType xml, o)
  | .addBatch _ job => do
    let (xml, o) ← o.addBatch job (bodyText r)
    return (.text 201 Response.xmlType xml, o)
  | .stream _ => do
    let (answers, st) := Bayeux.handle ⟨o.bus, o.supply⟩ (← documentBody r.body)
    return (.json 200 (.arr answers), { o with bus := st.bus, supply := st.supply })
  | .reset =>
    let (dropped, o) := o.reset
    .ok (.json 200 dropped.toJson, o)
  | call => return (← look o r call, o)

/-- Run a program over a dataset. -/
def queryDataset (o : Org) (r : Request) : Except Halt (Response × Org) := do
  let program ← (programBody r.body).mapError .failure
  let (result, supply) := o.datasets.query o.supply program
  let doc ← result.mapError (·.mapFailure programFailure)
  return (.json 200 doc, { o with supply })

/-- What a call does: its response, and the organisation after it. -/
def perform (o : Org) (r : Request) : Call String → Except Halt (Response × Org)
  | .queryDataset _ => queryDataset o r
  | call => (run o r call).mapError .failure

/-! ## Service -/

/-- A failure in the form of an interface. -/
def ErrorForm.failure : ErrorForm → Failure → Response
  | json, e => .failure e
  | xml, e => .text e.status Response.xmlType (Legacy.errorDocument e)

/-- Does a call take its body as text? -/
def Call.takesText {α : Type} : Call α → Bool
  | .upload .. | .createBatchJob .. | .changeBatchJob .. | .addBatch .. => true
  | _ => false

/-- The path leads nowhere. -/
def noResource (r : Request) : Response :=
  .failure (.notFound
    ("No resource for " ++ r.method.name ++ " " ++ String.ofList r.address.path))

/-- A parameter of the path is no text. -/
def badParameter (name : String) : Response :=
  .text 400 Response.plainType ("Invalid URL: Invalid UTF-8 in \x60" ++ name ++ "\x60")

/-- A body that should be text is none. -/
def badText : Response :=
  .text 400 Response.plainType
    "Request body didn't contain valid UTF-8: there are bytes that make no character"

/-- The response to a request with its body, and the organisation after it.  There is none if the
work is broken off, which leaves the organisation as it was. -/
def answer (o : Org) (r : Request) : Option Response × Org :=
  match offerAt? r.address.path with
  | none => (noResource r, o)
  | some offer =>
    match offer.call? r.method with
    | none =>
      (offer.errorForm.failure (.methodNotAllowed (r.method.name ++ " not allowed")), o)
    | some call =>
      match call.decode with
      | .error name => (badParameter name, o)
      | .ok call =>
        if call.takesText && (Utf8.decode? r.body).isNone then (badText, o)
        else match perform o r call with
          | .ok (response, o) => (response, o)
          | .error (.failure e) => (offer.errorForm.failure e, o)
          | .error .overflow => (none, o)

/-- The response as a method asks for it. -/
def Method.shown (m : Method) (response : Response) : Response :=
  if m = .head then response.headOnly else response

/-- The response to a request, if there is one, and the organisation after it. -/
def respond (o : Org) (r : Request) : Option Response × Org :=
  let (response, o) := answer o r
  (response.map r.method.shown, o)

end CrmEmulator.Http
