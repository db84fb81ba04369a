import CrmEmulator.Http.Message
import CrmEmulator.Http.Percent

/-!
# CrmEmulator.Http.Route — what a path offers

1. `Call`: what can be asked of an organisation, with the parameters that stand in the path.
2. `callsAt?`: the calls that a path offers by method; none if there is no such path.
3. Decoding the parameters of a call.
-/

namespace CrmEmulator.Http

/-! ## Calls -/

/-- What a path asks for.  The parameters are segments of the path, encoded or decoded. -/
inductive Call (α : Type)
  | index
  | health
  | token
  | query (version : α)
  | search (version : α)
  | limits (version : α)
  | createRecord (version object : α)
  | describe (version object : α)
  | getRecord (version object id : α)
  | updateRecord (version object id : α)
  | deleteRecord (version object id : α)
  | download (version object id field : α)
  | upsertRecord (version object field value : α)
  | listDatasets (version : α)
  | getDataset (version dataset : α)
  | datasetVersions (version dataset : α)
  | queryDataset (version : α)
  | listIngests (version : α)
  | createIngest (version : α)
  | getIngest (version job : α)
  | changeIngest (version job : α)
  | deleteIngest (version job : α)
  | upload (version job : α)
  | successfulResults (version job : α)
  | failedResults (version job : α)
  | unprocessedRecords (version job : α)
  | listQueries (version : α)
  | createQuery (version : α)
  | getQuery (version job : α)
  | changeQuery (version job : α)
  | deleteQuery (version job : α)
  | queryResults (version job : α)
  | createBatchJob (version : α)
  | getBatchJob (version job : α)
  | changeBatchJob (version job : α)
  | listBatches (version job : α)
  | addBatch (version job : α)
  | getBatch (version job batch : α)
  | batchResults (version job batch : α)
  | stream (version : α)
  | allRecords
  | objectRecords (object : α)
  | reset
  | allSchemas
  | allJobs
  | allEvents
  | allClients
  | liveness
deriving Repr, DecidableEq

/-- In which form errors of an interface are answered. -/
inductive ErrorForm
  | json
  | xml
deriving Repr, DecidableEq

/-- The calls that a path offers. -/
structure Offer where
  calls : List (Method × Call String)
  errorForm : ErrorForm := .json
deriving Repr, DecidableEq

/-! ## Paths -/

/-- The calls under the data interface. -/
def dataCalls? (v : String) : List String → Option (List (Method × Call String))
  | ["query"] => some [(.get, .query v)]
  | ["search"] => some [(.get, .search v)]
  | ["limits"] => some [(.get, .limits v)]
  | ["sobjects", object] => some [(.post, .createRecord v object)]
  | ["sobjects", object, "describe"] => some [(.get, .describe v object)]
  | ["sobjects", object, id] => some [
      (.get, .getRecord v object id),
      (.patch, .updateRecord v object id),
      (.delete, .deleteRecord v object id)]
  | ["sobjects", object, key, last] => some [
      (.get, .download v object key last),
      (.patch, .upsertRecord v object key last)]
  | ["wave", "datasets"] => some [(.get, .listDatasets v)]
  | ["wave", "datasets", dataset] => some [(.get, .getDataset v dataset)]
  | ["wave", "datasets", dataset, "versions"] => some [(.get, .datasetVersions v dataset)]
  | ["wave", "query"] => some [(.post, .queryDataset v)]
  | ["jobs", "ingest"] => some [(.get, .listIngests v), (.post, .createIngest v)]
  | ["jobs", "ingest", job] => some [
      (.get, .getIngest v job),
      (.patch, .changeIngest v job),
      (.delete, .deleteIngest v job)]
  | ["jobs", "ingest", job, "batches"] => some [(.put, .upload v job)]
  | ["jobs", "ingest", job, "successfulResults"] => some [(.get, .successfulResults v job)]
  | ["jobs", "ingest", job, "failedResults"] => some [(.get, .failedResults v job)]
  | ["jobs", "ingest", job, "unprocessedrecords"] => some [(.get, .unprocessedRecords v job)]
  | ["jobs", "query"] => some [(.get, .listQueries v), (.post, .createQuery v)]
  | ["jobs", "query", job] => some [
      (.get, .getQuery v job),
      (.patch, .changeQuery v job),
      (.delete, .deleteQuery v job)]
  | ["jobs", "query", job, "results"] => some [(.get, .queryResults v job)]
  | _ => none

/-- The calls under the asynchronous interface. -/
def asyncCalls? (v : String) : List String → Option (List (Method × Call String))
  | ["job"] => some [(.post, .createBatchJob v)]
  | ["job", job] => some [(.get, .getBatchJob v job), (.post, .changeBatchJob v job)]
  | ["job", job, "batch"] => some [(.get, .listBatches v job), (.post, .addBatch v job)]
  | ["job", job, "batch", batch] => some [(.get, .getBatch v job batch)]
  | ["job", job, "batch", batch, "result"] => some [(.get, .batchResults v job batch)]
  | _ => none

/-- The calls for inspection. -/
def adminCalls? : List String → Option (List (Method × Call String))
  | ["db"] => some [(.get, .allRecords)]
  | ["db", object] => some [(.get, .objectRecords object)]
  | ["reset"] => some [(.post, .reset)]
  | ["schemas"] => some [(.get, .allSchemas)]
  | ["bulk-jobs"] => some [(.get, .allJobs)]
  | ["events"] => some [(.get, .allEvents)]
  | ["streaming-clients"] => some [(.get, .allClients)]
  | ["health"] => some [(.get, .liveness)]
  | _ => none

/-- What the segments of a path offer. -/
def offerOf? : List String → Option Offer
  | [""] => some ⟨[(.get, .index)], .json⟩
  | ["health"] => some ⟨[(.get, .health)], .json⟩
  | ["services", "oauth2", "token"] => some ⟨[(.get, .token), (.post, .token)], .json⟩
  | "services" :: "data" :: version :: rest => (dataCalls? version rest).map (⟨·, .json⟩)
  | "services" :: "async" :: version :: rest => (asyncCalls? version rest).map (⟨·, .xml⟩)
  | ["cometd", version] => some ⟨[(.post, .stream version)], .json⟩
  | "__admin" :: rest => (adminCalls? rest).map (⟨·, .json⟩)
  | _ => none

/-- What a path offers.  A parameter may be empty, but not at the end of a path. -/
def offerAt? (path : List Char) : Option Offer :=
  match splitAtChar '/' path with
  | [] :: segments =>
    if segments.getLast? = some [] ∧ segments ≠ [[]] then none
    else offerOf? (segments.map String.ofList)
  | _ => none

/-- The call of a method; the head of an answer is offered wherever the answer is. -/
def Offer.call? (offer : Offer) (m : Method) : Option (Call String) :=
  (offer.calls.find? (·.1 == m.answered)).map (·.2)

/-! ## Parameters -/

/-- The names of the parameters of a call, with their segments in the order of the path. -/
def Call.parameters {α : Type} : Call α → List (String × α)
  | .index | .health | .token | .allRecords | .reset | .allSchemas | .allJobs | .allEvents
  | .allClients | .liveness => []
  | .query v | .search v | .limits v | .listDatasets v | .queryDataset v | .listIngests v
  | .createIngest v | .listQueries v | .createQuery v | .createBatchJob v | .stream v =>
    [("version", v)]
  | .createRecord v object | .describe v object => [("version", v), ("object", object)]
  | .getRecord v object id | .updateRecord v object id | .deleteRecord v object id =>
    [("version", v), ("object", object), ("id", id)]
  | .download v object field value | .upsertRecord v object field value =>
    [("version", v), ("object", object), ("ext_field", field), ("ext_value", value)]
  | .getDataset v dataset | .datasetVersions v dataset =>
    [("version", v), ("dataset_id", dataset)]
  | .getIngest v job | .changeIngest v job | .deleteIngest v job | .upload v job
  | .successfulResults v job | .failedResults v job | .unprocessedRecords v job | .getQuery v job
  | .changeQuery v job | .deleteQuery v job | .queryResults v job | .getBatchJob v job
  | .changeBatchJob v job | .listBatches v job | .addBatch v job =>
    [("version", v), ("job_id", job)]
  | .getBatch v job batch | .batchResults v job batch =>
    [("version", v), ("job_id", job), ("batch_id", batch)]
  | .objectRecords object => [("object", object)]

/-- The call with other parameters. -/
def Call.map {α β : Type} (f : α → β) : Call α → Call β
  | .index => .index
  | .health => .health
  | .token => .token
  | .query v => .query (f v)
  | .search v => .search (f v)
  | .limits v => .limits (f v)
  | .createRecord v o => .createRecord (f v) (f o)
  | .describe v o => .describe (f v) (f o)
  | .getRecord v o i => .getRecord (f v) (f o) (f i)
  | .updateRecord v o i => .updateRecord (f v) (f o) (f i)
  | .deleteRecord v o i => .deleteRecord (f v) (f o) (f i)
  | .download v o i x => .download (f v) (f o) (f i) (f x)
  | .upsertRecord v o x y => .upsertRecord (f v) (f o) (f x) (f y)
  | .listDatasets v => .listDatasets (f v)
  | .getDataset v d => .getDataset (f v) (f d)
  | .datasetVersions v d => .datasetVersions (f v) (f d)
  | .queryDataset v => .queryDataset (f v)
  | .listIngests v => .listIngests (f v)
  | .createIngest v => .createIngest (f v)
  | .getIngest v j => .getIngest (f v) (f j)
  | .changeIngest v j => .changeIngest (f v) (f j)
  | .deleteIngest v j => .deleteIngest (f v) (f j)
  | .upload v j => .upload (f v) (f j)
  | .successfulResults v j => .successfulResults (f v) (f j)
  | .failedResults v j => .failedResults (f v) (f j)
  | .unprocessedRecords v j => .unprocessedRecords (f v) (f j)
  | .listQueries v => .listQueries (f v)
  | .createQuery v => .createQuery (f v)
  | .getQuery v j => .getQuery (f v) (f j)
  | .changeQuery v j => .changeQuery (f v) (f j)
  | .deleteQuery v j => .deleteQuery (f v) (f j)
  | .queryResults v j => .queryResults (f v) (f j)
  | .createBatchJob v => .createBatchJob (f v)
  | .getBatchJob v j => .getBatchJob (f v) (f j)
  | .changeBatchJob v j => .changeBatchJob (f v) (f j)
  | .listBatches v j => .listBatches (f v) (f j)
  | .addBatch v j => .addBatch (f v) (f j)
  | .getBatch v j b => .getBatch (f v) (f j) (f b)
  | .batchResults v j b => .batchResults (f v) (f j) (f b)
  | .stream v => .stream (f v)
  | .allRecords => .allRecords
  | .objectRecords o => .objectRecords (f o)
  | .reset => .reset
  | .allSchemas => .allSchemas
  | .allJobs => .allJobs
  | .allEvents => .allEvents
  | .allClients => .allClients
  | .liveness => .liveness

/-- The decoded call, or the name of the first parameter whose bytes make no text. -/
def Call.decode (call : Call String) : Except String (Call String) :=
  match call.parameters.find? fun (_, segment) => (Percent.decode? segment.toList).isNone with
  | some (name, _) => .error name
  | none => .ok (call.map fun segment => (Percent.decode? segment.toList).getD "")

end CrmEmulator.Http
