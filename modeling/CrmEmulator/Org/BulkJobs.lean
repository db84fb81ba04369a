import CrmEmulator.Bulk.Ingest
import CrmEmulator.Bulk.Legacy
import CrmEmulator.Bulk.QueryJob
import CrmEmulator.Org.Basic

/-!
# CrmEmulator.Org.BulkJobs — bulk jobs of an organisation

1. Jobs that take uploaded rows.
2. Jobs that run a query.
3. Jobs with batches.

A job is only found by the interface of its own generation.
-/

namespace CrmEmulator

namespace Org

/-- The organisation after a job has changed. -/
def putJob (o : Org) (j : Job) : Org := { o with jobs := o.jobs.put j.id j }

/-- The organisation after a job was created with the next ids. -/
def addJob (o : Org) (j : Job) (supply : Supply) : Org :=
  { o with jobs := o.jobs.insert j, supply }

/-- What rows find: the collection of an object, and the supply. -/
def rowState (o : Org) (object : String) : Except Failure RowState := do
  return ⟨← o.store.collection object, o.supply⟩

/-- The organisation after rows were processed. -/
def putRowState (o : Org) (object : String) (st : RowState) : Org :=
  { o with store := o.store.setCollection object st.collection, supply := st.supply }

/-! ## Uploaded rows -/

def ingestJob (o : Org) (id : String) : Except Failure Job := do
  let j ← o.jobs.get id
  let _ ← j.ingestData
  return j

def createIngest (o : Org) (r : Ingest.Request) : Except Failure (Job × Org) := do
  let (j, supply) ← Ingest.create o.catalog o.supply o.settings.apiVersion r
  return (j, o.addJob j supply)

def upload (o : Org) (id body : String) : Except Failure Org := do
  return o.putJob (← Ingest.upload (← o.ingestJob id) o.supply.now body)

def closeIngest (o : Org) (id : String) : Except Failure Org := do
  return o.putJob (← Ingest.close (← o.ingestJob id) o.supply.now)

def abortIngest (o : Org) (id : String) : Except Failure Org := do
  return o.putJob (← Ingest.abort (← o.ingestJob id) o.supply.now)

/-- Process the rows of a job that was closed. -/
def processIngest (o : Org) (id : String) : Except Failure Org := do
  let j ← o.ingestJob id
  let s ← o.catalog.require j.object
  let (j, st) := Ingest.process j s (← o.rowState j.object)
  return (o.putRowState j.object st).putJob j

/-- Ask a job to take another state; when its upload is complete it is processed at once. -/
def changeIngest (o : Org) (id state : String) : Except Failure (Job × Org) := do
  let _ ← o.ingestJob id
  let o ← match state with
    | "UploadComplete" => do (← o.closeIngest id).processIngest id
    | "Aborted" => o.abortIngest id
    | _ => .error (.invalidField
        ("Invalid state: " ++ state ++ ". Must be UploadComplete or Aborted"))
  return (← o.ingestJob id, o)

def deleteIngest (o : Org) (id : String) : Except Failure Org := do
  let _ ← o.ingestJob id
  return { o with jobs := ← o.jobs.remove id }

/-! ## Queries -/

def queryJob (o : Org) (id : String) : Except Failure Job := do
  let j ← o.jobs.get id
  let _ ← j.queryData
  return j

def createQuery (o : Org) (r : QueryJob.Request) : Except Failure (Job × Org) := do
  let (j, supply) ← QueryJob.create o.catalog o.store o.supply o.settings.apiVersion r
  return (j, o.addJob j supply)

def changeQuery (o : Org) (id state : String) : Except Failure (Job × Org) := do
  let j ← QueryJob.changeState (← o.queryJob id) o.supply.now state
  return (j, o.putJob j)

def deleteQuery (o : Org) (id : String) : Except Failure Org := do
  let _ ← o.queryJob id
  return { o with jobs := ← o.jobs.remove id }

/-- The table of a query job, and the number of its records. -/
def queryResults (o : Org) (id : String) : Except Failure (String × Nat) := do
  let j ← o.queryJob id
  return (← QueryJob.results j, j.processed)

/-! ## Batches -/

/-- A job with batches, and its batches. -/
def batchJob (o : Org) (id : String) : Except Failure (Job × List Batch) := do
  let j ← o.jobs.get id
  return (j, ← j.batches)

def createBatchJob (o : Org) (xml : String) : Except Failure (String × Org) := do
  let (j, supply) ← Legacy.create o.catalog o.supply o.settings.apiVersion xml
  return (Legacy.jobDocument j [], o.addJob j supply)

def batchJobDocument (o : Org) (id : String) : Except Failure String := do
  let (j, bs) ← o.batchJob id
  return Legacy.jobDocument j bs

/-- Close or abort a job as a document says. -/
def changeBatchJob (o : Org) (id xml : String) : Except Failure (String × Org) := do
  let target ← match Xml.elementText? xml.toList "state" with
    | some target => .ok target
    | none => .error (.invalidField "state is required")
  let (j, bs) ← o.batchJob id
  let j ← Legacy.changeState j bs o.supply.now target
  return (Legacy.jobDocument j (← j.batches), o.putJob j)

def addBatch (o : Org) (id body : String) : Except Failure (String × Org) := do
  let (j, bs) ← o.batchJob id
  let s ← o.catalog.require j.object
  let (b, j, st) ← Legacy.addBatch j bs s (← o.rowState j.object) body
  return (Legacy.batchDocument b, (o.putRowState j.object st).putJob j)

def batchList (o : Org) (id : String) : Except Failure String := do
  let (_, bs) ← o.batchJob id
  return Legacy.batchListDocument bs

def batchDocument (o : Org) (id batch : String) : Except Failure String := do
  let (_, bs) ← o.batchJob id
  return Legacy.batchDocument (← Legacy.findBatch bs batch)

/-- The results of a batch with their content type. -/
def batchResults (o : Org) (id batch : String) : Except Failure (String × String) := do
  let (j, bs) ← o.batchJob id
  Legacy.batchResults j (← Legacy.findBatch bs batch)

end Org

end CrmEmulator
