import CrmEmulator.Org.BulkJobs
import CrmEmulator.Proofs.Org.Records

/-!
# CrmEmulator.Proofs.Org.Rows — the rows that a bulk job processes

Both generations of jobs write records in the same way: rows are typed by the schema of the object
of the job, and processed one after the other.

1. `RowBatch`: rows, with all that decides what becomes of them, and what the first few of them
   leave.
2. The batch of an upload that is complete, and that of a payload that is added to an open job.
3. `Processed`: a job that is processed, or that takes a payload, changes the records in no other
   way than its batch does.
-/

namespace CrmEmulator

/-! ## Batches of rows -/

/-- Typed rows of one object, how they are processed, and what they find. -/
structure RowBatch where
  object : String
  processor : RowProcessor
  before : RowState
  rows : List Record

namespace RowBatch

/-- What becomes of every row. -/
def results (b : RowBatch) : List RowResult := (b.processor.processAll b.before b.rows).1

/-- What the rows leave. -/
def after (b : RowBatch) : RowState := (b.processor.processAll b.before b.rows).2

/-- A batch writes records one after the other. -/
theorem writes (b : RowBatch) : Writes b.processor.schema b.before b.after :=
  b.processor.processAll_writes b.before b.rows

/-! ### Row by row -/

/-- What the first rows leave. -/
def stateAfter (b : RowBatch) (n : Nat) : RowState :=
  (b.processor.processAll b.before (b.rows.take n)).2

/-- The store that the first rows leave. -/
def storeAfter (b : RowBatch) (s : Store) (n : Nat) : Store :=
  s.setCollection b.object (b.stateAfter n).collection

theorem stateAfter_length (b : RowBatch) : b.stateAfter b.rows.length = b.after := by
  rw [stateAfter, List.take_length, after]

/-- A row is processed in the state that the rows before it leave. -/
theorem stateAfter_succ (b : RowBatch) {n : Nat} (h : n < b.rows.length) :
    b.stateAfter (n + 1) = (b.processor.process (b.stateAfter n) b.rows[n]).2 := by
  rw [stateAfter, List.take_succ_eq_append_getElem h, RowProcessor.processAll_append]
  rfl

/-- The writes of a batch are those of its first rows, and then those of the others. -/
theorem writes_stateAfter (b : RowBatch) (n : Nat) :
    Writes b.processor.schema b.before (b.stateAfter n) ∧
      Writes b.processor.schema (b.stateAfter n) b.after := by
  have hafter : b.after = (b.processor.processAll (b.stateAfter n) (b.rows.drop n)).2 := by
    rw [after, stateAfter, ← RowProcessor.processAll_append, List.take_append_drop]
  rw [hafter]
  exact ⟨b.processor.processAll_writes _ _, b.processor.processAll_writes _ _⟩

end RowBatch

/-- The rows that a job will process: those of its upload, once it is complete. -/
def Ingest.pendingRows (j : Job) : List Record :=
  match j.state, j.payload with
  | .uploadComplete, .ingest data => (Csv.parse data.csv.toList).records
  | _, _ => []

/-- The rows of a payload for a job: none if it cannot be read, or if the job takes no payloads. -/
def Legacy.payloadRows (j : Job) (body : String) : List Record :=
  match j.state, j.payload, parsePayload (.ofContentType j.contentType) body.toList with
  | .open, .batches _, .ok rows => rows
  | _, _, _ => []

namespace Org

/-- A job is got exactly if it is there. -/
theorem get_eq_ok {jobs : Jobs} {id : String} {j : Job} :
    jobs.get id = .ok j ↔ jobs.get? id = some j := by
  unfold Jobs.get
  split
  · next h => simp [h]
  · next h => simp [h]

/-- An ingest job that is found is there. -/
theorem ingestJob_ok {o : Org} {id : String} {j : Job} (h : o.ingestJob id = .ok j) :
    o.jobs.get? id = some j := by
  unfold ingestJob at h
  simp only [bind_eq_ok] at h
  rcases h with ⟨_, hj, _, -, heq⟩
  cases heq
  exact get_eq_ok.mp hj

/-- A batch job is found exactly if a job with batches is there. -/
theorem batchJob_eq_ok {o : Org} {id : String} {j : Job} {bs : List Batch} :
    o.batchJob id = .ok (j, bs) ↔ o.jobs.get? id = some j ∧ j.payload = .batches bs := by
  constructor
  · intro h
    unfold batchJob at h
    simp only [bind_eq_ok] at h
    rcases h with ⟨_, hj, _, hbs, heq⟩
    cases heq
    refine ⟨get_eq_ok.mp hj, ?_⟩
    unfold Job.batches at hbs
    split at hbs
    · next hpayload =>
      cases hbs
      exact hpayload
    · cases hbs
  · rintro ⟨hj, hbs⟩
    simp only [batchJob, get_eq_ok.mpr hj, ok_bind, Job.batches, hbs]
    rfl

/-- Rows for a job, in the present state of the records. -/
def rowsFor? (o : Org) (j : Job) (supply : Supply) (rows : List Record) : Option RowBatch := do
  let s ← o.catalog.find? j.object
  let c ← Store.lookup j.object o.store.collections
  return ⟨j.object, ⟨s, j.operation, j.externalId⟩, ⟨c, supply⟩, rows.map (typeRecord s)⟩

/-- The rows for a job are there exactly if its object has a definition and a collection. -/
theorem rowsFor?_eq_some {o : Org} {j : Job} {supply : Supply} {rows : List Record}
    {b : RowBatch} : o.rowsFor? j supply rows = some b ↔
      ∃ s c, o.catalog.find? j.object = some s ∧
        Store.lookup j.object o.store.collections = some c ∧
          b = ⟨j.object, ⟨s, j.operation, j.externalId⟩, ⟨c, supply⟩, rows.map (typeRecord s)⟩ := by
  simp [rowsFor?, Option.bind_eq_some_iff, eq_comm (a := b)]

/-- The rows that processing a job is about. -/
def uploadRows? (o : Org) (job : String) : Option RowBatch := do
  let j ← o.jobs.get? job
  o.rowsFor? j o.supply (Ingest.pendingRows j)

/-- The rows that adding a payload to a job is about.  The batch takes an id before they do. -/
def payloadRows? (o : Org) (job body : String) : Option RowBatch := do
  let j ← o.jobs.get? job
  o.rowsFor? j (o.supply.freshId Job.batchPrefix).2 (Legacy.payloadRows j body)

/-- The organisation after a batch of rows: the catalog is as before, and the records are as the
rows leave them. -/
structure Processed (o : Org) (b : RowBatch) (o' : Org) : Prop where
  schema : o.catalog.find? b.object = some b.processor.schema
  collection : Store.lookup b.object o.store.collections = some b.before.collection
  store : o'.store = o.store.setCollection b.object b.after.collection
  supply : o'.supply = b.after.supply
  catalog : o'.catalog = o.catalog

/-! ## Uploads -/

theorem ingest_object_finish (j : Job) (now csv : String) (results : List RowResult) :
    (Ingest.finish j now csv results).object = j.object := rfl

/-- Processing a job keeps its object, and does to the records what its rows do. -/
theorem ingest_process (j : Job) (s : Schema) (st : RowState) :
    (Ingest.process j s st).1.object = j.object ∧
      (Ingest.process j s st).2 = ((⟨s, j.operation, j.externalId⟩ : RowProcessor).processAll st
        ((Ingest.pendingRows j).map (typeRecord s))).2 := by
  unfold Ingest.process
  split
  · next data hstate hpayload =>
    simp only [Ingest.pendingRows, hstate, hpayload, RowProcessor.processRaw, and_true]
    exact ingest_object_finish _ _ _ _
  · next hidle =>
    have hrows : Ingest.pendingRows j = [] := by
      unfold Ingest.pendingRows
      split
      · next data hstate hpayload => exact (hidle data hstate hpayload).elim
      · rfl
    rw [hrows]
    exact ⟨rfl, rfl⟩

/-- An upload that is processed is processed as its batch. -/
theorem processIngest_ok {o o' : Org} {job : String} (h : o.processIngest job = .ok o') :
    ∃ b, o.uploadRows? job = some b ∧ o.Processed b o' := by
  unfold processIngest at h
  simp only [bind_eq_ok, rowState, pure, Except.pure] at h
  rcases h with ⟨j, hj, s, hschema, _, ⟨c, hc, hst⟩, heq⟩
  cases hst
  cases heq
  rw [require_eq_ok] at hschema
  rw [collection_eq_ok] at hc
  rcases ingest_process j s ⟨c, o.supply⟩ with ⟨hobject, hafter⟩
  have hb : o.rowsFor? j o.supply (Ingest.pendingRows j) = some _ :=
    rowsFor?_eq_some.mpr ⟨s, c, hschema, hc, rfl⟩
  have hjob := ingestJob_ok hj
  refine ⟨_, Option.bind_eq_some_iff.mpr ⟨j, hjob, hb⟩, hschema, hc, ?_,
    congrArg RowState.supply hafter, rfl⟩
  simp only [putJob, putRowState, hobject, hafter]
  rfl

/-! ## Payloads -/

/-- Adding a payload to a job keeps its object, and does to the records what its rows do. -/
theorem legacy_addBatch_ok {j j' : Job} {bs : List Batch} (hpayload : j.payload = .batches bs)
    {s : Schema} {st st' : RowState} {body : String} {b : Batch}
    (h : Legacy.addBatch j bs s st body = .ok (b, j', st')) :
    j'.object = j.object ∧
      st' = ((⟨s, j.operation, j.externalId⟩ : RowProcessor).processAll
        ⟨st.collection, (st.supply.freshId Job.batchPrefix).2⟩
        ((Legacy.payloadRows j body).map (typeRecord s))).2 := by
  unfold Legacy.addBatch at h
  split at h
  · cases h
  · next hopen =>
    have hstate : j.state = .open := Decidable.not_not.mp hopen
    cases hrows : Legacy.parsePayload (.ofContentType j.contentType) body.toList with
    | error e =>
      simp only [hrows] at h
      cases h
      refine ⟨rfl, ?_⟩
      simp [Legacy.payloadRows, hstate, hpayload, hrows, RowProcessor.processAll]
    | ok rows =>
      simp only [hrows] at h
      cases h
      refine ⟨rfl, ?_⟩
      simp [Legacy.payloadRows, hstate, hpayload, hrows, RowProcessor.processRaw]

/-- A payload that is taken is processed as its batch. -/
theorem addBatch_ok {o o' : Org} {job body document : String}
    (h : o.addBatch job body = .ok (document, o')) :
    ∃ b, o.payloadRows? job body = some b ∧ o.Processed b o' := by
  unfold addBatch at h
  simp only [bind_eq_ok, rowState, pure, Except.pure] at h
  rcases h with ⟨⟨j, bs⟩, hj, s, hschema, _, ⟨c, hc, hst⟩, ⟨batch, j', st⟩, hadd, heq⟩
  cases hst
  cases heq
  rw [batchJob_eq_ok] at hj
  rw [require_eq_ok] at hschema
  rw [collection_eq_ok] at hc
  rcases legacy_addBatch_ok hj.2 hadd with ⟨hobject, hafter⟩
  have hb : o.rowsFor? j (o.supply.freshId Job.batchPrefix).2 (Legacy.payloadRows j body) =
      some _ := rowsFor?_eq_some.mpr ⟨s, c, hschema, hc, rfl⟩
  refine ⟨_, Option.bind_eq_some_iff.mpr ⟨j, hj.1, hb⟩, hschema, hc, ?_,
    congrArg RowState.supply hafter, rfl⟩
  simp only [putJob, putRowState, hobject, hafter]
  rfl

end Org

end CrmEmulator
