import CrmEmulator.Org.BulkJobs
import CrmEmulator.Org.Content
import CrmEmulator.Org.Description
import CrmEmulator.Org.Overview
import CrmEmulator.Org.Records
import CrmEmulator.Proofs.Analytics.Aggregates

/-!
# CrmEmulator.Proofs.Org.Failures — every failure of a request names an error

A failure is answered as the list of its errors.  Only a failure for violations could have none, and
it is raised for violations that were found.

1. `Ends`: a computation whose results have a property, and whose failures all have something to
   say; it is built up along the steps of the computation.  Running a program may also be broken
   off.
2. One lemma for each operation of an organisation that can fail.
-/

namespace CrmEmulator

variable {ε α β : Type}

/-! ## Computations that may fail -/

/-- Every result has a property, and so has whatever ends the computation without one. -/
structure EndsWith (P : α → Prop) (E : ε → Prop) (x : Except ε α) : Prop where
  ok : ∀ a, x = .ok a → P a
  error : ∀ e, x = .error e → E e

/-- Every result has a property, and every failure shows at least one error. -/
abbrev Ends (P : α → Prop) (x : Except Failure α) : Prop := EndsWith P (fun e => e.bodies ≠ []) x

/-- Every failure shows at least one error. -/
abbrev Voiced (x : Except Failure α) : Prop := Ends (fun _ => True) x

/-- Work that may be broken off shows at least one error if it fails. -/
def Halt.IsVoiced : Halt → Prop
  | .failure e => e.bodies ≠ []
  | .overflow => True

section EndsWith

variable {P : α → Prop} {E : ε → Prop} {x : Except ε α}

/-- A result with the property ends well. -/
theorem ends_ok {a : α} (h : P a) : EndsWith P E (.ok a) where
  ok _ heq := by
    cases heq
    exact h
  error _ heq := by cases heq

theorem voiced_ok (a : α) : EndsWith (fun _ => True) E (.ok a) := ends_ok trivial

/-- A failure with the property ends well, too. -/
theorem ends_error {e : ε} (h : E e) : EndsWith P E (.error e) where
  ok _ heq := by cases heq
  error _ heq := by
    cases heq
    exact h

/-- The step after a computation may rely on what is known of its result. -/
theorem EndsWith.andThen {Q : β → Prop} {f : α → Except ε β} (hx : EndsWith P E x)
    (hf : ∀ a, P a → EndsWith Q E (f a)) : EndsWith Q E (x >>= f) := by
  cases x with
  | error e => exact ends_error (hx.error e rfl)
  | ok a => exact hf a (hx.ok a rfl)

theorem EndsWith.bind {Q : β → Prop} {f : α → Except ε β} (hx : EndsWith P E x)
    (hf : ∀ a, EndsWith Q E (f a)) : EndsWith Q E (x >>= f) :=
  hx.andThen fun a _ => hf a

/-- What is made of a result is a result again. -/
theorem EndsWith.map (hx : EndsWith P E x) (f : α → β) :
    EndsWith (fun _ => True) E (f <$> x) := by
  cases x with
  | error e => exact ends_error (hx.error e rfl)
  | ok a => exact voiced_ok (f a)

/-- What ends a computation may be said in other words. -/
theorem EndsWith.mapError {ε' : Type} {E' : ε' → Prop} {f : ε → ε'} (hx : EndsWith P E x)
    (hf : ∀ e, E e → E' (f e)) : EndsWith P E' (x.mapError f) := by
  cases x with
  | error e => exact ends_error (hf e (hx.error e rfl))
  | ok a => exact ends_ok (hx.ok a rfl)

/-- A list of calls fails as one of them does. -/
theorem endsWith_mapM {f : α → Except ε β} (hf : ∀ a, EndsWith (fun _ => True) E (f a))
    (l : List α) : EndsWith (fun _ => True) E (l.mapM f) := by
  induction l with
  | nil => exact voiced_ok []
  | cons a l ih =>
    rw [List.mapM_cons]
    exact (hf a).bind fun _ => ih.bind fun _ => voiced_ok _

/-- A loop fails as one of its rounds does. -/
theorem endsWith_foldlM {f : β → α → Except ε β}
    (hf : ∀ b a, EndsWith (fun _ => True) E (f b a)) (l : List α) (b : β) :
    EndsWith (fun _ => True) E (l.foldlM f b) := by
  induction l generalizing b with
  | nil => exact voiced_ok b
  | cons a l ih =>
    rw [List.foldlM_cons]
    exact (hf b a).bind ih

end EndsWith

variable {P : α → Prop} {x : Except Failure α}

/-- A failure for one reason shows one error. -/
theorem ends_single {e : Failure} {body : ErrorBody} (h : e.bodies = [body]) :
    Ends P (.error e) :=
  ends_error (by rw [h]; exact List.cons_ne_nil _ _)

/-- A condition under which a computation is refused with one error. -/
theorem EndsWith.unless {refused : Prop} [Decidable refused] {e : Failure} {body : ErrorBody}
    (hx : Ends P x) (h : e.bodies = [body]) : Ends P (if refused then .error e else x) := by
  split
  · exact ends_single h
  · exact hx

/-- Failures of another kind are shown as failures with an error each. -/
theorem voiced_mapError {y : Except ε α} {f : ε → Failure}
    (hf : ∀ e, (f e).bodies ≠ []) : Voiced (y.mapError f) := by
  cases y with
  | error e => exact ends_error (hf e)
  | ok a => exact voiced_ok a

/-! ## Looking up -/

/-- An object that is not in the catalog is named in the failure. -/
theorem voiced_require (c : Catalog) (name : String) : Voiced (c.require name) := by
  unfold Catalog.require
  split
  · exact voiced_ok _
  · exact ends_single rfl

theorem voiced_collection (s : Store) (object : String) : Voiced (s.collection object) := by
  unfold Store.collection
  split
  · exact voiced_ok _
  · exact ends_single rfl

theorem voiced_get (jobs : Jobs) (id : String) : Voiced (jobs.get id) := by
  unfold Jobs.get
  split
  · exact voiced_ok _
  · exact ends_single rfl

theorem voiced_remove (jobs : Jobs) (id : String) : Voiced (jobs.remove id) := by
  unfold Jobs.remove
  split
  · exact voiced_ok _
  · exact ends_single rfl

namespace Job

theorem voiced_batches (j : Job) : Voiced j.batches := by
  unfold batches
  split
  · exact voiced_ok _
  · exact ends_single rfl

theorem voiced_ingestData (j : Job) : Voiced j.ingestData := by
  unfold ingestData
  split
  · exact voiced_ok _
  · exact ends_single rfl

theorem voiced_queryData (j : Job) : Voiced j.queryData := by
  unfold queryData
  split
  · exact voiced_ok _
  · exact ends_single rfl

end Job

/-! ## Queries -/

/-- A query that is refused is answered with one error. -/
theorem QueryFault.bodies_failure (fault : QueryFault) : fault.failure.bodies ≠ [] :=
  List.cons_ne_nil _ _

namespace Store

variable (s : Store) (c : Catalog)

theorem voiced_run (q : Soql) : Voiced (s.run c q) := by
  unfold run
  split
  · exact (voiced_collection s q.object).bind fun _ => voiced_ok _
  · exact ends_single rfl

theorem voiced_query (text version : String) : Voiced (s.query c text version) := by
  refine (voiced_mapError QueryFault.bodies_failure).bind fun q => ?_
  refine (s.voiced_run c q).bind fun records => ?_
  split <;> exact voiced_ok _

theorem voiced_search (text version : String) : Voiced (s.search c text version) := by
  refine (voiced_mapError QueryFault.bodies_failure).bind fun q => ?_
  have hobject (spec : Returning) : Voiced (s.searchObject c q version spec) := by
    unfold searchObject
    split
    · exact (voiced_collection s spec.object).bind fun _ => voiced_ok _
    · exact voiced_ok []
  exact (endsWith_mapM hobject q.returning).bind fun _ => voiced_ok _

end Store

/-! ## Programs -/

/-- Work that only an overflow can stop shows all its failures, for it has none. -/
theorem YieldsIf.voiced {p : Prop} {y : Except Halt α} (h : YieldsIf p y) :
    EndsWith (fun _ => True) Halt.IsVoiced y := by
  by_cases hp : p
  · obtain ⟨a, rfl⟩ := h.ok hp
    exact voiced_ok a
  · rw [h.overflow hp]
    exact ends_error trivial

theorem Stream.voiced_toRows (stepName : String) (stream : Stream) :
    EndsWith (fun _ => True) Halt.IsVoiced (stream.toRows stepName) := by
  cases stream with
  | rows => exact voiced_ok _
  | groups => exact ends_error (List.cons_ne_nil _ _)

theorem voiced_projectGroup (items : List Saql.Item) (key : Record) (rows : List Record) :
    EndsWith (fun _ => True) Halt.IsVoiced (projectGroup items key rows) :=
  (yieldsIf_projectGroup items key rows).voiced

theorem voiced_projectRows (items : List Saql.Item) (rows : List Record) :
    EndsWith (fun _ => True) Halt.IsVoiced (projectRows items rows) := by
  unfold projectRows
  split
  · exact (voiced_projectGroup items .empty rows).map _
  · exact endsWith_mapM (fun row => voiced_projectGroup items row []) rows

theorem Saql.Step.voiced_apply (step : Saql.Step) (stream : Stream) :
    EndsWith (fun _ => True) Halt.IsVoiced (step.apply stream) := by
  cases step with
  | generate items =>
    cases stream with
    | rows rows => exact (voiced_projectRows items rows).map _
    | groups groups =>
      exact (endsWith_mapM (fun g => voiced_projectGroup items g.key g.rows) groups).map _
  | filter | group | order | limit => exact (stream.voiced_toRows _).bind fun _ => voiced_ok _

theorem Saql.Program.voiced_run (p : Saql.Program) (rows : List Record) :
    EndsWith (fun _ => True) Halt.IsVoiced (p.run rows) := by
  refine (endsWith_foldlM (fun stream step => step.voiced_apply stream) p.steps _).bind ?_
  exact Stream.voiced_toRows "the query result"

namespace Datasets

/-- A data set that is not there is named in the failure. -/
theorem voiced_get (s : Datasets) (id : String) : Voiced (s.get id) := by
  unfold get
  split
  · exact voiced_ok _
  · exact ends_single rfl

theorem voiced_resolve (s : Datasets) (reference : String) : Voiced (s.resolve reference) := by
  unfold resolve
  simp only
  split
  · exact voiced_ok _
  · exact ends_single rfl

theorem voiced_getJson (s : Datasets) (version id : String) : Voiced (s.getJson version id) :=
  (s.voiced_get id).bind fun _ => voiced_ok _

theorem voiced_getVersionsJson (s : Datasets) (version id : String) :
    Voiced (s.getVersionsJson version id) :=
  (s.voiced_get id).bind fun _ => voiced_ok _

theorem voiced_runText (s : Datasets) (text : String) :
    EndsWith (fun _ => True) Halt.IsVoiced (s.runText text) := by
  have hparsed : EndsWith (fun _ => True) Halt.IsVoiced
      ((Saql.Program.parse text).mapError fun fault => Halt.failure fault.failure) := by
    cases Saql.Program.parse text with
    | error fault => exact ends_error fault.bodies_failure
    | ok p => exact voiced_ok p
  have hresolved (p : Saql.Program) : EndsWith (fun _ => True) Halt.IsVoiced
      ((s.resolve p.dataset).mapError Halt.failure) :=
    (s.voiced_resolve p.dataset).mapError fun _ h => h
  exact hparsed.bind fun p => (hresolved p).bind fun d => p.voiced_run d.rows

theorem voiced_query (s : Datasets) (supply : Supply) (text : String) :
    EndsWith (fun _ => True) Halt.IsVoiced (s.query supply text).1 := by
  unfold query
  split
  · next halt h => exact ends_error ((s.voiced_runText text).error halt h)
  · exact voiced_ok _

end Datasets

namespace Org

/-! ## Records -/

theorem voiced_bodyFields (body : Json) : Voiced (bodyFields body) := by
  unfold bodyFields
  split
  · exact voiced_ok _
  split
  · exact voiced_ok _
  · exact ends_single rfl

/-- Violations are raised only if there are some, and then each is shown. -/
theorem voiced_check (s : Schema) (mode : WriteMode) (fields : Record) :
    Voiced (check s mode fields) := by
  unfold check
  split
  · exact voiced_ok _
  · next hfound => exact ends_error (by simpa [Failure.bodies] using hfound)

variable (o : Org)

/-- Publishing fails as reading its fields does. -/
theorem voiced_publishEvent (object : String) (body : Json) : Voiced (o.publishEvent object body) :=
  (voiced_bodyFields body).bind fun _ => voiced_ok _

theorem voiced_addRecord (s : Schema) (object : String) (fields : Record) :
    Voiced (o.addRecord s object fields) := by
  have hinsert (r : Record) : Voiced (o.store.insert object r) :=
    (voiced_collection o.store object).bind fun _ => voiced_ok _
  exact (hinsert _).bind fun _ => voiced_ok _

theorem voiced_createRecord (object : String) (body : Json) :
    Voiced (o.createRecord object body) := by
  unfold createRecord
  split
  · exact o.voiced_publishEvent object body
  · refine (voiced_require o.catalog object).bind fun s => ?_
    refine (voiced_bodyFields body).bind fun fields => ?_
    exact (voiced_check s .create fields).bind fun _ => o.voiced_addRecord s object fields

theorem voiced_getRecord (version object id : String) : Voiced (o.getRecord version object id) := by
  refine (voiced_require o.catalog object).bind fun _ => ?_
  refine (voiced_collection o.store object).bind fun c => ?_
  split
  · exact voiced_ok _
  · exact ends_single rfl

theorem voiced_updateRecord (object id : String) (body : Json) :
    Voiced (o.updateRecord object id body) := by
  refine (voiced_require o.catalog object).bind fun s => ?_
  refine (voiced_collection o.store object).bind fun c => ?_
  split
  · exact ends_single rfl
  · refine (voiced_bodyFields body).bind fun fields => ?_
    exact (voiced_check s .update fields).bind fun _ => voiced_ok _

theorem voiced_deleteRecord (object id : String) : Voiced (o.deleteRecord object id) := by
  refine (voiced_require o.catalog object).bind fun _ => ?_
  refine (voiced_collection o.store object).bind fun c => ?_
  split
  · exact ends_single rfl
  · exact voiced_ok _

theorem voiced_upsertRecord (object field text : String) (body : Json) :
    Voiced (o.upsertRecord object field text body) := by
  refine (voiced_require o.catalog object).bind fun s => ?_
  refine (voiced_bodyFields body).bind fun fields => ?_
  refine (voiced_collection o.store object).bind fun c => ?_
  split
  · exact (voiced_check s .update fields).bind fun _ => voiced_ok _
  · refine (voiced_check s .create _).bind fun _ => ?_
    exact (o.voiced_addRecord s object _).bind fun _ => voiced_ok _

theorem voiced_describe (version object : String) : Voiced (o.describe version object) :=
  (voiced_require o.catalog object).bind fun _ => voiced_ok _

theorem voiced_objectJson (object : String) : Voiced (o.objectJson object) := by
  unfold objectJson
  split
  · exact (voiced_collection o.store object).bind fun _ => voiced_ok _
  · exact ends_single rfl

theorem voiced_download (object id field : String) : Voiced (o.download object id field) := by
  unfold download
  split
  · exact ends_single rfl
  split
  · next r _ =>
    simp only [Download.ofRecord, ok_bind, error_bind]
    split
    · split
      · exact voiced_ok _
      · exact ends_single rfl
    · exact ends_single rfl
  · exact ends_single rfl

/-! ## Jobs with uploaded rows -/

theorem voiced_rowState (object : String) : Voiced (o.rowState object) :=
  (voiced_collection o.store object).bind fun _ => voiced_ok _

theorem voiced_ingestJob (id : String) : Voiced (o.ingestJob id) :=
  (voiced_get o.jobs id).bind fun j => j.voiced_ingestData.bind fun _ => voiced_ok _

theorem voiced_createIngest (r : Ingest.Request) : Voiced (o.createIngest r) := by
  have hcreate : Voiced (Ingest.create o.catalog o.supply o.settings.apiVersion r) := by
    simp only [Ingest.create, ok_bind, error_bind]
    split
    · split
      · exact ends_single rfl
      split
      · split
        · exact ends_single rfl
        · exact voiced_ok _
      · exact ends_single rfl
    · exact ends_single rfl
  exact hcreate.bind fun _ => voiced_ok _

theorem voiced_upload (id body : String) : Voiced (o.upload id body) := by
  have hupload (j : Job) : Voiced (Ingest.upload j o.supply.now body) :=
    ((j.voiced_ingestData.bind fun _ => voiced_ok _).unless rfl).unless rfl
  exact (o.voiced_ingestJob id).bind fun j => (hupload j).bind fun _ => voiced_ok _

theorem voiced_closeIngest (id : String) : Voiced (o.closeIngest id) := by
  have hclose (j : Job) : Voiced (Ingest.close j o.supply.now) := (voiced_ok _).unless rfl
  exact (o.voiced_ingestJob id).bind fun j => (hclose j).bind fun _ => voiced_ok _

theorem voiced_abortIngest (id : String) : Voiced (o.abortIngest id) := by
  have habort (j : Job) : Voiced (Ingest.abort j o.supply.now) := (voiced_ok _).unless rfl
  exact (o.voiced_ingestJob id).bind fun j => (habort j).bind fun _ => voiced_ok _

theorem voiced_processIngest (id : String) : Voiced (o.processIngest id) := by
  refine (o.voiced_ingestJob id).bind fun j => ?_
  refine (voiced_require o.catalog j.object).bind fun s => ?_
  exact (o.voiced_rowState j.object).bind fun _ => voiced_ok _

theorem voiced_changeIngest (id state : String) : Voiced (o.changeIngest id state) := by
  unfold changeIngest
  refine (o.voiced_ingestJob id).bind fun _ => ?_
  split
  · refine (o.voiced_closeIngest id).bind fun closed => ?_
    refine (closed.voiced_processIngest id).bind fun o => ?_
    exact (o.voiced_ingestJob id).bind fun _ => voiced_ok _
  · refine (o.voiced_abortIngest id).bind fun o => ?_
    exact (o.voiced_ingestJob id).bind fun _ => voiced_ok _
  · exact ends_single rfl

/-- Deleting a job fails as finding it does. -/
theorem voiced_deleteIngest (id : String) : Voiced (o.deleteIngest id) :=
  (o.voiced_ingestJob id).bind fun _ => (voiced_remove o.jobs id).bind fun _ => voiced_ok _

theorem voiced_ensureFinished (j : Job) : Voiced (Ingest.ensureFinished j) := by
  unfold Ingest.ensureFinished
  split
  · exact voiced_ok _
  · exact voiced_ok _
  · exact ends_single rfl

theorem voiced_successfulResults (j : Job) : Voiced (Ingest.successfulResults j) :=
  (voiced_ensureFinished j).bind fun _ => j.voiced_ingestData.bind fun _ => voiced_ok _

theorem voiced_failedResults (j : Job) : Voiced (Ingest.failedResults j) :=
  (voiced_ensureFinished j).bind fun _ => j.voiced_ingestData.bind fun _ => voiced_ok _

theorem voiced_unprocessedRecords (j : Job) : Voiced (Ingest.unprocessedRecords j) :=
  j.voiced_ingestData.bind fun _ => voiced_ok _

/-! ## Jobs that run a query -/

theorem voiced_queryJob (id : String) : Voiced (o.queryJob id) :=
  (voiced_get o.jobs id).bind fun j => j.voiced_queryData.bind fun _ => voiced_ok _

/-- A query that fails is kept with its job; only the request itself can be refused. -/
theorem voiced_createQuery (r : QueryJob.Request) : Voiced (o.createQuery r) := by
  have hcreate : Voiced
      (QueryJob.create o.catalog o.store o.supply o.settings.apiVersion r) := by
    simp only [QueryJob.create, ok_bind, error_bind]
    split
    · split
      · exact voiced_ok _
      split
      · exact voiced_ok _
      · exact ends_single rfl
    · exact ends_single rfl
  exact hcreate.bind fun _ => voiced_ok _

theorem voiced_changeQuery (id state : String) : Voiced (o.changeQuery id state) := by
  have hchange (j : Job) : Voiced (QueryJob.changeState j o.supply.now state) :=
    (voiced_ok _).unless rfl
  exact (o.voiced_queryJob id).bind fun j => (hchange j).bind fun _ => voiced_ok _

theorem voiced_deleteQuery (id : String) : Voiced (o.deleteQuery id) :=
  (o.voiced_queryJob id).bind fun _ => (voiced_remove o.jobs id).bind fun _ => voiced_ok _

theorem voiced_queryResults (id : String) : Voiced (o.queryResults id) := by
  have hresults (j : Job) : Voiced (QueryJob.results j) :=
    (j.voiced_queryData.bind fun _ => voiced_ok _).unless rfl
  exact (o.voiced_queryJob id).bind fun j => (hresults j).bind fun _ => voiced_ok _

/-! ## Jobs with batches -/

theorem voiced_batchJob (id : String) : Voiced (o.batchJob id) :=
  (voiced_get o.jobs id).bind fun j => j.voiced_batches.bind fun _ => voiced_ok _

theorem voiced_createBatchJob (xml : String) : Voiced (o.createBatchJob xml) := by
  have hcreate : Voiced (Legacy.create o.catalog o.supply o.settings.apiVersion xml) := by
    simp only [Legacy.create, ok_bind, error_bind]
    split
    · split
      · split
        · split
          · exact ends_single rfl
          · exact voiced_ok _
        · exact ends_single rfl
      · exact ends_single rfl
    · exact ends_single rfl
  exact hcreate.bind fun _ => voiced_ok _

theorem voiced_changeBatchJob (id xml : String) : Voiced (o.changeBatchJob id xml) := by
  have hchange (j : Job) (bs : List Batch) (target : String) :
      Voiced (Legacy.changeState j bs o.supply.now target) := by
    unfold Legacy.changeState
    split
    · exact voiced_ok _
    · exact voiced_ok _
    · exact voiced_ok _
    · exact ends_single rfl
  unfold changeBatchJob
  split
  · refine (voiced_ok _).bind fun target => ?_
    refine (o.voiced_batchJob id).bind fun ⟨j, bs⟩ => ?_
    exact (hchange j bs target).bind fun j => j.voiced_batches.bind fun _ => voiced_ok _
  · exact ends_single rfl

/-- A payload that cannot be read makes a failed batch; the request is refused only if the job takes
no batches. -/
theorem voiced_addBatch (id body : String) : Voiced (o.addBatch id body) := by
  have hadd (j : Job) (bs : List Batch) (s : Schema) (st : RowState) :
      Voiced (Legacy.addBatch j bs s st body) := (voiced_ok _).unless rfl
  refine (o.voiced_batchJob id).bind fun ⟨j, bs⟩ => ?_
  refine (voiced_require o.catalog j.object).bind fun s => ?_
  exact (o.voiced_rowState j.object).bind fun st => (hadd j bs s st).bind fun _ => voiced_ok _

theorem voiced_findBatch (bs : List Batch) (id : String) : Voiced (Legacy.findBatch bs id) := by
  unfold Legacy.findBatch
  split
  · exact voiced_ok _
  · exact ends_single rfl

theorem voiced_batchJobDocument (id : String) : Voiced (o.batchJobDocument id) :=
  (o.voiced_batchJob id).bind fun _ => voiced_ok _

theorem voiced_batchList (id : String) : Voiced (o.batchList id) :=
  (o.voiced_batchJob id).bind fun _ => voiced_ok _

theorem voiced_batchDocument (id batch : String) : Voiced (o.batchDocument id batch) :=
  (o.voiced_batchJob id).bind fun ⟨_, bs⟩ => (voiced_findBatch bs batch).bind fun _ => voiced_ok _

theorem voiced_batchResults (id batch : String) : Voiced (o.batchResults id batch) := by
  refine (o.voiced_batchJob id).bind fun ⟨j, bs⟩ => ?_
  refine (voiced_findBatch bs batch).bind fun b => ?_
  unfold Legacy.batchResults
  split
  · split <;> exact voiced_ok _
  · split <;> exact voiced_ok _
  · exact ends_single rfl

end Org

end CrmEmulator
