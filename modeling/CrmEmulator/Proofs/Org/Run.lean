import CrmEmulator.Org.Overview
import CrmEmulator.Proofs.Org.Rows

/-!
# CrmEmulator.Proofs.Org.Run — an organisation under any sequence of requests

1. `Op`: a request that may write records or change jobs; whatever else goes on is one operation
   that has its way with the bus, the datasets and the supply.
2. `issued`: the ids that a run draws for records.
3. `Outcome`: what an operation does to the records, by its kind.
4. `Effect`: the same as writes to collections.  A batch is a sequence of writes, one for every row.
-/

namespace CrmEmulator

namespace Org

/-! ## Operations -/

/-- A request, or what happens between requests. -/
inductive Op
  | call (call : Call)
  | createIngest (request : Ingest.Request)
  | upload (job body : String)
  | closeIngest (job : String)
  | processIngest (job : String)
  | abortIngest (job : String)
  | deleteIngest (job : String)
  | createQuery (request : QueryJob.Request)
  | changeQuery (job state : String)
  | deleteQuery (job : String)
  | createBatchJob (xml : String)
  | changeBatchJob (job xml : String)
  | addBatch (job body : String)
  | reset
  /-- Time passes, and other requests publish events or draw on the supply. -/
  | elsewhere (bus : EventBus) (datasets : Datasets) (supply : Supply)

/-- The organisation after an operation that succeeds. -/
def attempt (o : Org) : Op → Except Failure Org
  | .call call => o.perform call
  | .createIngest request => (·.2) <$> o.createIngest request
  | .upload job body => o.upload job body
  | .closeIngest job => o.closeIngest job
  | .processIngest job => o.processIngest job
  | .abortIngest job => o.abortIngest job
  | .deleteIngest job => o.deleteIngest job
  | .createQuery request => (·.2) <$> o.createQuery request
  | .changeQuery job state => (·.2) <$> o.changeQuery job state
  | .deleteQuery job => o.deleteQuery job
  | .createBatchJob xml => (·.2) <$> o.createBatchJob xml
  | .changeBatchJob job xml => (·.2) <$> o.changeBatchJob job xml
  | .addBatch job body => (·.2) <$> o.addBatch job body
  | .reset => .ok o.reset.2
  | .elsewhere bus datasets supply => .ok { o with bus, datasets, supply }

/-- The organisation after an operation; one that fails changes nothing. -/
def step (o : Org) (op : Op) : Org :=
  match o.attempt op with
  | .ok o' => o'
  | .error _ => o

/-- The organisation after operations one after the other. -/
def run (o : Org) (ops : List Op) : Org := ops.foldl step o

@[simp] theorem run_nil (o : Org) : o.run [] = o := rfl

@[simp] theorem run_cons (o : Org) (op : Op) (ops : List Op) :
    o.run (op :: ops) = (o.step op).run ops := rfl

/-- A run of two lists of operations is the second list run after the first. -/
theorem run_append (o : Org) (ops more : List Op) : o.run (ops ++ more) = (o.run ops).run more :=
  List.foldl_append

/-- A step is the operation where that succeeds. -/
theorem step_of_ok {o o' : Org} {op : Op} (h : o.attempt op = .ok o') : o.step op = o' := by
  simp [step, h]

/-- Asking a job for another state is closing and processing it, or aborting it. -/
theorem changeIngest_run {o o' : Org} {id state : String} {j : Job}
    (h : o.changeIngest id state = .ok (j, o')) :
    o' = o.run [.closeIngest id, .processIngest id] ∨ o' = o.run [.abortIngest id] := by
  unfold changeIngest at h
  rcases bind_eq_ok.mp h with ⟨_, -, h⟩
  split at h
  · simp only [bind_eq_ok] at h
    rcases h with ⟨closed, hclose, _, hprocess, _, -, heq⟩
    cases heq
    have hclosed : o.step (.closeIngest id) = closed := step_of_ok hclose
    have hprocessed : closed.step (.processIngest id) = o' := step_of_ok hprocess
    exact .inl (by rw [run_cons, run_cons, run_nil, hclosed, hprocessed])
  · simp only [bind_eq_ok] at h
    rcases h with ⟨_, habort, _, -, heq⟩
    cases heq
    have haborted : o.step (.abortIngest id) = o' := step_of_ok habort
    exact .inr (by rw [run_cons, run_nil, haborted])
  · cases h

/-! ## Ids of records -/

/-- The prefix of the ids that are drawn for an object. -/
def idPrefix (o : Org) (object : String) : String :=
  ((o.catalog.find? object).map (·.idPrefix)).getD eventPrefix

theorem idPrefix_of_find? {o : Org} {object : String} {s : Schema}
    (h : o.catalog.find? object = some s) : o.idPrefix object = s.idPrefix := by
  simp [idPrefix, h]

/-- The object of a job. -/
def jobObject (o : Org) (job : String) : String :=
  match o.jobs.get job with
  | .ok j => j.object
  | .error _ => ""

/-- The ids that an operation draws for records.  A batch draws its own id before those of its
rows. -/
def idsOf (o : Org) (op : Op) : List String :=
  match op with
  | .call call => Supply.drawn (o.idPrefix call.object) o.supply (o.step op).supply
  | .processIngest job => Supply.drawn (o.idPrefix (o.jobObject job)) o.supply (o.step op).supply
  | .addBatch job _ =>
    Supply.drawn (o.idPrefix (o.jobObject job)) (o.supply.freshId Job.batchPrefix).2
      (o.step op).supply
  | _ => []

/-- The ids that are drawn for records in the course of operations, in order. -/
def issued : Org → List Op → List String
  | _, [] => []
  | o, op :: ops => o.idsOf op ++ issued (o.step op) ops

/-! ## Outcomes -/

/-- The rows that an operation processes. -/
def rowBatch? (o : Org) : Op → Option RowBatch
  | .processIngest job => o.uploadRows? job
  | .addBatch job body => o.payloadRows? job body
  | _ => none

/-- The rows of an operation are those of a job. -/
theorem exists_rowsFor {o : Org} {op : Op} {b : RowBatch} (hb : o.rowBatch? op = some b) :
    ∃ j supply rows, o.rowsFor? j supply rows = some b := by
  cases op with
  | processIngest job =>
    rcases Option.bind_eq_some_iff.mp hb with ⟨j, -, hrows⟩
    exact ⟨j, _, _, hrows⟩
  | addBatch job body =>
    rcases Option.bind_eq_some_iff.mp hb with ⟨j, -, hrows⟩
    exact ⟨j, _, _, hrows⟩
  | _ => cases hb

/-- What an operation does to the records, by its kind. -/
inductive Outcome (o : Org) : Op → Org → Prop
  | aside {op : Op} {o' : Org} (hstore : o'.store = o.store) (hcatalog : o'.catalog = o.catalog) :
      Outcome o op o'
  | call {call : Call} {o' : Org} (h : o.perform call = .ok o') : Outcome o (.call call) o'
  | rows {op : Op} {b : RowBatch} {o' : Org} (hb : o.rowBatch? op = some b)
      (h : o.Processed b o') : Outcome o op o'
  | cleared : Outcome o .reset o.reset.2

/-- All that a change of a batch job has found, and what it leaves. -/
theorem changeBatchJob_ok {o o' : Org} {id xml document : String}
    (h : o.changeBatchJob id xml = .ok (document, o')) :
    ∃ j bs target j', o.batchJob id = .ok (j, bs) ∧
      Legacy.changeState j bs o.supply.now target = .ok j' ∧ o' = o.putJob j' := by
  unfold changeBatchJob at h
  split at h
  · simp only [bind_eq_ok] at h
    rcases h with ⟨target, -, ⟨j, bs⟩, hj, j', hchange, _, -, heq⟩
    cases heq
    exact ⟨j, bs, target, j', hj, hchange, rfl⟩
  · cases h

/-- Operations that neither write single records nor process rows nor drop everything. -/
def Op.isAside : Op → Bool
  | .call _ | .processIngest _ | .addBatch .. | .reset => false
  | _ => true

/-- Operations that are no writes leave the records and the catalog alone. -/
theorem frame_of_isAside {o o' : Org} {op : Op} (hop : op.isAside)
    (h : o.attempt op = .ok o') : o'.store = o.store ∧ o'.catalog = o.catalog := by
  cases op with
  | call | processIngest | addBatch | reset => cases hop
  | changeBatchJob id xml =>
    rcases map_eq_ok.mp h with ⟨_, hchange, rfl⟩
    rcases changeBatchJob_ok hchange with ⟨_, _, _, j, -, -, heq⟩
    rw [heq]
    exact ⟨rfl, rfl⟩
  | elsewhere =>
    cases h
    exact ⟨rfl, rfl⟩
  | _ =>
    simp only [attempt, createIngest, upload, closeIngest, abortIngest, deleteIngest, createQuery,
      changeQuery, deleteQuery, createBatchJob, bind_eq_ok, map_eq_ok, pure, Except.pure,
      Except.ok.injEq] at h
    grind [putJob, addJob]

/-- All that a step can do: fail and change nothing, or succeed in one of the ways that are
listed. -/
theorem step_outcome (o : Org) (op : Op) : Outcome o op (o.step op) := by
  -- an operation that fails leaves everything as it was
  cases h : o.attempt op with
  | error e =>
    have hstep : o.step op = o := by simp [step, h]
    rw [hstep]
    exact .aside rfl rfl
  | ok o' =>
    rw [step_of_ok h]
    cases hop : op.isAside with
    | true =>
      rcases frame_of_isAside hop h with ⟨hstore, hcatalog⟩
      exact .aside hstore hcatalog
    | false =>
      cases op with
      | call call => exact .call h
      | processIngest job =>
        rcases processIngest_ok h with ⟨b, hb, hprocessed⟩
        exact .rows hb hprocessed
      | addBatch job body =>
        rcases map_eq_ok.mp h with ⟨⟨document, _⟩, hadd, rfl⟩
        rcases addBatch_ok hadd with ⟨b, hb, hprocessed⟩
        exact .rows hb hprocessed
      | reset =>
        cases h
        exact .cleared
      | _ => cases hop

/-- A job whose upload is complete can be processed, so one that cannot be has no rows. -/
theorem rows_of_processIngest_error {o : Org} {job : String} {b : RowBatch}
    (hb : o.uploadRows? job = some b) {e : Failure} (h : o.processIngest job = .error e) :
    b.rows = [] := by
  rcases Option.bind_eq_some_iff.mp hb with ⟨j, hj, hrows⟩
  rcases rowsFor?_eq_some.mp hrows with ⟨s, c, hs, hc, rfl⟩
  cases hpayload : j.payload with
  | ingest data =>
    have hjob : o.ingestJob job = .ok j := by
      simp only [ingestJob, get_eq_ok.mpr hj, ok_bind, Job.ingestData, hpayload]
      rfl
    simp only [processIngest, hjob, ok_bind, require_eq_ok.mpr hs, rowState,
      collection_eq_ok.mpr hc] at h
    cases h
  | query | batches => simp [Ingest.pendingRows, hpayload]

/-- Only an open job takes a payload, so one that is refused has no rows. -/
theorem rows_of_addBatch_error {o : Org} {job body : String} {b : RowBatch}
    (hb : o.payloadRows? job body = some b) {e : Failure} (h : o.addBatch job body = .error e) :
    b.rows = [] := by
  rcases Option.bind_eq_some_iff.mp hb with ⟨j, hj, hrows⟩
  rcases rowsFor?_eq_some.mp hrows with ⟨s, c, hs, hc, rfl⟩
  by_cases hopen : j.state = .open
  · cases hpayload : j.payload with
    | batches bs =>
      simp only [addBatch, batchJob_eq_ok.mpr ⟨hj, hpayload⟩, ok_bind, require_eq_ok.mpr hs,
        rowState, collection_eq_ok.mpr hc, Legacy.addBatch, hopen] at h
      cases h
    | query | ingest => simp [Legacy.payloadRows, hpayload]
  · simp [Legacy.payloadRows, hopen]

/-- An operation with rows processes them, or it fails and there are none. -/
theorem processed_or_none {o : Org} {op : Op} {b : RowBatch} (hb : o.rowBatch? op = some b) :
    o.Processed b (o.step op) ∨ (o.step op = o ∧ b.rows = []) := by
  cases h : o.attempt op with
  | error e =>
    -- an operation with rows fails only before it comes to them, and then there are none
    refine .inr ⟨by simp [step, h], ?_⟩
    cases op with
    | processIngest job => exact rows_of_processIngest_error hb h
    | addBatch job body =>
      cases hadd : o.addBatch job body with
      | error e' => exact rows_of_addBatch_error hb hadd
      | ok result =>
        rw [attempt, hadd] at h
        cases h
    | _ => cases hb
  | ok o' =>
    rw [step_of_ok h]
    refine .inl ?_
    cases op with
    | processIngest job =>
      rcases processIngest_ok h with ⟨b', hb', hprocessed⟩
      cases hb.symm.trans hb'
      exact hprocessed
    | addBatch job body =>
      rcases map_eq_ok.mp h with ⟨⟨document, _⟩, hadd, rfl⟩
      rcases addBatch_ok hadd with ⟨b', hb', hprocessed⟩
      cases hb.symm.trans hb'
      exact hprocessed
    | _ => cases hb

/-- The ids that rows draw. -/
theorem idsOf_of_rowBatch {o o' : Org} {op : Op} {b : RowBatch} (hb : o.rowBatch? op = some b)
    (h : o.Processed b o') : o.idsOf op =
      Supply.drawn b.processor.schema.idPrefix b.before.supply (o.step op).supply := by
  rw [← idPrefix_of_find? h.schema]
  cases op with
  | processIngest job =>
    rcases Option.bind_eq_some_iff.mp hb with ⟨j, hj, hrows⟩
    rcases rowsFor?_eq_some.mp hrows with ⟨s, c, -, -, rfl⟩
    simp only [idsOf, jobObject, get_eq_ok.mpr hj]
  | addBatch job body =>
    rcases Option.bind_eq_some_iff.mp hb with ⟨j, hj, hrows⟩
    rcases rowsFor?_eq_some.mp hrows with ⟨s, c, -, -, rfl⟩
    simp only [idsOf, jobObject, get_eq_ok.mpr hj]
  | _ => cases hb

/-- An operation that is no call, has no rows and drops nothing leaves the records alone. -/
theorem store_of_no_rows {o : Org} {op : Op} (hcall : ∀ call, op ≠ .call call)
    (hrows : o.rowBatch? op = none) (hreset : op ≠ .reset) : (o.step op).store = o.store := by
  have houtcome := step_outcome o op
  generalize o.step op = o' at houtcome ⊢
  cases houtcome with
  | aside hstore => exact hstore
  | call => exact (hcall _ rfl).elim
  | rows hb => cases hrows.symm.trans hb
  | cleared => exact (hreset rfl).elim

/-- The ids that are issued by operations and one more. -/
theorem issued_concat (o : Org) (ops : List Op) (op : Op) :
    issued o (ops ++ [op]) = issued o ops ++ (o.run ops).idsOf op := by
  induction ops generalizing o with
  | nil => simp [issued]
  | cons first ops ih => rw [List.cons_append, issued, issued, ih, run_cons, List.append_assoc]

/-! ## Effects -/

/-- All that an operation can do to the records. -/
inductive Effect (o : Org) (op : Op) : Store → Prop
  | kept : Effect o op o.store
  | written {object : String} {s : Schema} {st st' : RowState}
      (hschema : o.catalog.find? object = some s)
      (hc : Store.lookup object o.store.collections = some st.collection) (h : Writes s st st')
      (hids : o.idsOf op = Supply.drawn s.idPrefix st.supply st'.supply) :
      Effect o op (o.store.setCollection object st'.collection)
  | cleared (hop : op = .reset) : Effect o op o.store.cleared.2

/-- A request that succeeds has an effect on the records, and none on the catalog. -/
theorem effect_call {o o' : Org} {call : Call} (h : o.perform call = .ok o') :
    Effect o (.call call) o'.store ∧ o'.catalog = o.catalog := by
  have hstep : o.step (.call call) = o' := step_of_ok h
  rcases perform_written h with ⟨hstore, hcatalog, -⟩ | ⟨hschema, hc, hwrite⟩
  · exact ⟨hstore ▸ .kept, hcatalog⟩
  · refine ⟨.written hschema hc hwrite.single ?_, rfl⟩
    rw [idsOf, hstep, idPrefix_of_find? hschema]
    rfl

/-- All that an operation does to the records is one of the effects. -/
theorem step_effect (o : Org) (op : Op) :
    Effect o op (o.step op).store ∧ (o.step op).catalog = o.catalog := by
  have houtcome := step_outcome o op
  generalize hstep : o.step op = o' at houtcome ⊢
  cases houtcome with
  | aside hstore hcatalog => exact ⟨hstore ▸ .kept, hcatalog⟩
  | call h => exact effect_call h
  | rows hb h =>
    refine ⟨?_, h.catalog⟩
    rw [h.store]
    refine .written h.schema h.collection (RowBatch.writes _) ?_
    rw [idsOf_of_rowBatch hb h, hstep, h.supply]
  | cleared => exact ⟨.cleared rfl, rfl⟩

/-- No operation changes the catalog. -/
theorem catalog_run (o : Org) (ops : List Op) : (o.run ops).catalog = o.catalog := by
  induction ops generalizing o with
  | nil => rfl
  | cons op ops ih => exact (ih _).trans (step_effect o op).2

end Org

end CrmEmulator
