import CrmEmulator.Proofs.Bulk.Batches
import CrmEmulator.Proofs.Bulk.IngestLife
import CrmEmulator.Proofs.Bulk.QueryResults
import CrmEmulator.Proofs.Org.Run
import CrmEmulator.Proofs.Registry
import CrmEmulator.Proofs.Store.Change

/-!
# CrmEmulator.Proofs.Org.BatchJobs — jobs with batches in a reachable organisation

Jobs of all generations stand in one table, so that every operation on any of them has to be looked
at, if only to see that it leaves jobs with batches alone.

1. `JobEffect`: all that an operation can do to the table of jobs.
2. `Booked`: every job stands under its own id, and a job with batches keeps its accounts.  It is
   kept by every effect.
3. `run_governed`: what holds of every job with batches at any time, and what becomes of it.
-/

namespace CrmEmulator

namespace Org

open Legacy (Turn Balanced Later)

/-! ## Looking up jobs -/

theorem kind_of_ingestData {j : Job} {data : IngestData} (h : j.payload = .ingest data) :
    j.kind = .v2Ingest := by
  rw [Job.kind, h]

/-- A job that is found as an ingest job is one. -/
theorem ingestJob_kind {o : Org} {id : String} {j : Job} (h : o.ingestJob id = .ok j) :
    o.jobs.get? id = some j ∧ j.kind = .v2Ingest := by
  refine ⟨ingestJob_ok h, ?_⟩
  unfold ingestJob at h
  simp only [bind_eq_ok] at h
  rcases h with ⟨_, -, data, hdata, heq⟩
  cases heq
  exact kind_of_ingestData (Ingest.ingestData_ok.mp hdata)

/-- A job that is found as a query job is one. -/
theorem queryJob_kind {o : Org} {id : String} {j : Job} (h : o.queryJob id = .ok j) :
    o.jobs.get? id = some j ∧ j.kind = .v2Query := by
  unfold queryJob at h
  simp only [bind_eq_ok] at h
  rcases h with ⟨_, hj, data, hdata, heq⟩
  cases heq
  refine ⟨get_eq_ok.mp hj, ?_⟩
  unfold Job.queryData at hdata
  split at hdata
  · next hpayload => rw [Job.kind, hpayload]
  · cases hdata

/-! ## Effects on the table of jobs -/

/-- A job of another generation than those with batches. -/
def Foreign (j : Job) : Prop := j.kind ≠ .v1Bulk

/-- All that an operation can do to the jobs. -/
inductive JobEffect (o : Org) (op : Op) : Jobs → Prop
  | kept : JobEffect o op o.jobs
  | created (j : Job) (h : Foreign j ∨
      j.payload = .batches [] ∧ Balanced j [] ∧ o.catalog.contains j.object) :
      JobEffect o op (o.jobs.insert j)
  | turned {id : String} {j j' : Job} {bs : List Batch} (hj : o.batchJob id = .ok (j, bs))
      (h : Turn j bs j') : JobEffect o op (o.jobs.put j'.id j')
  | changed {id : String} {j j' : Job} (hj : o.jobs.get? id = some j) (hforeign : Foreign j)
      (hkind : j'.kind = j.kind) (hid : j'.id = j.id) : JobEffect o op (o.jobs.put j'.id j')
  | removed {id : String} {j : Job} (hj : o.jobs.get? id = some j) (hforeign : Foreign j) :
      JobEffect o op (o.jobs.erase id)
  | cleared (hop : op = .reset) : JobEffect o op .empty

/-- A job stands under its own id; if it has batches, it keeps its accounts and its object is
defined. -/
structure Filed (c : Catalog) (id : String) (j : Job) : Prop where
  id : j.id = id
  batches : ∀ bs, j.payload = .batches bs → Balanced j bs ∧ c.contains j.object

/-- All jobs are filed, and every object that is defined has a collection. -/
structure Booked (o : Org) : Prop where
  filed : ∀ entry ∈ o.jobs.entries, Filed o.catalog entry.1 entry.2
  objects : o.store.objects = o.catalog.names

/-- In a booked organisation every job that is found is filed under its id. -/
theorem Booked.filed_of_get? {o : Org} (h : o.Booked) {id : String} {j : Job}
    (hj : o.jobs.get? id = some j) : Filed o.catalog id j :=
  h.filed _ (Registry.mem_of_get? hj)

/-- A new ingest job is no batch job. -/
theorem ingest_create_foreign {c : Catalog} {supply supply' : Supply} {version : String}
    {r : Ingest.Request} {j : Job} (h : Ingest.create c supply version r = .ok (j, supply')) :
    Foreign j := by
  rcases (Ingest.Scene.holds_create h).payload with ⟨_, _, hpayload⟩
  rw [Foreign, kind_of_ingestData hpayload]
  decide

theorem kind_finish (j : Job) (data : QueryData) (outcome : Except Failure QueryJob.Outcome) :
    (QueryJob.finish j data outcome).kind = .v2Query := by
  cases outcome <;> rfl

/-- A new query job is no batch job. -/
theorem query_create_foreign {c : Catalog} {s : Store} {supply supply' : Supply}
    {version : String} {r : QueryJob.Request} {j : Job}
    (h : QueryJob.create c s supply version r = .ok (j, supply')) : Foreign j := by
  rcases QueryJob.create_eq_ok h with ⟨text, blank, data, -, rfl⟩
  rw [Foreign, kind_finish]
  decide

/-- Processing leaves a job under its id and with uploaded rows. -/
theorem ingest_process_same {j : Job} (hkind : j.kind = .v2Ingest) (s : Schema) (st : RowState) :
    (Ingest.process j s st).1.kind = j.kind ∧ (Ingest.process j s st).1.id = j.id := by
  rcases Ingest.process_cases j s st with hsame | ⟨data, now, results, -, -, hdone⟩
  · rw [hsame]
    exact ⟨rfl, rfl⟩
  · rw [hdone, hkind]
    exact ⟨rfl, rfl⟩

/-- Requests for records leave the jobs alone. -/
theorem jobs_of_call {o o' : Org} {call : Call} (h : o.perform call = .ok o') :
    o'.jobs = o.jobs := by
  rcases perform_written h with ⟨-, -, hjobs⟩ | hwritten
  · exact hjobs
  · cases hwritten
    rfl

/-- A change of a job with uploaded rows. -/
theorem JobEffect.ingest {o : Org} {op : Op} {id : String} {j j' : Job}
    (hj : o.ingestJob id = .ok j) (hkind : j'.kind = j.kind) (hid : j'.id = j.id) :
    JobEffect o op (o.putJob j').jobs := by
  rcases ingestJob_kind hj with ⟨hget, hingest⟩
  refine .changed hget ?_ hkind hid
  rw [Foreign, hingest]
  decide

/-- All that an operation that succeeds can do to the jobs. -/
theorem attempt_jobs {o o' : Org} {op : Op} (hbooked : o.Booked) (h : o.attempt op = .ok o') :
    JobEffect o op o'.jobs := by
  cases op with
  | call call =>
    rw [jobs_of_call h]
    exact .kept
  | createIngest request =>
    rcases map_eq_ok.mp h with ⟨⟨j, _⟩, hcreate, rfl⟩
    rcases bind_eq_ok.mp hcreate with ⟨⟨_, supply⟩, hnew, ⟨⟩⟩
    exact .created j (.inl (ingest_create_foreign hnew))
  | upload job body =>
    rcases bind_eq_ok.mp h with ⟨j, hj, h⟩
    rcases bind_eq_ok.mp h with ⟨j', hupload, ⟨⟩⟩
    rcases Ingest.upload_ok hupload with ⟨-, data, hdata, rfl⟩
    exact .ingest hj (by rw [kind_of_ingestData hdata]; rfl) rfl
  | closeIngest job =>
    rcases bind_eq_ok.mp h with ⟨j, hj, h⟩
    rcases bind_eq_ok.mp h with ⟨j', hclose, ⟨⟩⟩
    rcases Ingest.close_ok hclose with ⟨-, rfl⟩
    exact .ingest hj rfl rfl
  | processIngest job =>
    rcases bind_eq_ok.mp h with ⟨j, hj, h⟩
    rcases bind_eq_ok.mp h with ⟨s, -, h⟩
    rcases bind_eq_ok.mp h with ⟨st, -, ⟨⟩⟩
    rcases ingest_process_same (ingestJob_kind hj).2 s st with ⟨hkind, hid⟩
    exact JobEffect.ingest hj hkind hid
  | abortIngest job =>
    rcases bind_eq_ok.mp h with ⟨j, hj, h⟩
    rcases bind_eq_ok.mp h with ⟨j', habort, ⟨⟩⟩
    rcases Ingest.abort_ok habort with ⟨-, rfl⟩
    exact .ingest hj rfl rfl
  | deleteIngest job =>
    rcases bind_eq_ok.mp h with ⟨j, hj, h⟩
    rcases bind_eq_ok.mp h with ⟨jobs, hremove, ⟨⟩⟩
    rcases ingestJob_kind hj with ⟨hget, hingest⟩
    unfold Jobs.remove at hremove
    split at hremove
    · cases hremove
      exact .removed hget (by rw [Foreign, hingest]; decide)
    · cases hremove
  | createQuery request =>
    rcases map_eq_ok.mp h with ⟨⟨j, _⟩, hcreate, rfl⟩
    rcases bind_eq_ok.mp hcreate with ⟨⟨_, supply⟩, hnew, ⟨⟩⟩
    exact .created j (.inl (query_create_foreign hnew))
  | changeQuery job state =>
    rcases map_eq_ok.mp h with ⟨⟨j', _⟩, hchange, rfl⟩
    rcases bind_eq_ok.mp hchange with ⟨j, hj, hchange⟩
    rcases bind_eq_ok.mp hchange with ⟨_, hstate, ⟨⟩⟩
    rcases queryJob_kind hj with ⟨hget, hquery⟩
    unfold QueryJob.changeState at hstate
    split at hstate
    · cases hstate
    · cases hstate
      exact .changed hget (by rw [Foreign, hquery]; decide) rfl rfl
  | deleteQuery job =>
    rcases bind_eq_ok.mp h with ⟨j, hj, h⟩
    rcases bind_eq_ok.mp h with ⟨jobs, hremove, ⟨⟩⟩
    rcases queryJob_kind hj with ⟨hget, hquery⟩
    unfold Jobs.remove at hremove
    split at hremove
    · cases hremove
      exact .removed hget (by rw [Foreign, hquery]; decide)
    · cases hremove
  | createBatchJob xml =>
    rcases map_eq_ok.mp h with ⟨⟨_, _⟩, hcreate, rfl⟩
    rcases bind_eq_ok.mp hcreate with ⟨⟨j, supply⟩, hnew, ⟨⟩⟩
    exact .created j (.inr (Legacy.create_new hnew))
  | changeBatchJob job xml =>
    rcases map_eq_ok.mp h with ⟨⟨_, _⟩, hchange, rfl⟩
    rcases changeBatchJob_ok hchange with ⟨j, bs, target, j', hj, hstate, rfl⟩
    rcases batchJob_eq_ok.mp hj with ⟨hget, hbs⟩
    -- the batches that an abort would stop are those that no reachable job has
    have hsettled := ((hbooked.filed_of_get? hget).batches bs hbs).1.settled
    exact .turned hj (Legacy.changeState_turn hbs hsettled hstate)
  | addBatch job body =>
    rcases map_eq_ok.mp h with ⟨⟨_, _⟩, hadd, rfl⟩
    rcases bind_eq_ok.mp hadd with ⟨⟨j, bs⟩, hj, hadd⟩
    rcases bind_eq_ok.mp hadd with ⟨s, -, hadd⟩
    rcases bind_eq_ok.mp hadd with ⟨st, -, hadd⟩
    rcases bind_eq_ok.mp hadd with ⟨⟨b, j', st'⟩, hbatch, ⟨⟩⟩
    exact .turned hj (Legacy.addBatch_turn hbatch).2
  | reset =>
    cases h
    exact .cleared rfl
  | elsewhere =>
    cases h
    exact .kept

/-! ## Books -/

/-- No operation adds or removes an object. -/
theorem Effect.objects {o : Org} {op : Op} {store : Store} (h : Effect o op store) :
    store.objects = o.store.objects := by
  cases h with
  | kept => rfl
  | written => exact Store.objects_setCollection _ _ _
  | cleared => exact Store.objects_cleared _

/-- Jobs of the other kinds are filed as they are. -/
theorem filed_of_foreign {c : Catalog} {j : Job} (h : Foreign j) : Filed c j.id j where
  id := rfl
  batches := by
    intro bs hbs
    exact absurd (by rw [Job.kind, hbs]) h

/-- Whatever an operation does to filed jobs, they stay filed. -/
theorem JobEffect.filed {o : Org} {op : Op} {jobs : Jobs} (h : JobEffect o op jobs)
    (hbooked : o.Booked) : ∀ entry ∈ jobs.entries, Filed o.catalog entry.1 entry.2 := by
  intro entry hentry
  cases h with
  | kept => exact hbooked.filed entry hentry
  | created j hnew =>
    -- the entry is the new one, or it was there
    rcases Registry.mem_append hentry with rfl | hold
    · rcases hnew with hforeign | ⟨hpayload, hbalanced, hobject⟩
      · exact filed_of_foreign hforeign
      · refine ⟨rfl, fun bs hbs => ?_⟩
        obtain rfl : [] = bs := Payload.batches.inj (hpayload.symm.trans hbs)
        exact ⟨hbalanced, hobject⟩
    · exact hbooked.filed entry hold
  | turned hj hturn =>
    rcases Registry.mem_put hentry with rfl | hold
    · rcases batchJob_eq_ok.mp hj with ⟨hget, hbs⟩
      rcases (hbooked.filed_of_get? hget).batches _ hbs with ⟨hbalanced, hobject⟩
      rcases hturn.later hbs hbalanced with ⟨more, hlater, hafter⟩
      refine ⟨rfl, fun bs hpayload => ?_⟩
      obtain rfl := Payload.batches.inj (hlater.payload.symm.trans hpayload)
      exact ⟨hafter, hlater.object ▸ hobject⟩
    · exact hbooked.filed entry hold
  | changed hj hforeign hkind hid =>
    rcases Registry.mem_put hentry with rfl | hold
    · exact filed_of_foreign (by rw [Foreign, hkind]; exact hforeign)
    · exact hbooked.filed entry hold
  | removed => exact hbooked.filed entry (Registry.mem_erase hentry)
  | cleared => cases hentry

/-- A step does to the jobs what its operation can do, or nothing. -/
theorem step_jobs {o : Org} (hbooked : o.Booked) (op : Op) : JobEffect o op (o.step op).jobs := by
  cases h : o.attempt op with
  | error e =>
    have hstep : o.step op = o := by simp [step, h]
    rw [hstep]
    exact .kept
  | ok o' =>
    rw [step_of_ok h]
    exact attempt_jobs hbooked h

/-- A step keeps an organisation booked. -/
theorem Booked.step {o : Org} (h : o.Booked) (op : Op) : (o.step op).Booked := by
  rcases step_effect o op with ⟨heffect, hcatalog⟩
  constructor
  · rw [hcatalog]
    exact (step_jobs h op).filed h
  · rw [hcatalog, heffect.objects]
    exact h.objects

theorem booked_ofCatalog (c : Catalog) (settings : Settings) (supply : Supply) :
    (ofCatalog c settings supply).Booked where
  filed := List.forall_mem_nil _
  objects := by simp [ofCatalog, Store.ofCatalog, Store.objects, Function.comp_def]

/-- A run keeps an organisation booked. -/
theorem Booked.run {o : Org} (h : o.Booked) (ops : List Op) : (o.run ops).Booked := by
  induction ops generalizing o with
  | nil => exact h
  | cons op ops ih => exact ih (h.step op)

/-! ## What becomes of a job -/

/-- No operation but a reset takes a job with batches away, and none undoes what was. -/
theorem JobEffect.later {o : Org} {op : Op} {jobs : Jobs} (h : JobEffect o op jobs)
    (hbooked : o.Booked) (hop : op ≠ .reset) {id : String} {j : Job} {bs : List Batch}
    (hj : o.batchJob id = .ok (j, bs)) :
    ∃ j' more, jobs.get? id = some j' ∧ Later j bs j' more := by
  rcases batchJob_eq_ok.mp hj with ⟨hget, hbs⟩
  have hkind : ¬ Foreign j := not_not_intro (by rw [Job.kind, hbs])
  have hsame := Later.refl hbs
  cases h with
  | kept => exact ⟨j, [], hget, hsame⟩
  | created new => exact ⟨j, [], Registry.get?_append_of_get? hget new.id new, hsame⟩
  | @turned id' k k' bs' hk hturn =>
    rcases batchJob_eq_ok.mp hk with ⟨hgetk, hbsk⟩
    have hfiled := hbooked.filed_of_get? hgetk
    rcases hturn.later hbsk (hfiled.batches bs' hbsk).1 with ⟨more, hlater, -⟩
    have hid : k'.id = id' := hlater.id.trans hfiled.id
    by_cases heq : id = id'
    · -- it is this job that the operation is about
      subst heq
      obtain rfl : k = j := Option.some.inj (hgetk.symm.trans hget)
      obtain rfl : bs' = bs := Payload.batches.inj (hbsk.symm.trans hbs)
      exact ⟨k', more, by simp [hid], hlater⟩
    · exact ⟨j, [], by simpa [hid, heq] using hget, hsame⟩
  | @changed id' k k' hk hforeign hkind' hid =>
    have hne : id ≠ id' := by
      rintro rfl
      obtain rfl : k = j := Option.some.inj (hk.symm.trans hget)
      exact hkind hforeign
    have hfile := (hbooked.filed_of_get? hk).id
    exact ⟨j, [], by simpa [hid, hfile, hne] using hget, hsame⟩
  | @removed id' k hk hforeign =>
    have hne : id ≠ id' := by
      rintro rfl
      obtain rfl : k = j := Option.some.inj (hk.symm.trans hget)
      exact hkind hforeign
    exact ⟨j, [], by simpa [hne] using hget, hsame⟩
  | cleared hreset => exact absurd hreset hop

/-- Without a reset, a batch job that was there at the beginning of a run is there at its end, only
later. -/
theorem run_later {o : Org} (hbooked : o.Booked) {ops : List Op} (hops : ∀ op ∈ ops, op ≠ .reset)
    {id : String} {j : Job} {bs : List Batch} (hj : o.batchJob id = .ok (j, bs)) :
    ∃ j' more, (o.run ops).batchJob id = .ok (j', bs ++ more) ∧ Later j bs j' more := by
  induction ops generalizing o j bs with
  | nil => exact ⟨j, [], by simpa using hj, .refl (batchJob_eq_ok.mp hj).2⟩
  | cons op ops ih =>
    rw [List.forall_mem_cons] at hops
    rcases (step_jobs hbooked op).later hbooked hops.1 hj with ⟨j', more, hget, hlater⟩
    have hj' : (o.step op).batchJob id = .ok (j', bs ++ more) :=
      batchJob_eq_ok.mpr ⟨hget, hlater.payload⟩
    rcases ih (hbooked.step op) hops.2 hj' with ⟨j'', others, hrun, hrest⟩
    rw [List.append_assoc] at hrun
    exact ⟨j'', more ++ others, hrun, hlater.trans hrest⟩

/-! ## Requests on a job -/

/-- Everything that adding a batch needs is there, so that only the state of the job decides. -/
theorem Booked.addBatch_accepts_iff {o : Org} (h : o.Booked) {id : String} {j : Job}
    {bs : List Batch} (hj : o.batchJob id = .ok (j, bs)) (body : String) :
    (∃ answer, o.addBatch id body = .ok answer) ↔ j.state = .open := by
  rcases batchJob_eq_ok.mp hj with ⟨hget, hbs⟩
  constructor
  · rintro ⟨answer, hadd⟩
    unfold addBatch at hadd
    simp only [hj, ok_bind, bind_eq_ok] at hadd
    rcases hadd with ⟨s, -, st, -, ⟨b, j', st'⟩, hbatch, -⟩
    exact (Legacy.addBatch_turn hbatch).1
  · intro hopen
    have hobject := ((h.filed_of_get? hget).batches bs hbs).2
    rcases Option.isSome_iff_exists.mp hobject with ⟨s, hs⟩
    -- the object of a filed job has a definition, and so a collection
    have hname : j.object ∈ o.store.objects := by
      rw [h.objects]
      have hfound := List.find?_some hs
      rw [beq_iff_eq] at hfound
      exact List.mem_map.mpr ⟨s, List.mem_of_find?_eq_some hs, hfound⟩
    rcases Store.exists_collection hname with ⟨c, hc⟩
    rcases Legacy.addBatch_of_open hopen bs s ⟨c, o.supply⟩ body with ⟨⟨b, j', st⟩, hbatch⟩
    refine ⟨(Legacy.batchDocument b, (o.putRowState j'.object st).putJob j'), ?_⟩
    simp only [addBatch, hj, ok_bind, require_eq_ok.mpr hs, rowState, collection_eq_ok.mpr hc,
      pure, Except.pure, hbatch]

/-- A batch job takes exactly those states that it may go to. -/
theorem Booked.changeBatchJob_accepts_iff {o : Org} (h : o.Booked) {id : String} {j : Job}
    {bs : List Batch} (hj : o.batchJob id = .ok (j, bs)) (xml : String) :
    (∃ answer, o.changeBatchJob id xml = .ok answer) ↔
      ∃ next, j.state.LeadsTo next ∧ Xml.elementText? xml.toList "state" = some next.name := by
  rcases batchJob_eq_ok.mp hj with ⟨hget, hbs⟩
  have hbalanced := ((h.filed_of_get? hget).batches bs hbs).1
  constructor
  · rintro ⟨answer, hchange⟩
    unfold changeBatchJob at hchange
    split at hchange
    · next target htarget =>
      simp only [hj, ok_bind, bind_eq_ok] at hchange
      rcases hchange with ⟨j', hstate, -⟩
      rcases (Legacy.changeState_accepts_iff ..).mp ⟨j', hstate⟩ with ⟨next, hleads, hname⟩
      exact ⟨next, hleads, by rw [htarget, hname]⟩
    · cases hchange
  · rintro ⟨next, hleads, hnext⟩
    rcases (Legacy.changeState_accepts_iff j bs o.supply.now next.name).mpr ⟨next, hleads, rfl⟩
      with ⟨j', hstate⟩
    -- what the change makes is a job with batches again, so its document can be written
    have hturn := Legacy.changeState_turn hbs hbalanced.settled hstate
    rcases hturn.later hbs hbalanced with ⟨more, hlater, -⟩
    refine ⟨(Legacy.jobDocument j' (bs ++ more), o.putJob j'), ?_⟩
    simp only [changeBatchJob, hnext, hj, ok_bind, hstate, Job.batches, hlater.payload]
    rfl

/-- What holds of a job with batches at some time, and what becomes of it. -/
structure Governed (o : Org) (id : String) (j : Job) (bs : List Batch) : Prop where
  /-- Every batch has failed or is complete, and counts its own results. -/
  settled : ∀ b ∈ bs, b.Settled
  /-- The job counts what its batches count. -/
  processed : j.processed = (bs.map (·.processed)).sum
  failed : j.failed = (bs.map (·.failed)).sum
  total : bs.length = Legacy.countIn .completed bs + Legacy.countIn .failed bs
  /-- A batch is accepted as long as the job is open, whatever its payload is. -/
  adds : ∀ body, (∃ answer, o.addBatch id body = .ok answer) ↔ j.state = .open
  /-- A state is accepted if the one of the job leads to it. -/
  moves : ∀ xml, (∃ answer, o.changeBatchJob id xml = .ok answer) ↔
    ∃ next, j.state.LeadsTo next ∧ Xml.elementText? xml.toList "state" = some next.name
  /-- A request that is refused leaves everything as it is. -/
  refused : ∀ op e, o.attempt op = .error e → o.step op = o
  /-- As long as the jobs are not dropped, batches are only appended, while the job is open, and
  its state is only left for one that it leads to. -/
  later : ∀ ops : List Op, (∀ op ∈ ops, op ≠ .reset) →
    ∃ j' more, (o.run ops).batchJob id = .ok (j', bs ++ more) ∧ Later j bs j' more

/-- Whatever requests an organisation has answered since it was empty, its jobs with batches keep
their accounts, and will only go on from what they are. -/
theorem run_governed {c : Catalog} {settings : Settings} {supply : Supply} {ops : List Op}
    {id : String} {j : Job} {bs : List Batch}
    (hj : ((ofCatalog c settings supply).run ops).batchJob id = .ok (j, bs)) :
    Governed ((ofCatalog c settings supply).run ops) id j bs := by
  have hbooked := (booked_ofCatalog c settings supply).run ops
  generalize (ofCatalog c settings supply).run ops = o at hj hbooked
  rcases batchJob_eq_ok.mp hj with ⟨hget, hbs⟩
  have hbalanced := ((hbooked.filed_of_get? hget).batches bs hbs).1
  constructor
  · exact hbalanced.settled
  · exact hbalanced.processed
  · exact hbalanced.failed
  · exact Legacy.length_eq_countIn hbalanced.settled
  · exact hbooked.addBatch_accepts_iff hj
  · exact hbooked.changeBatchJob_accepts_iff hj
  · intro op e h
    simp [Org.step, h]
  · intro later hlater
    exact run_later hbooked hlater hj

/-- An organisation with one object, whose names are short. -/
def withContacts : Org :=
  ofCatalog ⟨[{ name := "Contact", idPrefix := "003"
                fields := [("LastName", { maxLength := some 5 })] }]⟩ {} ⟨0, 0⟩

/-- A job with a batch of which one record fails, one that cannot be read and an empty one; it is
closed before a last batch comes. -/
def imports : List Op := [
  .createBatchJob
    "<operation>insert</operation><object>Contact</object><contentType>JSON</contentType>",
  .addBatch "750AAAAAAAAAAAAAAA" "[\x7b\"LastName\": \"Li\"\x7d, \x7b\"LastName\": \"Orchid\"\x7d]",
  .addBatch "750AAAAAAAAAAAAAAA" "[\x7b]",
  .addBatch "750AAAAAAAAAAAAAAA" "[]",
  .changeBatchJob "750AAAAAAAAAAAAAAA" "<state>Closed</state>",
  .addBatch "750AAAAAAAAAAAAAAA" "[\x7b\"LastName\": \"Late\"\x7d]"]

/-- One batch is completed and two fail, and the one that comes after the job was closed is not
there. -/
theorem run_imports_governed : ∃ j bs,
    (withContacts.run imports).batchJob "750AAAAAAAAAAAAAAA" = .ok (j, bs) ∧
      bs.map (·.state) = [.completed, .failed, .failed] ∧ j.state = .closed ∧
        (j.processed, j.failed) = (2, 1) ∧
          Governed (withContacts.run imports) "750AAAAAAAAAAAAAAA" j bs := by
  have hview : ((withContacts.run imports).batchJob "750AAAAAAAAAAAAAAA").toOption.map
      (fun found => (found.2.map (·.state), found.1.state, found.1.processed, found.1.failed)) =
        some ([.completed, .failed, .failed], .closed, 2, 1) := by
    decide +kernel
  cases hj : (withContacts.run imports).batchJob "750AAAAAAAAAAAAAAA" with
  | error e => simp [hj, Except.toOption] at hview
  | ok found =>
    rcases found with ⟨j, bs⟩
    simp only [hj, Except.toOption, Option.map_some, Option.some.injEq, Prod.mk.injEq] at hview
    rcases hview with ⟨hstates, hstate, hprocessed, hfailed⟩
    exact ⟨j, bs, rfl, hstates, hstate, by rw [hprocessed, hfailed], run_governed hj⟩

end Org

end CrmEmulator
