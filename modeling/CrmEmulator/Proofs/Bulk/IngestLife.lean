import CrmEmulator.Bulk.Ingest
import CrmEmulator.Proofs.Outcome

/-!
# CrmEmulator.Proofs.Bulk.IngestLife — an ingest job under concurrent requests

A request works on a job in sections, each of which runs as a whole: uploading and aborting are one
section, completing the upload is two, `close` and `process`.  Between the two anything may happen:
uploads, another request to complete, an abort, and whatever other requests do to the records.

1. `Scene` and `Step`: the job with the requests that have closed it and not processed it yet; a
   run takes the steps of any number of requests in any order.
2. `Effect`: all that a step can do to the job, with its guards.
3. A job that has ended stays as it is, its rows are processed once at most, and never if it was
   aborted; what was uploaded is fixed when the job is closed; results come from processing only.
-/

namespace CrmEmulator

namespace Ingest

/-! ## One section -/

/-- The data of an ingest job are found exactly if the job is one. -/
theorem ingestData_ok {j : Job} {data : IngestData} :
    j.ingestData = .ok data ↔ j.payload = .ingest data := by
  unfold Job.ingestData
  split
  · next data' h => simp [h]
  · next h => exact ⟨nofun, fun hdata => (h data hdata).elim⟩

/-- An upload is accepted by an open job only, and merges the part into its text. -/
theorem upload_ok {j job : Job} {now body : String} (h : upload j now body = .ok job) :
    j.state = .open ∧ ∃ data, j.payload = .ingest data ∧ job = { j with
      payload := .ingest
        { data with csv := String.ofList (mergeUpload data.csv.toList body.toList) }
      modifiedDate := now } := by
  unfold upload at h
  split at h
  · cases h
  · next hopen =>
    split at h
    · cases h
    · rcases bind_eq_ok.mp h with ⟨data, hdata, heq⟩
      cases heq
      exact ⟨Decidable.not_not.mp hopen, data, ingestData_ok.mp hdata, rfl⟩

/-- Only an open job is closed, and nothing but its state changes. -/
theorem close_ok {j job : Job} {now : String} (h : close j now = .ok job) :
    j.state = .open ∧ job = j.setState .uploadComplete now := by
  unfold close at h
  split at h
  · cases h
  · next hopen =>
    cases h
    exact ⟨Decidable.not_not.mp hopen, rfl⟩

/-- Only a job that has not ended is aborted, and nothing but its state changes. -/
theorem abort_ok {j job : Job} {now : String} (h : abort j now = .ok job) :
    j.state.isTerminal = false ∧ job = j.setState .aborted now := by
  unfold abort at h
  split at h
  · cases h
  · next halive =>
    cases h
    exact ⟨Bool.eq_false_iff.mpr halive, rfl⟩

/-- Processing does nothing but to a closed job with uploaded rows, which it finishes. -/
theorem process_cases (j : Job) (s : Schema) (rows : RowState) :
    process j s rows = (j, rows) ∨
    ∃ data now results, j.state = .uploadComplete ∧ j.payload = .ingest data ∧
      (process j s rows).1 = finish j now data.csv results := by
  unfold process
  split
  · next data hstate hdata => exact .inr ⟨data, _, _, hstate, hdata, rfl⟩
  · exact .inl rfl

/-- Processing ends a job as complete or as failed. -/
theorem state_finish (j : Job) (now csv : String) (results : List RowResult) :
    (finish j now csv results).state = .jobComplete ∨
      (finish j now csv results).state = .failed := by
  simp only [finish]
  split
  · exact .inr rfl
  · exact .inl rfl

/-! ## Runs -/

/-- A job while requests work on it. -/
structure Scene where
  job : Job
  /-- The records of the job's object, and the supply. -/
  rows : RowState
  /-- How many requests have closed the job and are still to process it. -/
  closing : Nat

/-- A section of a request. -/
inductive Step
  | upload (now body : String)
  | close (now : String)
  /-- A request that has closed the job processes it. -/
  | process
  | abort (now : String)
  /-- Other requests change the records, or time passes. -/
  | elsewhere (rows : RowState)

namespace Scene

/-- A job before the first request. -/
def start (job : Job) (rows : RowState) : Scene := ⟨job, rows, 0⟩

/-- The scene after a step; a section that is refused changes nothing. -/
def next (s : Schema) (sc : Scene) : Step → Scene
  | .upload now body =>
    match Ingest.upload sc.job now body with
    | .ok job => { sc with job }
    | .error _ => sc
  | .close now =>
    match Ingest.close sc.job now with
    | .ok job => { sc with job, closing := sc.closing + 1 }
    | .error _ => sc
  | .process =>
    if sc.closing = 0 then sc
    else
      let (job, rows) := Ingest.process sc.job s sc.rows
      ⟨job, rows, sc.closing - 1⟩
  | .abort now =>
    match Ingest.abort sc.job now with
    | .ok job => { sc with job }
    | .error _ => sc
  | .elsewhere rows => { sc with rows }

/-- The scene after steps one after the other. -/
def run (s : Schema) (sc : Scene) (steps : List Step) : Scene := steps.foldl (next s) sc

/-- The steps of a run, each with the scene that it finds. -/
def trace (s : Schema) : Scene → List Step → List (Scene × Step)
  | _, [] => []
  | sc, step :: steps => (sc, step) :: trace s (sc.next s step) steps

@[simp] theorem run_cons (s : Schema) (sc : Scene) (step : Step) (steps : List Step) :
    sc.run s (step :: steps) = (sc.next s step).run s steps := rfl

/-- A run of two lists of steps is the second list run after the first. -/
theorem run_append (s : Schema) (sc : Scene) (steps steps' : List Step) :
    sc.run s (steps ++ steps') = (sc.run s steps).run s steps' := by
  simp [run, List.foldl_append]

/-- The part that a step uploads, if it is accepted. -/
def uploaded? (sc : Scene) : Step → Option String
  | .upload now body => (Ingest.upload sc.job now body).toOption.map fun _ => body
  | _ => none

/-- The parts that are uploaded in a run, in order. -/
def uploads (s : Schema) (sc : Scene) (steps : List Step) : List String :=
  (sc.trace s steps).filterMap fun x => x.1.uploaded? x.2

/-- Is the step an abort that is accepted? -/
def isAborted (sc : Scene) : Step → Bool
  | .abort now => (Ingest.abort sc.job now).isOk
  | _ => false

/-- Does the step process the job, so that the job or a record changes? -/
def isProcessed (s : Schema) (sc : Scene) : Step → Bool
  | .process =>
    (sc.next s .process).job ≠ sc.job || (sc.next s .process).rows ≠ sc.rows
  | _ => false

/-- How often the rows of the job are processed in a run. -/
def processings (s : Schema) (sc : Scene) (steps : List Step) : Nat :=
  (sc.trace s steps).countP fun x => x.1.isProcessed s x.2

/-- Is an abort accepted in a run? -/
def wasAborted (s : Schema) (sc : Scene) (steps : List Step) : Prop :=
  ∃ x ∈ sc.trace s steps, x.1.isAborted x.2 = true

theorem uploads_cons (s : Schema) (sc : Scene) (step : Step) (steps : List Step) :
    sc.uploads s (step :: steps) = (sc.uploaded? step).toList ++ (sc.next s step).uploads s steps := by
  cases h : sc.uploaded? step <;> simp [uploads, trace, h]

theorem processings_cons (s : Schema) (sc : Scene) (step : Step) (steps : List Step) :
    sc.processings s (step :: steps) =
      (sc.next s step).processings s steps + if sc.isProcessed s step then 1 else 0 :=
  List.countP_cons

theorem wasAborted_cons (s : Schema) (sc : Scene) (step : Step) (steps : List Step) :
    sc.wasAborted s (step :: steps) ↔
      sc.isAborted step = true ∨ (sc.next s step).wasAborted s steps := by
  simp [wasAborted, trace]

/-! ## Steps -/

/-- All that a step can do to the job. -/
inductive Effect (s : Schema) (sc : Scene) (step : Step) (job : Job) : Prop
  | none (same : job = sc.job) (noUpload : sc.uploaded? step = .none)
      (noAbort : sc.isAborted step = false) (noProcess : sc.isProcessed s step = false)
  | uploaded (now body : String) (data : IngestData) (is : step = .upload now body)
      (wasOpen : sc.job.state = .open) (had : sc.job.payload = .ingest data)
      (accepted : sc.uploaded? step = some body)
      (changed : job = { sc.job with
        payload := .ingest
          { data with csv := String.ofList (mergeUpload data.csv.toList body.toList) }
        modifiedDate := now })
  | closed (now : String) (is : step = .close now) (wasOpen : sc.job.state = .open)
      (changed : job = sc.job.setState .uploadComplete now)
  | processed (data : IngestData) (now : String) (results : List RowResult)
      (is : step = .process) (wasClosed : sc.job.state = .uploadComplete)
      (had : sc.job.payload = .ingest data) (changed : job = finish sc.job now data.csv results)
  | aborted (now : String) (is : step = .abort now) (alive : sc.job.state.isTerminal = false)
      (changed : job = sc.job.setState .aborted now)

/-- All that a step can do to the job: nothing, or what its section of the call does in a state that
lets it. -/
theorem next_effect (s : Schema) (sc : Scene) (step : Step) :
    Effect s sc step (sc.next s step).job := by
  cases step with
  | upload now body =>
    cases hup : Ingest.upload sc.job now body with
    | error e => exact .none (by simp [next, hup]) (by simp [uploaded?, hup, Except.toOption]) rfl rfl
    | ok job =>
      rcases upload_ok hup with ⟨hopen, data, hdata, hjob⟩
      exact .uploaded now body data rfl hopen hdata (by simp [uploaded?, hup, Except.toOption])
        (by simpa [next, hup] using hjob)
  | close now =>
    cases hclose : Ingest.close sc.job now with
    | error e => exact .none (by simp [next, hclose]) rfl rfl rfl
    | ok job =>
      rcases close_ok hclose with ⟨hopen, hjob⟩
      exact .closed now rfl hopen (by simpa [next, hclose] using hjob)
  | process =>
    -- without a call that has closed the job there is none to process it
    by_cases hclosing : sc.closing = 0
    · have hsame : sc.next s .process = sc := by simp [next, hclosing]
      exact .none (by rw [hsame]) rfl rfl (by simp [isProcessed, hsame])
    · have hjob : (sc.next s .process).job = (Ingest.process sc.job s sc.rows).1 := by
        simp [next, hclosing]
      have hrows : (sc.next s .process).rows = (Ingest.process sc.job s sc.rows).2 := by
        simp [next, hclosing]
      rcases process_cases sc.job s sc.rows with hsame | ⟨data, now, results, hstate, hdata, hdone⟩
      · rw [hsame] at hjob hrows
        exact .none hjob rfl rfl (by simp [isProcessed, hjob, hrows])
      · exact .processed data now results rfl hstate hdata (hjob.trans hdone)
  | abort now =>
    cases habort : Ingest.abort sc.job now with
    | error e =>
      exact .none (by simp [next, habort]) rfl (by simp [isAborted, habort, Except.isOk, Except.toBool])
        rfl
    | ok job =>
      rcases abort_ok habort with ⟨halive, hjob⟩
      exact .aborted now rfl halive (by simpa [next, habort] using hjob)
  | elsewhere rows => exact .none rfl rfl rfl rfl

/-! ## A job that has ended -/

/-- To a job that has ended a step does nothing, and no request is accepted. -/
theorem next_of_terminal {s : Schema} {sc : Scene} (h : sc.job.state.isTerminal = true)
    (step : Step) :
    (sc.next s step).job = sc.job ∧ sc.isAborted step = false ∧ sc.isProcessed s step = false := by
  cases next_effect s sc step with
  | none same _ noAbort noProcess => exact ⟨same, noAbort, noProcess⟩
  | uploaded now body data is wasOpen => simp [wasOpen, JobState.isTerminal] at h
  | closed now is wasOpen => simp [wasOpen, JobState.isTerminal] at h
  | processed data now results is wasClosed => simp [wasClosed, JobState.isTerminal] at h
  | aborted now is alive => simp [alive] at h

/-- A job that has ended is never changed, aborted or processed again. -/
theorem run_of_terminal {s : Schema} {sc : Scene} (h : sc.job.state.isTerminal = true)
    (steps : List Step) :
    (sc.run s steps).job = sc.job ∧ ¬ sc.wasAborted s steps ∧ sc.processings s steps = 0 := by
  induction steps generalizing sc with
  | nil => exact ⟨rfl, by simp [wasAborted, trace], rfl⟩
  | cons step steps ih =>
    rcases next_of_terminal (s := s) h step with ⟨hjob, habort, hprocess⟩
    rcases ih (hjob ▸ h) with ⟨hrun, hnever, hnone⟩
    refine ⟨hrun.trans hjob, ?_, ?_⟩
    · rw [wasAborted_cons]
      simp [habort, hnever]
    · rw [processings_cons]
      simp [hprocess, hnone]

/-- A step that processes the job, or aborts it, ends it; no step does both. -/
theorem terminal_next {s : Schema} {sc : Scene} {step : Step}
    (h : sc.isProcessed s step = true ∨ sc.isAborted step = true) :
    (sc.next s step).job.state.isTerminal = true ∧
      (sc.isProcessed s step = false ∨ sc.isAborted step = false) := by
  cases next_effect s sc step with
  | none same noUpload noAbort noProcess => simp [noAbort, noProcess] at h
  | uploaded now body data is => subst is; simp [isProcessed, isAborted] at h
  | closed now is => subst is; simp [isProcessed, isAborted] at h
  | processed data now results is wasClosed had changed =>
    subst is
    refine ⟨?_, .inr rfl⟩
    rw [changed]
    rcases state_finish sc.job now data.csv results with hend | hend <;> rw [hend] <;> rfl
  | aborted now is alive changed =>
    subst is
    exact ⟨by rw [changed]; rfl, .inl rfl⟩

/-- The rows of a job are processed once at most. -/
theorem processings_le_one (s : Schema) (sc : Scene) (steps : List Step) :
    sc.processings s steps ≤ 1 := by
  induction steps generalizing sc with
  | nil => exact Nat.zero_le 1
  | cons step steps ih =>
    rw [processings_cons]
    split
    · next hnow =>
      have hlater := (run_of_terminal (s := s) (terminal_next (.inl hnow)).1 steps).2.2
      omega
    · exact ih (sc.next s step)

/-- The rows of a job that is aborted are never processed, neither before nor after. -/
theorem processings_of_wasAborted {s : Schema} {sc : Scene} {steps : List Step}
    (h : sc.wasAborted s steps) : sc.processings s steps = 0 := by
  induction steps generalizing sc with
  | nil => rfl
  | cons step steps ih =>
    rw [wasAborted_cons] at h
    rw [processings_cons]
    rcases h with hnow | hlater
    · -- the abort comes first: it ends the job, and is no processing itself
      rcases terminal_next (s := s) (.inr hnow) with ⟨hend, hone⟩
      have hrest := (run_of_terminal (s := s) hend steps).2.2
      have hnot : sc.isProcessed s step = false := hone.resolve_right (by simp [hnow])
      simp [hrest, hnot]
    · -- the abort comes later: then this step has not ended the job
      cases hnot : sc.isProcessed s step with
      | true => exact absurd hlater (run_of_terminal (terminal_next (.inl hnot)).1 steps).2.1
      | false => simp [ih hlater]

/-! ## What was uploaded -/

/-- The text of uploaded parts, merged in order. -/
def merged (parts : List String) : String :=
  String.ofList (parts.foldl (fun text part => mergeUpload text part.toList) [])

theorem merged_concat (parts : List String) (part : String) :
    merged (parts ++ [part]) = String.ofList (mergeUpload (merged parts).toList part.toList) := by
  simp [merged]

/-- What holds of a job to which some parts were uploaded: they make up its text, and results and
counters come from processing alone. -/
structure Holds (j : Job) (parts : List String) : Prop where
  payload : ∃ successful failed, j.payload = .ingest ⟨merged parts, successful, failed⟩
  blank : j.state ≠ .jobComplete → j.state ≠ .failed →
    j.processed = 0 ∧ j.failed = 0 ∧ j.payload = .ingest ⟨merged parts, [], []⟩

/-- A step keeps what holds of the job, with the part that the step uploads behind the others. -/
theorem Holds.next {sc : Scene} {parts : List String} (h : Holds sc.job parts) (s : Schema)
    (step : Step) : Holds (sc.next s step).job (parts ++ (sc.uploaded? step).toList) := by
  cases next_effect s sc step with
  | none same noUpload =>
    rw [same, noUpload]
    simpa using h
  | uploaded now body data is wasOpen had accepted changed =>
    have hblank := h.blank (by simp [wasOpen]) (by simp [wasOpen])
    have hdata : data = ⟨merged parts, [], []⟩ := Payload.ingest.inj (had.symm.trans hblank.2.2)
    subst hdata
    rw [changed, accepted, Option.toList_some]
    constructor
    · exact ⟨[], [], by rw [merged_concat]⟩
    · intro _ _
      exact ⟨hblank.1, hblank.2.1, by rw [merged_concat]⟩
  | closed now is wasOpen changed =>
    have hblank := h.blank (by simp [wasOpen]) (by simp [wasOpen])
    subst is
    rw [changed]
    constructor
    · simpa [uploaded?, Job.setState] using h.payload
    · intro _ _
      simpa [uploaded?, Job.setState] using hblank
  | processed data now results is wasClosed had changed =>
    subst is
    rw [changed]
    rcases h.payload with ⟨successful, failed, hpayload⟩
    have hdata : data = ⟨merged parts, successful, failed⟩ :=
      Payload.ingest.inj (had.symm.trans hpayload)
    subst hdata
    constructor
    · exact ⟨_, _, by simp [uploaded?, finish]; exact ⟨rfl, rfl⟩⟩
    · -- counters are set now, but so is one of the two states
      intro hcomplete hfailed
      exact absurd (state_finish sc.job now _ results) (not_or.mpr ⟨hcomplete, hfailed⟩)
  | aborted now is alive changed =>
    -- a job that can be aborted has not been processed
    have hcomplete : sc.job.state ≠ .jobComplete := by
      intro he
      simp [he, JobState.isTerminal] at alive
    have hfailed : sc.job.state ≠ .failed := by
      intro he
      simp [he, JobState.isTerminal] at alive
    have hblank := h.blank hcomplete hfailed
    subst is
    rw [changed]
    constructor
    · simpa [uploaded?, Job.setState] using h.payload
    · intro _ _
      simpa [uploaded?, Job.setState] using hblank

/-- A run keeps what holds of the job, with all the parts that it uploads. -/
theorem Holds.run {sc : Scene} {parts : List String} (h : Holds sc.job parts) (s : Schema)
    (steps : List Step) : Holds (sc.run s steps).job (parts ++ sc.uploads s steps) := by
  induction steps generalizing sc parts with
  | nil => simpa [uploads, trace, Scene.run] using h
  | cons step steps ih =>
    rw [uploads_cons, ← List.append_assoc]
    exact ih (h.next s step)

/-- A job that is not open takes no upload, and does not open again. -/
theorem next_of_not_open {s : Schema} {sc : Scene} (h : sc.job.state ≠ .open) (step : Step) :
    sc.uploaded? step = none ∧ (sc.next s step).job.state ≠ .open := by
  cases next_effect s sc step with
  | none same noUpload => exact ⟨noUpload, by rw [same]; exact h⟩
  | uploaded now body data is wasOpen => exact absurd wasOpen h
  | closed now is wasOpen => exact absurd wasOpen h
  | processed data now results is wasClosed had changed =>
    subst is
    refine ⟨rfl, ?_⟩
    rw [changed]
    rcases state_finish sc.job now data.csv results with hend | hend <;> simp [hend]
  | aborted now is alive changed =>
    subst is
    exact ⟨rfl, by simp [changed, Job.setState]⟩

/-- Once a job is not open, nothing is uploaded any more. -/
theorem uploads_of_not_open {s : Schema} {sc : Scene} (h : sc.job.state ≠ .open)
    (steps : List Step) : sc.uploads s steps = [] := by
  induction steps generalizing sc with
  | nil => rfl
  | cons step steps ih =>
    rcases next_of_not_open (s := s) h step with ⟨hnone, hstill⟩
    simp [uploads_cons, hnone, ih hstill]

/-! ## The life of a job -/

/-- The text that was uploaded to a job. -/
def uploadedText (j : Job) : Option String := j.ingestData.toOption.map (·.csv)

/-- What is promised of a job after some steps from a scene, and after more. -/
structure Settled (s : Schema) (sc : Scene) (early late : List Step) : Prop where
  /-- A job that has ended keeps its state. -/
  final : (sc.run s early).job.state.isTerminal = true →
    (sc.run s (early ++ late)).job.state = (sc.run s early).job.state
  once : sc.processings s early ≤ 1
  /-- No record is written for a job of which an abort was accepted at any time. -/
  aborted : sc.wasAborted s early → sc.processings s early = 0
  /-- The text of a job that has left the open state is fixed. -/
  fixed : (sc.run s early).job.state ≠ .open →
    uploadedText (sc.run s (early ++ late)).job = uploadedText (sc.run s early).job
  /-- An aborted job gives back what was uploaded. -/
  returned : (sc.run s early).job.state = .aborted →
    unprocessedRecords (sc.run s early).job = .ok (merged (sc.uploads s early))
  /-- Counters and results are blank until the job is complete or has failed. -/
  blank : (sc.run s early).job.state ≠ .jobComplete → (sc.run s early).job.state ≠ .failed →
    (sc.run s early).job.processed = 0 ∧ (sc.run s early).job.failed = 0 ∧
      ∃ csv, (sc.run s early).job.payload = .ingest ⟨csv, [], []⟩

/-- All of this holds of a job that was just created, with no parts. -/
theorem holds_create {c : Catalog} {supply supply' : Supply} {version : String} {r : Request}
    {job : Job} (h : create c supply version r = .ok (job, supply')) : Holds job [] := by
  have hpayload : job.payload = .ingest ⟨merged [], [], []⟩ ∧ job.processed = 0 ∧ job.failed = 0 := by
    unfold create at h
    simp only [bind, Except.bind] at h
    split at h
    · split at h
      · cases h
      · split at h
        · split at h
          · cases h
          · cases h
            exact ⟨rfl, rfl, rfl⟩
        · cases h
    · cases h
  exact ⟨⟨[], [], hpayload.1⟩, fun _ _ => ⟨hpayload.2.1, hpayload.2.2, hpayload.1⟩⟩

/-- A job settles once, whatever the requests on it and their order. -/
theorem created_job_settles {c : Catalog} {supply supply' : Supply} {version : String}
    {r : Request} {job : Job} (hnew : create c supply version r = .ok (job, supply'))
    (s : Schema) (rows : RowState) (early late : List Step) :
    Settled s (.start job rows) early late := by
  have hearly : Holds ((start job rows).run s early).job ((start job rows).uploads s early) := by
    have hstart : Holds (start job rows).job [] := holds_create hnew
    simpa using hstart.run s early
  refine ⟨?_, processings_le_one s _ early, processings_of_wasAborted, ?_, ?_, ?_⟩
  · intro hend
    rw [run_append, (run_of_terminal hend late).1]
  · -- no upload is accepted any more, so the parts stay the same
    intro hleft
    have hlate := hearly.run s late
    rw [uploads_of_not_open hleft, List.append_nil, ← run_append] at hlate
    rcases hearly.payload with ⟨_, _, hbefore⟩
    rcases hlate.payload with ⟨_, _, hafter⟩
    simp [uploadedText, Job.ingestData, hbefore, hafter, Except.toOption]
  · intro haborted
    rcases hearly.payload with ⟨_, _, hpayload⟩
    simp [unprocessedRecords, ingestData_ok.mpr hpayload, haborted, bind, Except.bind, pure,
      Except.pure]
  · intro hcomplete hfailed
    rcases hearly.blank hcomplete hfailed with ⟨hprocessed, hnone, hpayload⟩
    exact ⟨hprocessed, hnone, _, hpayload⟩

/-- An object without fields. -/
def plain : Schema := { name := "A", idPrefix := "001" }

/-- Two parts are uploaded, the second with the header again, and the job is aborted after it was
closed and before it is processed. -/
def abortedSteps : List Step :=
  [.upload "t" "Name\nx", .upload "t" "Name\ny\n", .close "t", .abort "t", .process]

/-- No row is written, and both parts come back as one. -/
theorem aborted_job_settles :
    ∃ job supply', create ⟨[plain]⟩ ⟨0, 0⟩ "59.0"
        { Request.blank with object := some "A", operation := some "insert" } =
          .ok (job, supply') ∧
      let sc := start job ⟨.empty, supply'⟩
      Settled plain sc abortedSteps [.upload "t" "Name\nz"] ∧
      (sc.run plain abortedSteps).job.state = .aborted ∧
      sc.processings plain abortedSteps = 0 ∧
      unprocessedRecords (sc.run plain abortedSteps).job = .ok "Name\nx\ny\n" := by
  have hnew : ∃ made, create ⟨[plain]⟩ ⟨0, 0⟩ "59.0"
        { Request.blank with object := some "A", operation := some "insert" } = .ok made ∧
      ((start made.1 ⟨.empty, made.2⟩).run plain abortedSteps).job.state = .aborted ∧
      (start made.1 ⟨.empty, made.2⟩).wasAborted plain abortedSteps ∧
      merged ((start made.1 ⟨.empty, made.2⟩).uploads plain abortedSteps) = "Name\nx\ny\n" := by
    refine ⟨_, rfl, by decide +kernel, ?_, by decide +kernel⟩
    simp only [abortedSteps, wasAborted_cons]
    exact .inr (.inr (.inr (.inl rfl)))
  obtain ⟨⟨job, supply'⟩, hjob, hstate, haborted, htext⟩ := hnew
  have hsettled := created_job_settles hjob plain ⟨.empty, supply'⟩ abortedSteps
    [.upload "t" "Name\nz"]
  exact ⟨job, supply', hjob, hsettled, hstate, hsettled.aborted haborted,
    htext ▸ hsettled.returned hstate⟩

end Scene

end Ingest

end CrmEmulator
