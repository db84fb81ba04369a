import CrmEmulator.Bulk.Legacy
import CrmEmulator.Proofs.Outcome
import Mathlib.Algebra.GroupWithZero.Nat

/-!
# CrmEmulator.Proofs.Bulk.Batches — a job with batches keeps its accounts

The rows of a batch are counted twice: by the batch, and by its job, which adds up what its batches
count.

1. `Batch.Settled`: a batch after it was added, and what its counters and its state say about its
   results.  Every batch that is added is settled, whatever its payload is.
2. `Turn`: all that an accepted request does to a job, which is to take in one more settled batch,
   or to go from one state to another.
3. `Balanced` and `Later`: the job counts what its batches count, and what was is never undone.
   Both are kept by every turn.
-/

namespace CrmEmulator

/-- A batch that will not change any more: it has failed or is complete, and its counters agree
with its results. -/
structure Batch.Settled (b : Batch) : Prop where
  ended : b.state = .completed ∨ b.state = .failed
  failed_iff : b.state = .failed ↔ ¬ ∃ r ∈ b.results, r.isSuccess
  processed : b.processed = b.results.length
  failed : b.failed = b.results.countP fun r => !r.isSuccess

/-- The changes of state of a job with batches. -/
inductive JobState.LeadsTo : JobState → JobState → Prop
  | close : JobState.LeadsTo .open .closed
  | abortOpen : JobState.LeadsTo .open .aborted
  | abortClosed : JobState.LeadsTo .closed .aborted

namespace Legacy

/-! ## Batches -/

/-- All results are failures exactly when none is a success. -/
theorem filter_failed_length_iff (results : List RowResult) :
    (results.filter fun r => !r.isSuccess).length = results.length ↔
      ¬ ∃ r ∈ results, r.isSuccess := by
  rw [List.length_filter_eq_length_iff]
  constructor
  · rintro hall ⟨r, hr, hsuccess⟩
    simpa [hsuccess] using hall r hr
  · intro hnone r hr
    have hfailure : r.isSuccess ≠ true := fun hsuccess => hnone ⟨r, hr, hsuccess⟩
    simpa using hfailure

/-- A batch is settled as soon as its rows were processed; without rows it has failed. -/
theorem settled_finishBatch (b : Batch) (results : List RowResult) :
    (finishBatch b results).Settled := by
  have hall := filter_failed_length_iff results
  constructor
  · show (if _ then _ else _) = BatchState.completed ∨ (if _ then _ else _) = BatchState.failed
    split
    · exact .inr rfl
    · exact .inl rfl
  · show (if _ then _ else _) = BatchState.failed ↔ ¬ ∃ r ∈ results, r.isSuccess
    split
    · next heq => simpa using hall.mp heq
    · next hne => simpa using mt hall.mpr hne
  · rfl
  · exact List.countP_eq_length_filter.symm

/-- A batch whose payload cannot be read is settled without any results. -/
theorem settled_rejectBatch {b : Batch} (hresults : b.results = []) (hprocessed : b.processed = 0)
    (hfailed : b.failed = 0) (e : Failure) : (rejectBatch b e).Settled where
  ended := .inr rfl
  failed_iff := by simp [rejectBatch, hresults]
  processed := by simp [rejectBatch, hresults, hprocessed]
  failed := by simp [rejectBatch, hresults, hfailed]

/-- Aborting a job does nothing to batches that have ended. -/
theorem abortBatch_of_settled {b : Batch} (h : b.Settled) : abortBatch b = b := by
  unfold abortBatch
  rcases h.ended with hstate | hstate <;> rw [hstate]

/-- Settled batches are complete or have failed, and none is both. -/
theorem length_eq_countIn {bs : List Batch} (h : ∀ b ∈ bs, b.Settled) :
    bs.length = countIn .completed bs + countIn .failed bs := by
  induction bs with
  | nil => rfl
  | cons b bs ih =>
    rw [List.forall_mem_cons] at h
    have hrest := ih h.2
    simp only [countIn, List.filter_cons, List.length_cons] at hrest ⊢
    rcases h.1.ended with hstate | hstate
    · simp only [hstate, beq_self_eq_true, if_true, List.length_cons]
      rw [if_neg (by decide)]
      omega
    · simp only [hstate, beq_self_eq_true, if_true, List.length_cons]
      rw [if_neg (by decide)]
      omega

/-! ## Turns of a job -/

/-- All that a request does to a job that accepts it. -/
inductive Turn (j : Job) (bs : List Batch) (j' : Job) : Prop
  | added (b : Batch) (now : String) (wasOpen : j.state = .open) (settled : b.Settled)
      (changed : j' = { j with
        processed := j.processed + b.processed
        failed := j.failed + b.failed
        payload := .batches (bs ++ [b])
        modifiedDate := now })
  | moved (state : JobState) (now : String) (leads : j.state.LeadsTo state)
      (changed : j' = j.setState state now)

/-- A batch is added to an open job only, and with any payload. -/
theorem addBatch_turn {j j' : Job} {bs : List Batch} {s : Schema} {st st' : RowState}
    {body : String} {b : Batch} (h : addBatch j bs s st body = .ok (b, j', st')) :
    j.state = .open ∧ Turn j bs j' := by
  unfold addBatch at h
  split at h
  · cases h
  · next hopen =>
    have hstate : j.state = .open := Decidable.not_not.mp hopen
    refine ⟨hstate, ?_⟩
    cases hrows : parsePayload (.ofContentType j.contentType) body.toList with
    | error e =>
      simp only [hrows] at h
      cases h
      exact .added _ _ hstate (settled_rejectBatch rfl rfl rfl e) rfl
    | ok rows =>
      simp only [hrows] at h
      cases h
      exact .added _ _ hstate (settled_finishBatch _ _) rfl

/-- An open job answers every payload, be it that its batch is rejected. -/
theorem addBatch_of_open {j : Job} (hopen : j.state = .open) (bs : List Batch) (s : Schema)
    (st : RowState) (body : String) : ∃ answer, addBatch j bs s st body = .ok answer := by
  unfold addBatch
  rw [if_neg (not_not_intro hopen)]
  exact ⟨_, rfl⟩

/-- A job is closed, or aborted, which leaves its batches as they are. -/
theorem changeState_turn {j j' : Job} {bs : List Batch} (hbs : j.payload = .batches bs)
    (hsettled : ∀ b ∈ bs, b.Settled) {now target : String}
    (h : changeState j bs now target = .ok j') : Turn j bs j' := by
  -- no batch waits, so there is none that an abort could stop
  have hkept : bs.map abortBatch = bs := by
    rw [List.map_congr_left fun b hb => abortBatch_of_settled (hsettled b hb), List.map_id']
  have hsame : { j with payload := .batches bs } = j := by
    rw [← hbs]
  unfold changeState at h
  split at h
  · next hstate =>
    cases h
    exact .moved _ now (hstate ▸ .close) rfl
  · next hstate =>
    cases h
    rw [hkept, hsame]
    exact .moved _ now (hstate ▸ .abortOpen) rfl
  · next hstate =>
    cases h
    rw [hkept, hsame]
    exact .moved _ now (hstate ▸ .abortClosed) rfl
  · cases h

/-- A job takes the states that are asked for by name, as long as its own state leads there. -/
theorem changeState_accepts_iff (j : Job) (bs : List Batch) (now target : String) :
    (∃ j', changeState j bs now target = .ok j') ↔
      ∃ next, j.state.LeadsTo next ∧ target = next.name := by
  constructor
  · rintro ⟨j', h⟩
    unfold changeState at h
    split at h
    · next hstate => exact ⟨.closed, hstate ▸ .close, rfl⟩
    · next hstate => exact ⟨.aborted, hstate ▸ .abortOpen, rfl⟩
    · next hstate => exact ⟨.aborted, hstate ▸ .abortClosed, rfl⟩
    · cases h
  · rintro ⟨next, hleads, rfl⟩
    unfold changeState
    generalize j.state = state at hleads
    cases hleads <;> exact ⟨_, rfl⟩

/-! ## Accounts -/

/-- A job counts what its batches count. -/
structure Balanced (j : Job) (bs : List Batch) : Prop where
  settled : ∀ b ∈ bs, b.Settled
  processed : j.processed = (bs.map (·.processed)).sum
  failed : j.failed = (bs.map (·.failed)).sum

/-- A job with its batches at a later time: batches are only added, the first of them while the
job was open, and a state is only left for one that it leads to. -/
structure Later (j : Job) (bs : List Batch) (j' : Job) (more : List Batch) : Prop where
  payload : j'.payload = .batches (bs ++ more)
  state : j'.state = j.state ∨ j.state.LeadsTo j'.state
  wasOpen : more ≠ [] → j.state = .open
  id : j'.id = j.id
  object : j'.object = j.object

/-- A job is later than itself, by no batches. -/
theorem Later.refl {j : Job} {bs : List Batch} (hbs : j.payload = .batches bs) :
    Later j bs j [] where
  payload := by rw [hbs, List.append_nil]
  state := .inl rfl
  wasOpen := fun hmore => absurd rfl hmore
  id := rfl
  object := rfl

/-- Being later is transitive, and the batches that came in between join up. -/
theorem Later.trans {j j' j'' : Job} {bs more others : List Batch} (h : Later j bs j' more)
    (h' : Later j' (bs ++ more) j'' others) : Later j bs j'' (more ++ others) where
  payload := by rw [h'.payload, List.append_assoc]
  state := by
    rcases h.state with hsame | hleads
    · exact hsame ▸ h'.state
    · -- every state that is led to and left is the closed one, which an abort would skip
      rcases h'.state with hsame | hleads'
      · exact .inr (hsame ▸ hleads)
      · generalize j.state = a, j'.state = b, j''.state = c at hleads hleads'
        cases hleads <;> cases hleads'
        exact .inr .abortOpen
  wasOpen := by
    intro hne
    by_cases hmore : more = []
    · have hothers : others ≠ [] := by simpa [hmore] using hne
      have hopen := h'.wasOpen hothers
      rcases h.state with hsame | hleads
      · exact hsame ▸ hopen
      · -- no state leads back to the open one
        rw [hopen] at hleads
        generalize j.state = a at hleads
        cases hleads
    · exact h.wasOpen hmore
  id := h'.id.trans h.id
  object := h'.object.trans h.object

/-- Every call leads to a later job, and its counts still match its batches. -/
theorem Turn.later {j j' : Job} {bs : List Batch} (h : Turn j bs j') (hbs : j.payload = .batches bs)
    (hbalanced : Balanced j bs) : ∃ more, Later j bs j' more ∧ Balanced j' (bs ++ more) := by
  cases h with
  | added b now wasOpen settled changed =>
    subst changed
    refine ⟨[b], ⟨rfl, .inl rfl, fun _ => wasOpen, rfl, rfl⟩, ?_⟩
    constructor
    · intro c hc
      rcases List.mem_append.mp hc with hc | hc
      · exact hbalanced.settled c hc
      · exact List.mem_singleton.mp hc ▸ settled
    · simp [hbalanced.processed]
    · simp [hbalanced.failed]
  | moved state now leads changed =>
    subst changed
    refine ⟨[], ⟨by simpa [Job.setState] using hbs, .inr leads, fun hne => absurd rfl hne, rfl, rfl⟩,
      ?_⟩
    rw [List.append_nil]
    exact ⟨hbalanced.settled, hbalanced.processed, hbalanced.failed⟩

/-- A new job has no batches yet, and has counted nothing. -/
theorem create_new {c : Catalog} {supply supply' : Supply} {version xml : String} {j : Job}
    (h : create c supply version xml = .ok (j, supply')) :
    j.payload = .batches [] ∧ Balanced j [] ∧ c.contains j.object := by
  unfold create at h
  simp only [bind, Except.bind] at h
  split at h
  · split at h
    · split at h
      · split at h
        · cases h
        · next hobject =>
          cases h
          rw [Bool.not_eq_true, Bool.not_eq_false'] at hobject
          exact ⟨rfl, ⟨List.forall_mem_nil _, rfl, rfl⟩, hobject⟩
      · cases h
    · cases h
  · cases h

end Legacy

end CrmEmulator
