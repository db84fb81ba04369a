import CrmEmulator.Http.Service
import CrmEmulator.Proofs.Org.Failures

/-!
# CrmEmulator.Proofs.Http.Errors — how errors are answered

1. Every call succeeds with a status below 400, or fails with something to say, or runs a program
   that is broken off.
2. `BreaksOff`: the requests that run such a program.  They alone get no response.
3. `Request.IsReadable`: a request whose parameters and whose text make characters.  Any other is
   refused before it reaches a call, with a plain text.
4. Outside the asynchronous interface, the error that answers a readable request is a list of
   errors.
-/

namespace CrmEmulator.Http

/-! ## Bodies -/

/-- A body that is no document fails with a reason. -/
theorem voiced_documentBody (body : List UInt8) : Voiced (documentBody body) := by
  unfold documentBody
  split
  · exact voiced_ok _
  split
  · exact voiced_ok _
  · exact ends_single rfl

/-- A body without a state fails with a reason. -/
theorem voiced_stateBody (body : List UInt8) : Voiced (stateBody body) := by
  unfold stateBody
  simp only
  split
  · exact voiced_ok _
  · exact ends_single rfl

/-- A body that describes no job fails with a reason. -/
theorem voiced_ingestBody (body : List UInt8) : Voiced (ingestBody body) := by
  unfold ingestBody
  split
  · exact voiced_ok _
  · exact ends_single rfl

/-- A body that describes no query job fails with a reason. -/
theorem voiced_queryBody (body : List UInt8) : Voiced (queryBody body) := by
  unfold queryBody
  split
  · exact voiced_ok _
  · exact ends_single rfl

/-- A body without a program fails with a reason. -/
theorem voiced_programBody (body : List UInt8) : Voiced (programBody body) := by
  have hdocument : Voiced ((documentBody body).mapError fun _ => .malformedQuery badBody) :=
    voiced_mapError fun _ => List.cons_ne_nil _ _
  refine hdocument.bind fun doc => ?_
  split
  · exact voiced_ok _
  · exact ends_single rfl

/-- A request without its query fails with a reason. -/
theorem voiced_queryParameter (r : Request) (missing : String) :
    Voiced (queryParameter r missing) := by
  unfold queryParameter
  split
  · exact voiced_ok _
  · exact ends_single rfl

/-! ## Calls -/

/-- A failure of a program stays one that shows an error. -/
theorem bodies_programFailure {e : Failure} (h : e.bodies ≠ []) :
    (programFailure e).bodies ≠ [] := by
  unfold programFailure
  split
  · exact List.cons_ne_nil _ _
  · exact h

/-- A response that reports no error. -/
def Response.IsSuccess (response : Response) : Prop := response.status < 400

theorem isSuccess_json {status : Nat} (h : status < 400) (doc : Json) :
    (Response.json status doc).IsSuccess := h

theorem isSuccess_text {status : Nat} (h : status < 400) (type text : String) :
    (Response.text status type text).IsSuccess := h

theorem isSuccess_empty {status : Nat} (h : status < 400) : (Response.empty status).IsSuccess := h

/-- What only looks at an organisation succeeds with a status below 400, or fails with a reason. -/
theorem ends_look (o : Org) (r : Request) (call : Call String) :
    Ends Response.IsSuccess (look o r call) := by
  have hjson (doc : Json) : Ends Response.IsSuccess (.ok (.json 200 doc)) :=
    ends_ok (isSuccess_json (by decide) doc)
  have htext (type text : String) : Ends Response.IsSuccess (.ok (.text 200 type text)) :=
    ends_ok (isSuccess_text (by decide) type text)
  have hdownload (d : Download) : Ends Response.IsSuccess (.ok (downloadResponse d)) :=
    ends_ok (show 200 < 400 by decide)
  have hresults (csv : String) (count : Nat) :
      Ends Response.IsSuccess (.ok (queryResultsResponse csv count)) :=
    ends_ok (show 200 < 400 by decide)
  -- what a call looks up fails with a reason; behind that there is always a response
  cases call with
  | query v =>
    refine (voiced_queryParameter r _).bind fun text => ?_
    exact (o.store.voiced_query o.catalog text v).bind fun _ => hjson _
  | search v =>
    refine (voiced_queryParameter r _).bind fun text => ?_
    exact (o.store.voiced_search o.catalog text v).bind fun _ => hjson _
  | describe v object => exact (o.voiced_describe v object).bind hjson
  | getRecord v object id => exact (o.voiced_getRecord v object id).bind hjson
  | download v object id field => exact (o.voiced_download object id field).bind hdownload
  | getDataset v dataset => exact (o.datasets.voiced_getJson v dataset).bind hjson
  | datasetVersions v dataset => exact (o.datasets.voiced_getVersionsJson v dataset).bind hjson
  | getIngest v job => exact (o.voiced_ingestJob job).bind fun _ => hjson _
  | successfulResults v job =>
    refine (o.voiced_ingestJob job).bind fun j => ?_
    exact (Org.voiced_successfulResults j).bind fun _ => htext _ _
  | failedResults v job =>
    refine (o.voiced_ingestJob job).bind fun j => ?_
    exact (Org.voiced_failedResults j).bind fun _ => htext _ _
  | unprocessedRecords v job =>
    refine (o.voiced_ingestJob job).bind fun j => ?_
    exact (Org.voiced_unprocessedRecords j).bind fun _ => htext _ _
  | getQuery v job => exact (o.voiced_queryJob job).bind fun _ => hjson _
  | queryResults v job => exact (o.voiced_queryResults job).bind fun ⟨_, _⟩ => hresults _ _
  | getBatchJob v job => exact (o.voiced_batchJobDocument job).bind fun _ => htext _ _
  | listBatches v job => exact (o.voiced_batchList job).bind fun _ => htext _ _
  | getBatch v job batch => exact (o.voiced_batchDocument job batch).bind fun _ => htext _ _
  | batchResults v job batch => exact (o.voiced_batchResults job batch).bind fun ⟨_, _⟩ => htext _ _
  | objectRecords object => exact (o.voiced_objectJson object).bind hjson
  | _ => exact hjson _

/-- What may change the organisation succeeds with a status below 400, or fails with a reason. -/
theorem ends_run (o : Org) (r : Request) (call : Call String) :
    Ends (fun result => result.1.IsSuccess) (run o r call) := by
  have hjson {status : Nat} (h : status < 400) (doc : Json) (o' : Org) :
      Ends (fun result => result.1.IsSuccess) (.ok (Response.json status doc, o')) :=
    ends_ok (isSuccess_json h doc)
  have htext {status : Nat} (h : status < 400) (type text : String) (o' : Org) :
      Ends (fun result => result.1.IsSuccess) (.ok (Response.text status type text, o')) :=
    ends_ok (isSuccess_text h type text)
  have hempty {status : Nat} (h : status < 400) (o' : Org) :
      Ends (fun result => result.1.IsSuccess) (.ok (Response.empty status, o')) :=
    ends_ok (isSuccess_empty h)
  -- what a call reads and looks up fails with a reason; behind that there is always a response
  cases call with
  | token => exact hjson (by decide) _ _
  | createRecord v object =>
    refine (voiced_documentBody r.body).bind fun body => ?_
    exact (o.voiced_createRecord object body).bind fun ⟨_, _⟩ => hjson (by decide) _ _
  | updateRecord v object id =>
    refine (voiced_documentBody r.body).bind fun body => ?_
    exact (o.voiced_updateRecord object id body).bind fun _ => hempty (by decide) _
  | deleteRecord v object id =>
    exact (o.voiced_deleteRecord object id).bind fun _ => hempty (by decide) _
  | upsertRecord v object field value =>
    refine (voiced_documentBody r.body).bind fun body => ?_
    refine (o.voiced_upsertRecord object field value body).bind fun ⟨what, _⟩ => ?_
    cases what with
    | created id => exact hjson (by decide) _ _
    | updated => exact hempty (by decide) _
  | createIngest v =>
    refine (voiced_ingestBody r.body).bind fun body => ?_
    exact (o.voiced_createIngest body).bind fun ⟨_, _⟩ => hjson (by decide) _ _
  | changeIngest v job =>
    refine (voiced_stateBody r.body).bind fun state => ?_
    exact (o.voiced_changeIngest job state).bind fun ⟨_, _⟩ => hjson (by decide) _ _
  | deleteIngest v job => exact (o.voiced_deleteIngest job).bind fun _ => hempty (by decide) _
  | upload v job => exact (o.voiced_upload job (bodyText r)).bind fun _ => hempty (by decide) _
  | createQuery v =>
    refine (voiced_queryBody r.body).bind fun body => ?_
    exact (o.voiced_createQuery body).bind fun ⟨_, _⟩ => hjson (by decide) _ _
  | changeQuery v job =>
    refine (voiced_stateBody r.body).bind fun state => ?_
    exact (o.voiced_changeQuery job state).bind fun ⟨_, _⟩ => hjson (by decide) _ _
  | deleteQuery v job => exact (o.voiced_deleteQuery job).bind fun _ => hempty (by decide) _
  | createBatchJob v =>
    exact (o.voiced_createBatchJob (bodyText r)).bind fun ⟨_, _⟩ => htext (by decide) _ _ _
  | changeBatchJob v job =>
    exact (o.voiced_changeBatchJob job (bodyText r)).bind fun ⟨_, _⟩ => htext (by decide) _ _ _
  | addBatch v job =>
    exact (o.voiced_addBatch job (bodyText r)).bind fun ⟨_, _⟩ => htext (by decide) _ _ _
  | stream v => exact (voiced_documentBody r.body).bind fun _ => hjson (by decide) _ _
  | reset => exact hjson (by decide) _ _
  | _ => exact (ends_look o r _).andThen fun _ h => ends_ok h

/-- A program over a dataset succeeds, fails with something to say, or is broken off. -/
theorem ends_queryDataset (o : Org) (r : Request) :
    EndsWith (fun result => result.1.IsSuccess) Halt.IsVoiced (queryDataset o r) := by
  have hprogram : EndsWith (fun _ => True) Halt.IsVoiced
      ((programBody r.body).mapError Halt.failure) :=
    (voiced_programBody r.body).mapError fun _ h => h
  refine hprogram.bind fun program => ?_
  have hquery := o.datasets.voiced_query o.supply program
  generalize o.datasets.query o.supply program = outcome at hquery ⊢
  rcases outcome with ⟨result, supply⟩
  have hshown : EndsWith (fun _ => True) Halt.IsVoiced
      (result.mapError (·.mapFailure programFailure)) := by
    refine hquery.mapError fun halt hvoiced => ?_
    cases halt with
    | failure e => exact bodies_programFailure hvoiced
    | overflow => trivial
  exact hshown.bind fun doc => ends_ok (isSuccess_json (by decide) doc)

/-- A call succeeds, fails with something to say, or is broken off. -/
theorem ends_perform (o : Org) (r : Request) (call : Call String) :
    EndsWith (fun result => result.1.IsSuccess) Halt.IsVoiced (perform o r call) := by
  unfold perform
  split
  · exact ends_queryDataset o r
  · exact (ends_run o r call).mapError fun _ h => h

/-! ## Programs that are broken off -/

/-- Failures of another kind are never an overflow. -/
theorem mapError_ne_overflow {ε α : Type} {f : ε → Failure} (x : Except ε α) :
    (x.mapError fun e => Halt.failure (f e)) ≠ .error .overflow := by
  cases x <;> exact nofun

/-- Running a program is broken off exactly if the program can be read, there is the dataset that it
loads, and its steps are broken off. -/
theorem runText_eq_overflow {s : Datasets} {text : String} :
    s.runText text = .error .overflow ↔ ∃ p d, Saql.Program.parse text = .ok p ∧
      s.resolve p.dataset = .ok d ∧ p.run d.rows = .error .overflow := by
  have hresolve (p : Saql.Program) : (s.resolve p.dataset).mapError Halt.failure ≠
      .error .overflow := mapError_ne_overflow (f := id) _
  simp only [Datasets.runText, bind_eq_error, mapError_ne_overflow, hresolve, mapError_eq_ok,
    false_or]
  constructor
  · rintro ⟨p, hp, d, hd, hrun⟩
    exact ⟨p, d, hp, hd, hrun⟩
  · rintro ⟨p, d, hp, hd, hrun⟩
    exact ⟨p, hp, d, hd, hrun⟩

/-- The request asks for a program to be run that adds up integers beyond their range. -/
def BreaksOff (o : Org) (r : Request) : Prop :=
  ∃ offer call version program p d, offerAt? r.address.path = some offer ∧
    offer.call? r.method = some call ∧ call.decode = .ok (.queryDataset version) ∧
    programBody r.body = .ok program ∧ Saql.Program.parse program = .ok p ∧
    o.datasets.resolve p.dataset = .ok d ∧ p.run d.rows = .error .overflow

/-- A request for a program is broken off exactly if it has a program whose run is. -/
theorem queryDataset_eq_overflow {o : Org} {r : Request} :
    queryDataset o r = .error .overflow ↔ ∃ program, programBody r.body = .ok program ∧
      o.datasets.runText program = .error .overflow := by
  have hprogram : (programBody r.body).mapError Halt.failure ≠ .error .overflow :=
    mapError_ne_overflow (f := id) _
  simp only [queryDataset, bind_eq_error, hprogram, mapError_eq_ok, false_or]
  refine exists_congr fun program => and_congr_right fun _ => ?_
  unfold Datasets.query
  cases o.datasets.runText program with
  | ok rows => exact ⟨nofun, nofun⟩
  | error halt =>
    cases halt with
    | failure e => exact ⟨nofun, nofun⟩
    | overflow => exact ⟨fun _ => rfl, fun _ => .inl rfl⟩

/-- No other call is broken off. -/
theorem perform_eq_overflow {o : Org} {r : Request} {call : Call String} :
    perform o r call = .error .overflow ↔
      ∃ version, call = .queryDataset version ∧ queryDataset o r = .error .overflow := by
  unfold perform
  split
  · next version =>
    refine ⟨fun h => ⟨version, rfl, h⟩, ?_⟩
    rintro ⟨_, -, h⟩
    exact h
  · next hother =>
    refine ⟨fun h => (mapError_ne_overflow (f := id) _ h).elim, ?_⟩
    rintro ⟨version, hcall, -⟩
    exact (hother version hcall).elim

/-! ## Requests that can be read -/

/-- Every parameter in the path is a text, and so is the body if the call takes it as one. -/
def Request.IsReadable (r : Request) : Prop :=
  ∀ offer call, offerAt? r.address.path = some offer → offer.call? r.method = some call →
    (∀ parameter ∈ call.parameters, (Percent.decode? parameter.2.toList).isSome) ∧
      (call.takesText → (Utf8.decode? r.body).isSome)

/-- The path begins as those of the asynchronous interface, where errors are XML documents. -/
def Request.IsAsync (r : Request) : Prop :=
  (splitAtChar '/' r.address.path).take 3 = [[], "services".toList, "async".toList]

instance (r : Request) : Decidable r.IsAsync := inferInstanceAs (Decidable (_ = _))

theorem Call.takesText_map {α β : Type} (f : α → β) (call : Call α) :
    (call.map f).takesText = call.takesText := by
  cases call <;> rfl

/-- A call can be decoded exactly if all its parameters are texts. -/
theorem Call.decode_eq (call : Call String) :
    (∃ decoded, call.decode = .ok decoded ∧ decoded.takesText = call.takesText ∧
        ∀ parameter ∈ call.parameters, (Percent.decode? parameter.2.toList).isSome) ∨
      ∃ name, call.decode = .error name ∧
        ∃ parameter ∈ call.parameters, (Percent.decode? parameter.2.toList).isNone := by
  unfold decode
  split
  · next name segment hfound =>
    refine .inr ⟨name, rfl, (name, segment), List.mem_of_find?_eq_some hfound, ?_⟩
    have hbad := List.find?_some hfound
    exact hbad
  · next hnone =>
    rw [List.find?_eq_none] at hnone
    refine .inl ⟨_, rfl, takesText_map _ call, fun parameter hmem => ?_⟩
    simpa [Option.isSome_iff_ne_none] using hnone parameter hmem

/-- All addresses outside of the asynchronous interface answer errors as documents. -/
theorem offerOf?_errorForm {segments : List String} {offer : Offer}
    (h : offerOf? segments = some offer) : offer.errorForm = .json ∨
      ∃ rest, segments = "services" :: "async" :: rest := by
  unfold offerOf? at h
  split at h
  all_goals first
    | exact .inr ⟨_, rfl⟩
    | cases h; done
    | cases h; exact .inl rfl
    | rcases Option.map_eq_some_iff.mp h with ⟨calls, -, rfl⟩; exact .inl rfl

/-- Only the asynchronous interface answers errors in another form. -/
theorem errorForm_of_not_isAsync {r : Request} {offer : Offer}
    (h : offerAt? r.address.path = some offer) (hasync : ¬ r.IsAsync) :
    offer.errorForm = .json := by
  unfold offerAt? at h
  split at h
  · next segments hsegments =>
    split at h
    · cases h
    refine (offerOf?_errorForm h).resolve_right ?_
    rintro ⟨rest, hrest⟩
    rcases List.map_eq_cons_iff.mp hrest with ⟨first, tail, rfl, hfirst, htail⟩
    rcases List.map_eq_cons_iff.mp htail with ⟨second, others, rfl, hsecond, -⟩
    refine hasync ?_
    rw [Request.IsAsync, hsegments, ← hfirst, ← hsecond, String.toList_ofList,
      String.toList_ofList]
    rfl
  · cases h

/-! ## Answers -/

/-- For a call that is offered, reading a request takes its parameters, and its body where that is a
text. -/
theorem isReadable_iff {r : Request} {offer : Offer} {call : Call String}
    (hoffer : offerAt? r.address.path = some offer) (hcall : offer.call? r.method = some call) :
    r.IsReadable ↔ (∀ parameter ∈ call.parameters, (Percent.decode? parameter.2.toList).isSome) ∧
      (call.takesText → (Utf8.decode? r.body).isSome) := by
  refine ⟨fun h => h offer call hoffer hcall, fun h => ?_⟩
  intro offer' call' hoffer' hcall'
  obtain rfl : offer = offer' := Option.some.inj (hoffer.symm.trans hoffer')
  obtain rfl : call = call' := Option.some.inj (hcall.symm.trans hcall')
  exact h

/-- What becomes of a request. -/
inductive Answered (o : Org) (r : Request) : Option Response × Org → Prop
  | done {response : Response} {o' : Org} (hreadable : r.IsReadable) (h : response.IsSuccess) :
      Answered o r (some response, o')
  | failed {e : Failure} (hreadable : r.IsReadable) (h : e.bodies ≠ []) :
      Answered o r (some (.failure e), o)
  | refused (text : String) (hreadable : ¬ r.IsReadable) :
      Answered o r (some (.text 400 Response.plainType text), o)
  | brokenOff (h : BreaksOff o r) : Answered o r (none, o)

/-- Outside the asynchronous interface, a request is refused with a plain text if it cannot be read;
else it succeeds, or fails with something to say, or its work is broken off. -/
theorem answered (o : Org) {r : Request} (hpath : offerAt? r.address.path = none ∨ ¬ r.IsAsync) :
    Answered o r (answer o r) := by
  unfold answer
  split
  · next hnone =>
    -- nothing is offered at the address
    refine .failed (fun offer call hoffer => ?_) (List.cons_ne_nil _ _)
    cases hnone.symm.trans hoffer
  next offer hoffer =>
  have hform : offer.errorForm = .json := by
    rcases hpath with hnone | hasync
    · cases hnone.symm.trans hoffer
    · exact errorForm_of_not_isAsync hoffer hasync
  rw [hform]
  split
  · next hnone =>
    -- the method is not offered there
    refine .failed (fun offer' call hoffer' hcall => ?_) (List.cons_ne_nil _ _)
    obtain rfl : offer = offer' := Option.some.inj (hoffer.symm.trans hoffer')
    cases hnone.symm.trans hcall
  next call hcall =>
  have hreadable := isReadable_iff hoffer hcall
  rcases call.decode_eq with ⟨decoded, hdecoded, htakes, hgood⟩ |
    ⟨name, herror, parameter, hmem, hbad⟩
  · -- the parameters make characters, and now the body has to where it is taken as a text
    simp only [hdecoded, htakes]
    split
    · next htext =>
      refine .refused _ fun h => ?_
      rw [Bool.and_eq_true] at htext
      have hbody := (hreadable.mp h).2 htext.1
      rw [Option.isNone_iff_eq_none.mp htext.2] at hbody
      cases hbody
    · next htext =>
      have hread : r.IsReadable := by
        refine hreadable.mpr ⟨hgood, fun htakes => ?_⟩
        cases hbody : Utf8.decode? r.body with
        | some cs => rfl
        | none => exact (htext (by simp [htakes, hbody])).elim
      have hperform := ends_perform o r decoded
      cases hresult : perform o r decoded with
      | ok result => exact .done hread (hperform.ok result hresult)
      | error halt =>
        cases halt with
        | failure e => exact .failed hread (hperform.error _ hresult)
        | overflow =>
          obtain ⟨version, rfl, hquery⟩ := perform_eq_overflow.mp hresult
          obtain ⟨program, hprogram, hrun⟩ := queryDataset_eq_overflow.mp hquery
          obtain ⟨p, d, hparse, hresolve, hsteps⟩ := runText_eq_overflow.mp hrun
          exact .brokenOff ⟨offer, call, version, program, p, d, hoffer, hcall, hdecoded, hprogram,
            hparse, hresolve, hsteps⟩
  · -- a parameter does not
    simp only [herror]
    refine .refused _ fun h => ?_
    have hgood := (hreadable.mp h).1 parameter hmem
    rw [Option.isNone_iff_eq_none.mp hbad] at hgood
    cases hgood

end CrmEmulator.Http
