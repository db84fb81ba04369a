import CrmEmulator.Proofs.Org.Invariant
import CrmEmulator.Proofs.Schema.Validation

/-!
# CrmEmulator.Proofs.Org.Agreement — requests for single records and rows of batches

A record can be written by a request of its own or as one row of a batch.

1. No record is ever stored under the empty id, by which a row names none.
2. What requests do to the collection of an object that is known, in closed form.
3. `BothFail`, `BothRefused` and `BothStored`: the ways in which a request and a row can agree.
4. The two ways of writing agree on every body, as long as the schema defines no field `Id`: a
   request checks an id that is sent as any other field, while a row never does.
5. They part where a record is stored under the empty id: a request can delete it, and a row cannot.
-/

namespace CrmEmulator

/-! ## Ids of stored records -/

namespace Supply

/-- Digits are written at the length that is asked for. -/
theorem length_digitsIn (alphabet : List Char) (count n : Nat) :
    (digitsIn alphabet count n).length = count := by
  induction count generalizing n with
  | zero => rfl
  | succ count ih => simp [digitsIn, ih]

/-- No id that is drawn is empty. -/
theorem idText_ne_empty (idPrefix : String) (serial : Nat) : idText idPrefix serial ≠ "" := by
  intro hempty
  rw [idText, String.append_eq_empty_iff] at hempty
  rcases hempty with ⟨rfl, hdigits⟩
  -- without a prefix all characters of an id come from the serial number
  have hlength := length_digitsIn idAlphabet (idLength - "".utf8ByteSize) serial
  rw [String.ofList_eq_empty_iff.mp hdigits] at hlength
  cases hlength

end Supply

/-- No write brings the empty id into a collection. -/
theorem kept_named : Kept fun _ r => r.id? ≠ some "" where
  created s supply sent _ := by
    rw [Record.id?_created]
    exact fun h => Supply.idText_ne_empty _ _ (Option.some.inj h)
  updated s r now sent _ h := by rwa [Record.id?_updated]

namespace Org

/-- No record is ever stored under the empty id. -/
theorem run_find?_empty (c : Catalog) (settings : Settings) (supply : Supply) (ops : List Op)
    {object : String} {s : Schema} {collection : Collection}
    (hc : Store.lookup object ((ofCatalog c settings supply).run ops).store.collections =
      some collection)
    (hschema : ((ofCatalog c settings supply).run ops).catalog.find? object = some s) :
    collection.find? "" = none := by
  have hnamed := run_everywhere kept_named c settings supply ops object collection s
    (Store.mem_of_lookup hc) hschema
  rw [Collection.find?, List.find?_eq_none]
  intro r hr
  simpa [Collection.hasId] using hnamed r hr

section

variable {o : Org} {object id : String} {s : Schema} {c : Collection} {body : Json} {r : Record}

/-! ## Requests -/

theorem bodyFields_of_ofJson? (hbody : Record.ofJson? body = some r) : bodyFields body = .ok r := by
  cases body <;> simp_all [bodyFields, Record.ofJson?]

/-- Creating a record, with all that it looks up known. -/
theorem createRecord_eq (hevent : isEventName object = false)
    (hschema : o.catalog.find? object = some s)
    (hc : Store.lookup object o.store.collections = some c) (hbody : bodyFields body = .ok r) :
    o.createRecord object body =
      match s.violations .create r with
      | [] =>
        let (id, supply) := o.supply.freshId s.idPrefix
        .ok (id, o.putRowState object ⟨c.push (.created id supply.now r), supply⟩)
      | found => .error (.violations found) := by
  have hschema := require_eq_ok.mpr hschema
  have hc := collection_eq_ok.mpr hc
  simp only [createRecord, hevent, hschema, hbody, ok_bind, check]
  cases s.violations .create r with
  | nil => simp [addRecord, Store.insert, hc, ok_bind, putRowState, pure, Except.pure]
  | cons => rfl

/-- Updating a record, with all that it looks up known. -/
theorem updateRecord_eq (hschema : o.catalog.find? object = some s)
    (hc : Store.lookup object o.store.collections = some c) (hbody : bodyFields body = .ok r) :
    o.updateRecord object id body =
      match c.find? id with
      | none => .error (noRecord id)
      | some _ =>
        match s.violations .update r with
        | [] => .ok (o.putRowState object ⟨c.update id o.supply.now r, o.supply⟩)
        | found => .error (.violations found) := by
  have hschema := require_eq_ok.mpr hschema
  have hc := collection_eq_ok.mpr hc
  simp only [updateRecord, hschema, hc, hbody, ok_bind, check]
  cases c.find? id with
  | none => rfl
  | some old =>
    cases s.violations .update r with
    | nil => rfl
    | cons => rfl

/-- The message of a deletion that finds no record. -/
def noDeletion (id : String) : String := "Entity is deleted or does not exist: " ++ id

/-- Deleting a record, with all that it looks up known. -/
theorem deleteRecord_eq (hschema : o.catalog.find? object = some s)
    (hc : Store.lookup object o.store.collections = some c) :
    o.deleteRecord object id =
      match c.find? id with
      | none => .error (.entityIsDeleted (noDeletion id))
      | some _ => .ok (o.putRowState object ⟨c.remove id, o.supply⟩) := by
  have hschema := require_eq_ok.mpr hschema
  have hc := collection_eq_ok.mpr hc
  simp only [deleteRecord, hschema, hc, ok_bind]
  cases c.find? id with
  | none => rfl
  | some old => rfl

/-! ## Agreement -/

/-- A request and a row that both fail: nothing changes. -/
structure BothFail (o : Org) (call : Call) (c : Collection) (row : RowResult × RowState)
    (failure : Failure) (found : List Violation) : Prop where
  request : o.perform call = .error failure
  untouched : o.step (.call call) = o
  errors : row.1.errors = found
  collection : row.2.collection = c

/-- A request and a row are refused for the same violations, of which there are some. -/
def BothRefused (o : Org) (call : Call) (c : Collection) (row : RowResult × RowState) : Prop :=
  ∃ found, found ≠ [] ∧ BothFail o call c row (.violations found) found

/-- A request and a row both succeed, and leave the same collection. -/
structure BothStored (o : Org) (call : Call) (row : RowResult × RowState) : Prop where
  request : o.perform call = .ok (o.step (.call call))
  succeeded : row.1.errors = []
  collection : (o.step (.call call)).store.collection call.object = .ok row.2.collection
  supply : (o.step (.call call)).supply = row.2.supply

/-- A request and a row that fail for the same reasons both fail. -/
theorem BothFail.of_error {call : Call} {row : RowResult × RowState} {failure : Failure}
    (hrequest : o.perform call = .error failure) (hrow : row.2.collection = c) :
    BothFail o call c row failure row.1.errors where
  request := hrequest
  untouched := by simp [step, attempt, hrequest]
  errors := rfl
  collection := hrow

/-- A request and a row that leave the same collection both store it. -/
theorem BothStored.of_ok {call : Call} {row : RowResult × RowState}
    (hc : Store.lookup call.object o.store.collections = some c)
    (hrequest : o.perform call = .ok (o.putRowState call.object row.2))
    (hrow : row.1.errors = []) : BothStored o call row := by
  have hstep : o.step (.call call) = o.putRowState call.object row.2 := step_of_ok hrequest
  refine ⟨hstep ▸ hrequest, hrow, ?_, ?_⟩
  · rw [hstep, collection_eq_ok]
    exact Store.lookup_replace hc row.2.collection
  · rw [hstep]
    rfl

/-! ## Rows -/

/-- A row without its id is checked like a body with one, if the schema does not define ids. -/
theorem violations_without (hid : "Id" ∉ s.fieldNames) (mode : WriteMode) (r : Record) :
    s.violations mode (RowProcessor.without "Id" r) = s.violations mode r :=
  Schema.violations_filter hid mode r

theorem without_set (r : Record) (value : Value) :
    RowProcessor.without "Id" (r.set "Id" value) = RowProcessor.without "Id" r :=
  Record.withoutId_set r value

theorem rowId?_set (r : Record) (id : String) :
    RowProcessor.rowId? (r.set "Id" (.text id)) = if id = "" then none else some id := by
  by_cases hid : id = "" <;> simp [RowProcessor.rowId?, Record.get?_set, Value.isBlank,
    Value.coerceText, Option.filter, hid]

/-- Creating a record and inserting a row agree. -/
theorem insert_agrees (hevent : isEventName object = false)
    (hschema : o.catalog.find? object = some s) (hid : "Id" ∉ s.fieldNames)
    (hc : Store.lookup object o.store.collections = some c)
    (hbody : Record.ofJson? body = some r) (externalId : Option String) :
    let row := (RowProcessor.mk s .insert externalId).process ⟨c, o.supply⟩ r
    BothRefused o (.create object body) c row ∨ BothStored o (.create object body) row := by
  have hcreate := createRecord_eq hevent hschema hc (bodyFields_of_ofJson? hbody)
  have hvalid := violations_without hid .create r
  have hsent (new now : String) : Record.created new now (RowProcessor.without "Id" r) =
      .created new now r := Record.created_withoutId new now r
  cases hfound : s.violations .create r with
  | nil =>
    refine .inr (.of_ok hc ?_ ?_)
    · -- both draw the same id and stamp, and neither takes an id from the body
      simp [perform, hcreate, hfound, Functor.map, Except.map, Call.object, RowProcessor.process,
        RowProcessor.insert, hvalid, hsent]
    · simp [RowProcessor.process, RowProcessor.insert, hvalid, hfound, RowResult.success]
  | cons first more =>
    have hrow : (RowProcessor.mk s .insert externalId).process ⟨c, o.supply⟩ r =
        (.failure none (first :: more) r, ⟨c, o.supply⟩) := by
      simp [RowProcessor.process, RowProcessor.insert, hvalid, hfound]
    refine .inl ⟨first :: more, by simp, ?_⟩
    rw [hrow]
    exact .of_error (by simp [perform, hcreate, hfound, Functor.map, Except.map]) rfl

/-- What a row reports whose id no record has. -/
def noRow (id : String) : Violation :=
  ⟨.invalidCrossReferenceKey, "Id", "Record not found: " ++ id⟩

/-- Updating a record and updating by a row agree, for an id that is not empty. -/
theorem update_agrees (hschema : o.catalog.find? object = some s) (hid : "Id" ∉ s.fieldNames)
    (hc : Store.lookup object o.store.collections = some c)
    (hbody : Record.ofJson? body = some r) (hne : id ≠ "") (externalId : Option String) :
    let row := (RowProcessor.mk s .update externalId).process ⟨c, o.supply⟩
      (r.set "Id" (.text id))
    (c.find? id = none ∧ BothFail o (.update object id body) c row (noRecord id) [noRow id]) ∨
      BothRefused o (.update object id body) c row ∨
        BothStored o (.update object id body) row := by
  have hupdate : o.updateRecord object id body = _ :=
    updateRecord_eq hschema hc (bodyFields_of_ofJson? hbody)
  have hrowId : RowProcessor.rowId? (r.set "Id" (.text id)) = some id := by
    rw [rowId?_set, if_neg hne]
  -- the row leaves the id out before it is checked, and neither check nor update looks at it
  have hvalid := violations_without hid .update r
  have hsent (old : Record) (now : String) : old.updated now (RowProcessor.without "Id" r) =
      old.updated now r := Record.updated_withoutId old now r
  cases hold : c.find? id with
  | none =>
    -- there is no such record, and both say so
    have hrow : (RowProcessor.mk s .update externalId).process ⟨c, o.supply⟩
        (r.set "Id" (.text id)) =
          (.failure (some id) [noRow id] (r.set "Id" (.text id)), ⟨c, o.supply⟩) := by
      simp [RowProcessor.process, RowProcessor.update, hrowId, hold, noRow]
    refine .inl ⟨rfl, ?_⟩
    rw [hrow]
    exact .of_error (by simp [perform, hupdate, hold]) rfl
  | some old =>
    cases hfound : s.violations .update r with
    | nil =>
      refine .inr (.inr (.of_ok hc ?_ ?_))
      · simp [perform, hupdate, hold, hfound, Call.object, RowProcessor.process,
          RowProcessor.update, hrowId, without_set, hvalid, Collection.update, hsent]
      · simp [RowProcessor.process, RowProcessor.update, hrowId, hold, without_set, hvalid,
          hfound, RowResult.success]
    | cons first more =>
      have hrow : (RowProcessor.mk s .update externalId).process ⟨c, o.supply⟩
          (r.set "Id" (.text id)) =
            (.failure (some id) (first :: more) (r.set "Id" (.text id)), ⟨c, o.supply⟩) := by
        simp [RowProcessor.process, RowProcessor.update, hrowId, hold, without_set, hvalid,
          hfound]
      refine .inr (.inl ⟨first :: more, by simp, ?_⟩)
      rw [hrow]
      exact .of_error (by simp [perform, hupdate, hold, hfound]) rfl

/-- A row without an id names no record, so a record must not be stored under the empty id. -/
theorem delete_agrees (hschema : o.catalog.find? object = some s)
    (hc : Store.lookup object o.store.collections = some c)
    (hblank : id = "" → c.find? id = none) (r : Record) (externalId : Option String) :
    let row := (RowProcessor.mk s .delete externalId).process ⟨c, o.supply⟩
      (r.set "Id" (.text id))
    (∃ v : Violation, v.field = "Id" ∧
      BothFail o (.delete object id) c row (.entityIsDeleted (noDeletion id)) [v]) ∨
        BothStored o (.delete object id) row := by
  have hdelete : o.deleteRecord object id = _ := deleteRecord_eq hschema hc
  have hrowId := rowId?_set r id
  cases hold : c.find? id with
  | none =>
    have hrow : ∃ v : Violation, v.field = "Id" ∧ (RowProcessor.mk s .delete externalId).process
        ⟨c, o.supply⟩ (r.set "Id" (.text id)) =
          (.failure (RowProcessor.rowId? (r.set "Id" (.text id))) [v] (r.set "Id" (.text id)),
            ⟨c, o.supply⟩) := by
      -- without an id the row fails before it looks for a record
      by_cases hne : id = ""
      · rw [if_pos hne] at hrowId
        simp [RowProcessor.process, RowProcessor.delete, hrowId, RowProcessor.missingId,
          RowResult.failure]
      · rw [if_neg hne] at hrowId
        simp [RowProcessor.process, RowProcessor.delete, hrowId, hold, RowResult.failure]
    rcases hrow with ⟨v, hfield, hrow⟩
    refine .inl ⟨v, hfield, ?_⟩
    rw [hrow]
    exact .of_error (by simp [perform, hdelete, hold]) rfl
  | some old =>
    have hne : id ≠ "" := fun hempty => by simp [hblank hempty] at hold
    rw [if_neg hne] at hrowId
    refine .inr (.of_ok hc ?_ ?_)
    · simp [perform, hdelete, hold, Call.object, RowProcessor.process, RowProcessor.delete, hrowId]
    · simp [RowProcessor.process, RowProcessor.delete, hrowId, hold, RowResult.success]

/-- A record that is stored under the empty id is deleted by a request, but a row cannot name it. -/
theorem delete_parts_on_empty_id (hschema : o.catalog.find? object = some s)
    (hc : Store.lookup object o.store.collections = some c) {old : Record}
    (hold : c.find? "" = some old) (r : Record) (externalId : Option String) :
    o.perform (.delete object "") = .ok (o.putRowState object ⟨c.remove "", o.supply⟩) ∧
      (RowProcessor.mk s .delete externalId).process ⟨c, o.supply⟩ (r.set "Id" (.text "")) =
        (RowProcessor.missingId "delete" (r.set "Id" (.text "")), ⟨c, o.supply⟩) := by
  have hdelete : o.deleteRecord object "" = _ := deleteRecord_eq hschema hc
  constructor
  · simp [perform, hdelete, hold]
  · simp [RowProcessor.process, RowProcessor.delete, rowId?_set]

/-- Single requests and rows of batches agree on every record: both refuse it for the same
violations, or both find no record, or both leave the same collection.  A row names no record by
the empty id, so a record that is stored under it is only deleted by the request; `run_find?_empty`
says that none ever is there. -/
theorem requests_agree_with_rows (hevent : isEventName object = false)
    (hschema : o.catalog.find? object = some s) (hid : "Id" ∉ s.fieldNames)
    (hc : Store.lookup object o.store.collections = some c)
    (hbody : Record.ofJson? body = some r) (id : String) (externalId : Option String) :
    let row (operation : Operation) (sent : Record) :=
      (RowProcessor.mk s operation externalId).process ⟨c, o.supply⟩ sent
    (BothRefused o (.create object body) c (row .insert r) ∨
      BothStored o (.create object body) (row .insert r)) ∧
    (id ≠ "" →
      (c.find? id = none ∧ BothFail o (.update object id body) c
        (row .update (r.set "Id" (.text id))) (noRecord id) [noRow id]) ∨
      BothRefused o (.update object id body) c (row .update (r.set "Id" (.text id))) ∨
      BothStored o (.update object id body) (row .update (r.set "Id" (.text id)))) ∧
    ((id = "" → c.find? id = none) →
      (∃ v : Violation, v.field = "Id" ∧ BothFail o (.delete object id) c
        (row .delete (r.set "Id" (.text id))) (.entityIsDeleted (noDeletion id)) [v]) ∨
      BothStored o (.delete object id) (row .delete (r.set "Id" (.text id)))) ∧
    ∀ old, c.find? "" = some old →
      o.perform (.delete object "") = .ok (o.putRowState object ⟨c.remove "", o.supply⟩) ∧
        row .delete (r.set "Id" (.text "")) =
          (RowProcessor.missingId "delete" (r.set "Id" (.text "")), ⟨c, o.supply⟩) :=
  ⟨insert_agrees hevent hschema hid hc hbody externalId,
    fun hne => update_agrees hschema hid hc hbody hne externalId,
    fun hblank => delete_agrees hschema hc hblank r externalId,
    fun _ hold => delete_parts_on_empty_id hschema hc hold r externalId⟩

end

/-- An object with a required name. -/
def named : Schema where
  name := "Account"
  idPrefix := "001"
  fields := [("Name", { required := true })]

/-- One record of this object. -/
def namedAccount : Collection := ⟨[⟨[("Id", .text "001A"), ("Name", .text "a")]⟩]⟩

/-- An organisation with this record. -/
def withNamed : Org :=
  { ofCatalog ⟨[named]⟩ {} ⟨0, 0⟩ with store := ⟨[("Account", namedAccount)]⟩ }

/-- A note with an id of its own: too little for a new record, enough to change one. -/
def note : Record := ⟨[("Id", .text "mine"), ("Note", .integer 7)]⟩

/-- The record after the note was taken. -/
def notedAccount : Collection := ⟨[⟨[
  ("Id", .text "001A"), ("Name", .text "a"), ("Note", .integer 7),
  ("LastModifiedDate", .text "1970-01-01T00:00:00.000Z"),
  ("SystemModstamp", .text "1970-01-01T00:00:00.000Z")]⟩]⟩

/-- What is said of a record without a name. -/
def missingName : Violation :=
  ⟨.requiredFieldMissing, "Name", "Required fields are missing: [Name]"⟩

/-- The note is refused as a new record, changes the one that is there, and deletes it, by a request
as by a row. -/
theorem note_is_agreed_on :
    let body : Json := .obj [("Id", .str "mine"), ("Note", .int 7)]
    let row (operation : Operation) (sent : Record) :=
      (RowProcessor.mk named operation none).process ⟨namedAccount, ⟨0, 0⟩⟩ sent
    Record.ofJson? body = some note ∧
      BothFail withNamed (.create "Account" body) namedAccount (row .insert note)
        (.violations [missingName]) [missingName] ∧
      BothStored withNamed (.update "Account" "001A" body)
        (row .update (note.set "Id" (.text "001A"))) ∧
      (row .update (note.set "Id" (.text "001A"))).2.collection = notedAccount ∧
      BothStored withNamed (.delete "Account" "001A")
        (row .delete (note.set "Id" (.text "001A"))) ∧
      (row .delete (note.set "Id" (.text "001A"))).2.collection = .empty := by
  have hbody : Record.ofJson? (.obj [("Id", .str "mine"), ("Note", .int 7)]) = some note := by
    decide
  have hschema : withNamed.catalog.find? "Account" = some named := rfl
  have hc : Store.lookup "Account" withNamed.store.collections = some namedAccount := rfl
  -- what remains is which of the cases applies
  rcases requests_agree_with_rows (by decide) hschema (by decide) hc hbody "001A" none with
    ⟨hinsert, hupdate, hdelete, -⟩
  refine ⟨hbody, ?_, ((hupdate (by decide)).resolve_left ?_).resolve_left ?_, by decide +kernel,
    (hdelete nofun).resolve_left ?_, by decide +kernel⟩
  · rcases hinsert with ⟨found, -, hfail⟩ | hstored
    · obtain rfl : found = [missingName] := hfail.errors.symm.trans (by decide)
      exact hfail
    · exact absurd hstored.succeeded (by decide)
  · exact fun hmissing => absurd hmissing.1 (by decide)
  · rintro ⟨found, hsome, hfail⟩
    exact hsome (hfail.errors.symm.trans (by decide))
  · rintro ⟨v, -, hfail⟩
    exact List.cons_ne_nil v [] (hfail.errors.symm.trans (by decide))

/-- One record that is stored under the empty id. -/
def namelessAccount : Collection := ⟨[⟨[("Id", .text ""), ("Name", .text "a")]⟩]⟩

/-- An organisation with this record. -/
def withNameless : Org := { withNamed with store := ⟨[("Account", namelessAccount)]⟩ }

/-- The request removes the record, and the row is refused and leaves it. -/
theorem empty_id_is_deleted_by_request_only :
    let row := (RowProcessor.mk named .delete none).process ⟨namelessAccount, ⟨0, 0⟩⟩
      ⟨[("Id", .text "")]⟩
    (withNameless.step (.call (.delete "Account" ""))).store.collection "Account" = .ok .empty ∧
      row.1.errors = [⟨.missingArgument, "Id", "Id is required for delete operation"⟩] ∧
      row.2.collection = namelessAccount ∧
      ¬BothStored withNameless (.delete "Account" "") row ∧
      ¬∃ failure found, BothFail withNameless (.delete "Account" "") namelessAccount row failure
        found := by
  intro row
  have herrors : row.1.errors =
      [⟨.missingArgument, "Id", "Id is required for delete operation"⟩] := by decide
  have hperform : ∃ o', withNameless.perform (.delete "Account" "") = .ok o' := ⟨_, rfl⟩
  refine ⟨rfl, herrors, by decide, ?_, ?_⟩
  · intro hstored
    have hnone := hstored.succeeded
    rw [herrors] at hnone
    cases hnone
  · rintro ⟨failure, found, hfail⟩
    obtain ⟨o', ho'⟩ := hperform
    cases ho'.symm.trans hfail.request

end Org

end CrmEmulator
