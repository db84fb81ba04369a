import CrmEmulator.Org.BulkJobs
import CrmEmulator.Org.Records
import CrmEmulator.Proofs.Outcome
import CrmEmulator.Proofs.Store.Write

/-!
# CrmEmulator.Proofs.Org.Records — requests for single records as writes

`Call` is a request to create, update, delete or upsert one record.  A call that is answered has
either published an event and left the records alone, or it is one `Write` to the collection of its
object (`perform_write`).
-/

namespace CrmEmulator

namespace Org

/-! ## What must have been found -/

/-- A definition is required with success exactly if it is in the catalog. -/
theorem require_eq_ok {c : Catalog} {name : String} {s : Schema} :
    c.require name = .ok s ↔ c.find? name = some s := by
  unfold Catalog.require
  split
  · next h => simp [h]
  · next h => simp [h]

/-- A collection is given out exactly if it is in the store. -/
theorem collection_eq_ok {s : Store} {object : String} {c : Collection} :
    s.collection object = .ok c ↔ Store.lookup object s.collections = some c := by
  unfold Store.collection
  split
  · next h => simp [h]
  · next h => simp [h]

/-- Fields pass the check exactly if there are no violations. -/
theorem check_eq_ok {s : Schema} {mode : WriteMode} {fields : Record} {u : Unit} :
    check s mode fields = .ok u ↔ s.violations mode fields = [] := by
  unfold check
  split
  · next h => simp [h]
  · next h =>
    refine ⟨nofun, fun hnil => (h hnil).elim⟩

/-! ## Calls -/

/-- A request for a single record. -/
inductive Call
  | create (object : String) (body : Json)
  | update (object id : String) (body : Json)
  | delete (object id : String)
  | upsert (object field text : String) (body : Json)

def Call.object : Call → String
  | create object _ => object
  | update object _ _ => object
  | delete object _ => object
  | upsert object _ _ _ => object

/-- The organisation after a call. -/
def perform (o : Org) : Call → Except Failure Org
  | .create object body => (·.2) <$> o.createRecord object body
  | .update object id body => o.updateRecord object id body
  | .delete object id => o.deleteRecord object id
  | .upsert object field text body => (·.2) <$> o.upsertRecord object field text body

/-- The organisation after a write to the collection of an object. -/
inductive Written (o : Org) (object : String) : Org → Prop
  | mk {s : Schema} {c : Collection} {st : RowState} (hschema : o.catalog.find? object = some s)
      (hc : Store.lookup object o.store.collections = some c) (h : Write s ⟨c, o.supply⟩ st) :
      Written o object (o.putRowState object st)

/-- A new record comes last, with the next id. -/
theorem addRecord_ok {o o' : Org} {s : Schema} {object id : String} {fields : Record}
    (h : o.addRecord s object fields = .ok (id, o')) :
    ∃ c, Store.lookup object o.store.collections = some c ∧
      o' = o.putRowState object
        ⟨c.push (.created (o.supply.freshId s.idPrefix).1 o.supply.now fields),
          (o.supply.freshId s.idPrefix).2⟩ := by
  unfold addRecord at h
  simp only [bind_eq_ok, Store.insert, pure, Except.pure] at h
  rcases h with ⟨store, ⟨c, hc, hstore⟩, heq⟩
  cases hstore
  cases heq
  exact ⟨c, collection_eq_ok.mp hc, rfl⟩

/-- Adding a valid record writes it. -/
theorem addRecord_written {o o' : Org} {s : Schema} {object id : String} {fields : Record}
    (hschema : o.catalog.find? object = some s) (hvalid : s.violations .create fields = [])
    (h : o.addRecord s object fields = .ok (id, o')) : Written o object o' := by
  rcases addRecord_ok h with ⟨c, hc, rfl⟩
  exact .mk hschema hc (.appended c o.supply hvalid)

/-- A request to create is answered with a new record, unless it is for an event. -/
theorem createRecord_ok {o o' : Org} {object id : String} {body : Json}
    (hobject : ¬ isEventName object) (h : o.createRecord object body = .ok (id, o')) :
    ∃ s fields, o.catalog.find? object = some s ∧ bodyFields body = .ok fields ∧
      s.violations .create fields = [] ∧ o.addRecord s object fields = .ok (id, o') := by
  rw [createRecord, if_neg hobject] at h
  simp only [bind_eq_ok] at h
  rcases h with ⟨s, hschema, fields, hfields, u, hvalid, hadd⟩
  exact ⟨s, fields, require_eq_ok.mp hschema, hfields, check_eq_ok.mp hvalid, hadd⟩

/-- All that an update that succeeds has found, and what it leaves. -/
theorem updateRecord_ok {o o' : Org} {object id : String} {body : Json}
    (h : o.updateRecord object id body = .ok o') :
    ∃ s c fields r, o.catalog.find? object = some s ∧
      Store.lookup object o.store.collections = some c ∧ bodyFields body = .ok fields ∧
        c.find? id = some r ∧ s.violations .update fields = [] ∧
          o' = o.putRowState object ⟨c.update id o.supply.now fields, o.supply⟩ := by
  unfold updateRecord at h
  simp only [bind_eq_ok] at h
  rcases h with ⟨s, hschema, c, hc, h⟩
  split at h
  · cases h
  · next r hfound =>
    simp only [bind_eq_ok] at h
    rcases h with ⟨fields, hfields, u, hvalid, heq⟩
    cases heq
    exact ⟨s, c, fields, r, require_eq_ok.mp hschema, collection_eq_ok.mp hc, hfields, hfound,
      check_eq_ok.mp hvalid, rfl⟩

/-- An update that succeeds is a write. -/
theorem updateRecord_written {o o' : Org} {object id : String} {body : Json}
    (h : o.updateRecord object id body = .ok o') : Written o object o' := by
  rcases updateRecord_ok h with ⟨s, c, fields, r, hschema, hc, -, hfound, hvalid, rfl⟩
  exact .mk hschema hc (Collection.edited_update hfound hvalid o.supply.now).write

/-- All that a deletion that succeeds has found, and what it leaves. -/
theorem deleteRecord_ok {o o' : Org} {object id : String} (h : o.deleteRecord object id = .ok o') :
    ∃ s c r, o.catalog.find? object = some s ∧
      Store.lookup object o.store.collections = some c ∧ c.find? id = some r ∧
        o' = o.putRowState object ⟨c.remove id, o.supply⟩ := by
  unfold deleteRecord at h
  simp only [bind_eq_ok] at h
  rcases h with ⟨s, hschema, c, hc, h⟩
  split at h
  · cases h
  · next r hfound =>
    cases h
    exact ⟨s, c, r, require_eq_ok.mp hschema, collection_eq_ok.mp hc, hfound, rfl⟩

/-- A deletion that succeeds is a write. -/
theorem deleteRecord_written {o o' : Org} {object id : String}
    (h : o.deleteRecord object id = .ok o') : Written o object o' := by
  rcases deleteRecord_ok h with ⟨s, c, r, hschema, hc, hfound, rfl⟩
  exact .mk hschema hc (Collection.write_remove s hfound o.supply)

/-- An upsert has found a record and updated it, or has stored a new one. -/
theorem upsertRecord_ok {o o' : Org} {object field text : String} {body : Json}
    {what : Upserted} (h : o.upsertRecord object field text body = .ok (what, o')) :
    ∃ s c fields, o.catalog.find? object = some s ∧
      Store.lookup object o.store.collections = some c ∧ bodyFields body = .ok fields ∧
        ((∃ r, c.findByText? field text = some r ∧ s.violations .update fields = [] ∧
            what = .updated ∧
              o' = o.putRowState object
                ⟨c.updateByText field text o.supply.now fields, o.supply⟩) ∨
          ∃ id, what = .created id ∧
            s.violations .create ((Record.empty.set field (.text text)).merge fields) = [] ∧
              o.addRecord s object ((Record.empty.set field (.text text)).merge fields) =
                .ok (id, o')) := by
  unfold upsertRecord at h
  simp only [bind_eq_ok] at h
  rcases h with ⟨s, hschema, fields, hfields, c, hc, h⟩
  have hknown := require_eq_ok.mp hschema
  refine ⟨s, c, fields, hknown, collection_eq_ok.mp hc, hfields, ?_⟩
  split at h
  · next r hfound =>
    simp only [bind_eq_ok] at h
    rcases h with ⟨u, hvalid, heq⟩
    cases heq
    exact .inl ⟨r, hfound, check_eq_ok.mp hvalid, rfl, rfl⟩
  · simp only [bind_eq_ok] at h
    rcases h with ⟨u, hvalid, ⟨id, added⟩, hadd, heq⟩
    cases heq
    exact .inr ⟨id, rfl, check_eq_ok.mp hvalid, hadd⟩

/-- An upsert that succeeds is a write. -/
theorem upsertRecord_written {o o' : Org} {object field text : String} {body : Json}
    {what : Upserted} (h : o.upsertRecord object field text body = .ok (what, o')) :
    Written o object o' := by
  rcases upsertRecord_ok h with ⟨s, c, fields, hschema, hc, -, hupdated | hcreated⟩
  · rcases hupdated with ⟨r, hfound, hvalid, -, rfl⟩
    exact .mk hschema hc (Collection.edited_updateByText hfound hvalid o.supply.now).write
  · rcases hcreated with ⟨id, -, hvalid, hadd⟩
    exact addRecord_written hschema hvalid hadd

/-- An event is published and not stored. -/
theorem publishEvent_ok {o o' : Org} {object id : String} {body : Json}
    (h : o.publishEvent object body = .ok (id, o')) :
    o'.store = o.store ∧ o'.jobs = o.jobs ∧ o'.catalog = o.catalog := by
  unfold publishEvent at h
  simp only [bind_eq_ok] at h
  rcases h with ⟨fields, -, heq⟩
  cases heq
  exact ⟨rfl, rfl, rfl⟩

/-- A call publishes an event, or it is a write to the collection of its object. -/
theorem perform_written {o o' : Org} {call : Call} (h : o.perform call = .ok o') :
    (o'.store = o.store ∧ o'.catalog = o.catalog ∧ o'.jobs = o.jobs) ∨
      Written o call.object o' := by
  cases call with
  | create object body =>
    rcases map_eq_ok.mp h with ⟨⟨id, _⟩, hcreate, rfl⟩
    by_cases hobject : isEventName object
    · rw [createRecord, if_pos hobject] at hcreate
      rcases publishEvent_ok hcreate with ⟨hstore, hjobs, hcatalog⟩
      exact .inl ⟨hstore, hcatalog, hjobs⟩
    · rcases createRecord_ok hobject hcreate with ⟨s, fields, hschema, -, hvalid, hadd⟩
      exact .inr (addRecord_written hschema hvalid hadd)
  | update object id body => exact .inr (updateRecord_written h)
  | delete object id => exact .inr (deleteRecord_written h)
  | upsert object field text body =>
    rcases map_eq_ok.mp h with ⟨⟨what, _⟩, hupsert, rfl⟩
    exact .inr (upsertRecord_written hupsert)

end Org

end CrmEmulator
