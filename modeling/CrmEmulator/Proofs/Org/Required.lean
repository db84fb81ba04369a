import CrmEmulator.Proofs.Bulk.ExternalId
import CrmEmulator.Proofs.Org.Invariant
import CrmEmulator.Proofs.Schema.Validation

/-!
# CrmEmulator.Proofs.Org.Required — required fields of stored records

Required fields are asked for when a record is created.  An update may send null or the empty text
for them, and then they are empty.

1. `Record.lacks`: a record has neither of the two shapes of a missing value.  It is true of no
   required field of a new record, and an update brings it about only by sending such a value.
2. What a row, and a batch of rows, leaves empty was empty before, or was sent so in a row that
   reports an update.
3. `Revises`: the operations that update a record with the fields that were sent.  In every run, a
   required field stays filled until one of them empties it.
-/

namespace CrmEmulator

namespace Record

/-! ## Missing values -/

/-- The record has no value in a field, or null, or the empty text. -/
def lacks (r : Record) (name : String) : Bool := (r.getOrNull name).isBlank

/-- The fields of the record set another one to null or to the empty text. -/
def Blanks (sent : Record) (name : String) : Prop := ∃ v, (name, v) ∈ sent.fields ∧ v.isBlank

/-- An update without a field leaves the field as it was. -/
theorem lacks_of_last?_eq_none {r sent : Record} {name now : String}
    (hname : name ∉ protectedFields) (hlast : sent.last? name = none) :
    (r.updated now sent).lacks name = r.lacks name := by
  rw [lacks, getOrNull, get?_updated hname, hlast]
  rfl

/-- A field that is empty after an update was empty before, or has been sent so. -/
theorem lacks_updated {r sent : Record} {name now : String} (hname : name ∉ protectedFields)
    (h : (r.updated now sent).lacks name) : r.lacks name ∨ sent.Blanks name := by
  cases hlast : sent.last? name with
  | none => exact .inl (lacks_of_last?_eq_none hname hlast ▸ h)
  | some v =>
    rw [lacks, getOrNull, get?_updated hname, hlast] at h
    exact .inr ⟨v, List.mem_reverse.mp (mem_of_lookup hlast), h⟩

end Record

namespace Schema

/-- The field must be filled in new records, and is not one of those that the store fills itself. -/
structure Demands (s : Schema) (name : String) : Prop where
  notSystem : name ∉ systemFields
  required : ∃ d, (name, d) ∈ s.fields ∧ d.required

theorem Demands.not_protected {s : Schema} {name : String} (h : s.Demands name) :
    name ∉ Record.protectedFields :=
  fun hmem => h.notSystem (Record.protectedFields_subset hmem)

/-- Accepted fields of a new record fill all required fields. -/
theorem Demands.lacks_created {s : Schema} {name : String} (h : s.Demands name) {sent : Record}
    (hnames : sent.names.Nodup) (hvalid : s.violations .create sent = []) (id now : String) :
    (Record.created id now sent).lacks name = false := by
  rcases h.required with ⟨d, hd, hrequired⟩
  have hmissing : s.missingFields sent = [] := (violations_eq_nil.mp hvalid).1 rfl
  rw [missingFields, List.map_eq_nil_iff, List.filter_eq_nil_iff] at hmissing
  have hfilled : (sent.getOrNull name).isBlank = false := by
    simpa [hrequired] using hmissing (name, d) hd
  -- the value that is checked is the one that is stored, since no name is sent twice
  rwa [Record.lacks, Record.getOrNull, Record.get?_created h.notSystem,
    Record.last?_of_nodup hnames]

end Schema

namespace Collection

variable {s : Schema} {name : String}

/-- A record with this id lacks a field. -/
def Lacking (c : Collection) (id name : String) : Prop :=
  ∃ r ∈ c.records, r.id? = some id ∧ r.lacks name

/-- A new record lacks nothing that is required. -/
theorem lacking_push (hname : s.Demands name) {sent : Record} (hnames : sent.names.Nodup)
    (hvalid : s.violations .create sent = []) {c : Collection} {new id now : String}
    (h : (c.push (.created new now sent)).Lacking id name) : c.Lacking id name := by
  rcases h with ⟨r, hr, hid, hlacks⟩
  rcases List.mem_append.mp hr with hr | hr
  · exact ⟨r, hr, hid, hlacks⟩
  · rw [List.mem_singleton.mp hr, hname.lacks_created hnames hvalid] at hlacks
    cases hlacks

/-- Updating the first record that passes a test empties a field only if it is sent empty. -/
theorem lacking_modifyFirst (hname : s.Demands name) {test : Record → Bool} {records : List Record}
    {found : Record} (hfound : records.find? test = some found) {sent : Record} {now id : String}
    (h : (Collection.mk (modifyFirst test (·.updated now sent) records)).Lacking id name) :
    (Collection.mk records).Lacking id name ∨ found.id? = some id ∧ sent.Blanks name := by
  rcases split_of_find? hfound with ⟨front, back, rfl, hmodify, -⟩
  rcases h with ⟨r, hr, hid, hlacks⟩
  rw [hmodify] at hr
  rcases List.mem_append.mp hr with hr | hr
  · exact .inl ⟨r, List.mem_append_left _ hr, hid, hlacks⟩
  rcases List.mem_cons.mp hr with rfl | hr
  · rw [Record.id?_updated] at hid
    refine (Record.lacks_updated hname.not_protected hlacks).imp ?_ ?_
    · exact fun hbefore => ⟨found, by simp, hid, hbefore⟩
    · exact fun hsent => ⟨hid, hsent⟩
  · exact .inl ⟨r, by simp [hr], hid, hlacks⟩

/-- A record that lacks a field after another was removed lacked it before. -/
theorem lacking_remove {c : Collection} {target : String} {found : Record}
    (hfound : c.find? target = some found) {id : String} (h : (c.remove target).Lacking id name) :
    c.Lacking id name := by
  rcases c with ⟨records⟩
  rcases split_of_find? hfound with ⟨front, back, rfl, -, hremove⟩
  rcases h with ⟨r, hr, hid, hlacks⟩
  simp only [remove, hremove] at hr
  refine ⟨r, ?_, hid, hlacks⟩
  simp only [List.mem_append, List.mem_cons] at hr ⊢
  exact hr.imp_right .inr

end Collection

/-! ## Rows -/

/-- The result says that the record with an id was updated. -/
structure RowResult.Updated (result : RowResult) (operation : Operation) (id : String) : Prop where
  operation : operation = .update ∨ operation = .upsert
  success : result.isSuccess
  kept : result.created = false
  id : result.id = some id

namespace RowProcessor

variable {p : RowProcessor} {name : String}

theorem nodup_names_without {row : Record} (h : row.names.Nodup) (field : String) :
    (without field row).names.Nodup := by
  have hsub : List.Sublist (without field row).fields row.fields := List.filter_sublist
  exact h.sublist (hsub.map _)

/-- What is left out of a row is not sent empty. -/
theorem blanks_of_without {row : Record} {field : String} (h : (without field row).Blanks name) :
    row.Blanks name := by
  rcases h with ⟨v, hv, hblank⟩
  exact ⟨v, (List.mem_filter.mp hv).1, hblank⟩

/-- An insertion adds no record that lacks a demanded field. -/
theorem lacking_insert (hname : p.schema.Demands name) {st : RowState} {row : Record}
    (hnames : row.names.Nodup) {id : String} (h : (p.insert st row).2.collection.Lacking id name) :
    st.collection.Lacking id name := by
  simp only [insert] at h
  split at h
  · next hvalid =>
    exact Collection.lacking_push hname (nodup_names_without hnames "Id") hvalid h
  · exact h

/-- A row that is to change a record by its id leaves all as it is, or updates the record with this
id and reports it. -/
theorem update_reports (p : RowProcessor) (st : RowState) (row : Record) :
    (p.update st row).2 = st ∨ ∃ id found, st.collection.find? id = some found ∧
      p.update st row = (.success id false row, { st with
        collection := st.collection.update id st.supply.now (without "Id" row) }) := by
  unfold update
  split
  · exact .inl rfl
  next id _ =>
  split
  · exact .inl rfl
  next found hfound =>
  simp only
  split
  · exact .inr ⟨id, found, hfound, rfl⟩
  · exact .inl rfl

/-- An upsert inserts a row, leaves all as it is, or updates the record that it has found and
reports it. -/
theorem upsert_reports (p : RowProcessor) (st : RowState) (row : Record) :
    let external := p.externalId.getD "Id"
    p.upsert st row = p.insert st row ∨ (p.upsert st row).2 = st ∨
      ∃ key found, st.collection.findByText? external key = some found ∧
        p.upsert st row = (.success (found.id?.getD "") false row, { st with
          collection := st.collection.updateByText external key st.supply.now
            (without external row) }) := by
  intro external
  unfold upsert
  simp only
  split
  · exact .inl rfl
  next key _ =>
  split
  · exact .inl rfl
  next found hfound =>
  split
  · exact .inr (.inr ⟨key, found, hfound, rfl⟩)
  · exact .inr (.inl rfl)

/-- If a record lacks the field after an update, it did before, or the row blanked it. -/
theorem lacking_update (hname : p.schema.Demands name) (hop : p.operation = .update)
    {st : RowState} {row : Record} {id : String}
    (h : (p.update st row).2.collection.Lacking id name) : st.collection.Lacking id name ∨
      (p.update st row).1.Updated p.operation id ∧ row.Blanks name := by
  rcases p.update_reports st row with hkept | ⟨target, found, hfound, hupdate⟩
  · rw [hkept] at h
    exact .inl h
  rw [hupdate] at h ⊢
  have htarget : found.id? = some target := Collection.id?_of_find? hfound
  rcases Collection.lacking_modifyFirst hname hfound h with hbefore | ⟨hid, hsent⟩
  · exact .inl hbefore
  · exact .inr ⟨⟨.inl hop, rfl, rfl, htarget.symm.trans hid⟩, blanks_of_without hsent⟩

/-- If a record lacks the field after a row that upserts, it did before, or the row blanked it. -/
theorem lacking_upsert (hname : p.schema.Demands name) (hop : p.operation = .upsert)
    {st : RowState} {row : Record} (hnames : row.names.Nodup) {id : String}
    (h : (p.upsert st row).2.collection.Lacking id name) : st.collection.Lacking id name ∨
      (p.upsert st row).1.Updated p.operation id ∧ row.Blanks name := by
  rcases p.upsert_reports st row with hinsert | hkept | ⟨key, found, hfound, hupdate⟩
  · rw [hinsert] at h
    exact .inl (lacking_insert hname hnames h)
  · rw [hkept] at h
    exact .inl h
  rw [hupdate] at h ⊢
  rcases Collection.lacking_modifyFirst hname hfound h with hbefore | ⟨hid, hsent⟩
  · exact .inl hbefore
  · have hreported : some (found.id?.getD "") = some id := by rw [hid, Option.getD_some]
    exact .inr ⟨⟨.inr hop, rfl, rfl, hreported⟩, blanks_of_without hsent⟩

/-- A deletion makes no record lack anything. -/
theorem lacking_delete {st : RowState} {row : Record} {id : String}
    (h : (delete st row).2.collection.Lacking id name) : st.collection.Lacking id name := by
  unfold delete at h
  split at h
  · exact h
  split at h
  · exact h
  next hfound => exact Collection.lacking_remove hfound h

/-- A field that is empty after a row was so before, or the row sends it so and reports an
update. -/
theorem lacking_process (hname : p.schema.Demands name) {st : RowState} {row : Record}
    (hnames : row.names.Nodup) {id : String}
    (h : (p.process st row).2.collection.Lacking id name) :
    st.collection.Lacking id name ∨
      (p.process st row).1.Updated p.operation id ∧ row.Blanks name := by
  cases hop : p.operation with
  | insert =>
    simp only [process, hop] at h
    exact .inl (lacking_insert hname hnames h)
  | update =>
    simp only [process, hop] at h ⊢
    exact hop ▸ lacking_update hname hop h
  | upsert =>
    simp only [process, hop] at h ⊢
    exact hop ▸ lacking_upsert hname hop hnames h
  | delete =>
    simp only [process, hop] at h
    exact .inl (lacking_delete h)
  | query | queryAll =>
    simp only [process, hop] at h
    exact .inl h

/-- If a record lacks the field after rows, it did before, or one of the rows blanked it. -/
theorem lacking_processAll (hname : p.schema.Demands name) {st : RowState} {rows : List Record}
    (hnames : ∀ row ∈ rows, row.names.Nodup) {id : String}
    (h : (p.processAll st rows).2.collection.Lacking id name) : st.collection.Lacking id name ∨
      ∃ result row, (result, row) ∈ (p.processAll st rows).1.zip rows ∧
        result.Updated p.operation id ∧ row.Blanks name := by
  induction rows generalizing st with
  | nil => exact .inl h
  | cons row rows ih =>
    rw [List.forall_mem_cons] at hnames
    rcases ih hnames.2 h with hmid | ⟨result, later, hmem, hupdated⟩
    · refine (lacking_process hname hnames.1 hmid).imp_right fun hupdated => ?_
      exact ⟨_, row, List.mem_cons_self, hupdated⟩
    · exact .inr ⟨result, later, List.mem_cons_of_mem _ hmem, hupdated⟩

end RowProcessor

namespace Org

/-! ## Operations -/

/-- The fields of a body have distinct names. -/
theorem nodup_names_bodyFields {body : Json} {fields : Record} (h : bodyFields body = .ok fields) :
    fields.names.Nodup := by
  have hempty : Record.empty.names.Nodup := List.nodup_nil
  cases body with
  | null =>
    cases h
    exact hempty
  | obj members =>
    cases h
    exact Record.nodup_names_setAll hempty _
  | _ => cases h

/-- The rows of a batch have distinct names. -/
theorem nodup_names_of_rowBatch {o : Org} {op : Op} {b : RowBatch} (hb : o.rowBatch? op = some b) :
    ∀ row ∈ b.rows, row.names.Nodup := by
  rcases exists_rowsFor hb with ⟨j, supply, rows, hrows⟩
  rcases rowsFor?_eq_some.mp hrows with ⟨s, c, -, -, rfl⟩
  rw [List.forall_mem_map]
  exact fun row _ => RowProcessor.nodup_names_typeRecord s row

/-- An operation updates the record with an id with fields that were sent: it is a request for this
record, an upsert that finds it, or a row that reports its update. -/
inductive Revises (o : Org) (object id : String) (sent : Record) : Op → Prop
  | update {body : Json} {o' : Org} (h : o.updateRecord object id body = .ok o')
      (hsent : bodyFields body = .ok sent) :
      Revises o object id sent (.call (.update object id body))
  | upsert {field text : String} {body : Json} {o' : Org} {c : Collection} {found : Record}
      (h : o.upsertRecord object field text body = .ok (.updated, o'))
      (hc : Store.lookup object o.store.collections = some c)
      (hfound : c.findByText? field text = some found) (hid : found.id? = some id)
      (hsent : bodyFields body = .ok sent) :
      Revises o object id sent (.call (.upsert object field text body))
  | row {op : Op} {b : RowBatch} {result : RowResult} (hb : o.rowBatch? op = some b)
      (hobject : b.object = object) (hrow : (result, sent) ∈ b.results.zip b.rows)
      (hupdated : result.Updated b.processor.operation id) : Revises o object id sent op

/-- A stored record with this id lacks a field. -/
def Lacking (o : Org) (object id name : String) : Prop :=
  ∃ r, o.Stores object r ∧ r.id? = some id ∧ r.lacks name

/-- An operation updates the record with an id, and sends a field empty. -/
def Empties (o : Org) (object id name : String) (op : Op) : Prop :=
  ∃ sent, o.Revises object id sent op ∧ sent.Blanks name

/-- A record of a collection that lacks a field is one of the organisation. -/
theorem Lacking.of_collection {o : Org} {object id name : String} {c : Collection}
    (hc : Store.lookup object o.store.collections = some c) (h : c.Lacking id name) :
    o.Lacking object id name := by
  rcases h with ⟨r, hr, hid, hlacks⟩
  exact ⟨r, ⟨c, Store.mem_of_lookup hc, hr⟩, hid, hlacks⟩

/-- After rows were put back, a record that lacks a field did so before, or is one of theirs. -/
theorem Lacking.of_putRowState {o : Org} {object id name : String} {c : Collection} {st : RowState}
    (hc : Store.lookup object o.store.collections = some c)
    (h : (o.putRowState object st).Lacking object id name) :
    o.Lacking object id name ∨ st.collection.Lacking id name := by
  rcases h with ⟨r, hr, hid, hlacks⟩
  refine (hr.of_setCollection rfl hc).imp ?_ ?_
  · exact fun hbefore => ⟨r, hbefore, hid, hlacks⟩
  · exact fun ⟨_, hmem⟩ => ⟨r, hmem, hid, hlacks⟩

section

variable {o o' : Org} {s : Schema} {object id name : String}

/-- Adding a valid record makes no record lack a demanded field. -/
theorem lacking_addRecord (hname : s.Demands name) {sent : Record} (hnames : sent.names.Nodup)
    (hvalid : s.violations .create sent = []) {new : String}
    (h : o.addRecord s object sent = .ok (new, o')) (hlacking : o'.Lacking object id name) :
    o.Lacking object id name := by
  rcases addRecord_ok h with ⟨c, hc, rfl⟩
  rcases hlacking.of_putRowState hc with hbefore | hafter
  · exact hbefore
  · exact .of_collection hc (Collection.lacking_push hname hnames hvalid hafter)

/-- If a record lacks the field after an update, it did before, or the update emptied it. -/
theorem lacking_updateRecord (hs : o.catalog.find? object = some s) (hname : s.Demands name)
    {target : String} {body : Json} (h : o.updateRecord object target body = .ok o')
    (hlacking : o'.Lacking object id name) : o.Lacking object id name ∨
      o.Empties object id name (.call (.update object target body)) := by
  rcases updateRecord_ok h with ⟨s', c, sent, found, hs', hc, hsent, hfound, -, heq⟩
  obtain rfl : s' = s := Option.some.inj (hs'.symm.trans hs)
  subst heq
  rcases hlacking.of_putRowState hc with hbefore | hafter
  · exact .inl hbefore
  rcases Collection.lacking_modifyFirst hname hfound hafter with hbefore | ⟨hid, hblanks⟩
  · exact .inl (.of_collection hc hbefore)
  · obtain rfl : target = id :=
      Option.some.inj ((Collection.id?_of_find? hfound).symm.trans hid)
    exact .inr ⟨sent, .update h hsent, hblanks⟩

/-- If a record lacks the field after an upsert, it did before, or the upsert emptied it. -/
theorem lacking_upsertRecord (hs : o.catalog.find? object = some s) (hname : s.Demands name)
    {field text : String} {body : Json} {what : Upserted}
    (h : o.upsertRecord object field text body = .ok (what, o'))
    (hlacking : o'.Lacking object id name) : o.Lacking object id name ∨
      o.Empties object id name (.call (.upsert object field text body)) := by
  rcases upsertRecord_ok h with ⟨s', c, sent, hs', hc, hsent, hupdated | hcreated⟩
  · rcases hupdated with ⟨found, hfound, -, rfl, heq⟩
    obtain rfl : s' = s := Option.some.inj (hs'.symm.trans hs)
    rw [heq] at hlacking
    rcases hlacking.of_putRowState hc with hbefore | hafter
    · exact .inl hbefore
    rcases Collection.lacking_modifyFirst hname hfound hafter with hbefore | ⟨hid, hblanks⟩
    · exact .inl (.of_collection hc hbefore)
    · exact .inr ⟨sent, .upsert h hc hfound hid hsent, hblanks⟩
  · rcases hcreated with ⟨new, -, hvalid, hadd⟩
    obtain rfl : s' = s := Option.some.inj (hs'.symm.trans hs)
    have hempty : Record.empty.names.Nodup := List.nodup_nil
    have hkey := Record.nodup_names_set hempty field (.text text)
    exact .inl (lacking_addRecord hname (Record.nodup_names_setAll hkey _) hvalid hadd hlacking)

/-- Deleting a record makes no record lack anything. -/
theorem lacking_deleteRecord {target : String} (h : o.deleteRecord object target = .ok o')
    (hlacking : o'.Lacking object id name) : o.Lacking object id name := by
  rcases deleteRecord_ok h with ⟨_, c, found, -, hc, hfound, rfl⟩
  rcases hlacking.of_putRowState hc with hbefore | hafter
  · exact hbefore
  · exact .of_collection hc (Collection.lacking_remove hfound hafter)

/-- A field that is empty after a call was so before, or the call updates the record and sends the
field empty. -/
theorem lacking_call {call : Call} (hs : o.catalog.find? call.object = some s)
    (hname : s.Demands name) (h : o.perform call = .ok o')
    (hlacking : o'.Lacking call.object id name) :
    o.Lacking call.object id name ∨ o.Empties call.object id name (.call call) := by
  cases call with
  | create object body =>
    rcases map_eq_ok.mp h with ⟨⟨new, _⟩, hcreate, rfl⟩
    by_cases hevent : isEventName object
    · rw [createRecord, if_pos hevent] at hcreate
      rcases hlacking with ⟨r, hr, hid, hlacks⟩
      exact .inl ⟨r, hr.of_store_eq (publishEvent_ok hcreate).1, hid, hlacks⟩
    · rcases createRecord_ok hevent hcreate with ⟨s', sent, hs', hsent, hvalid, hadd⟩
      obtain rfl : s' = s := Option.some.inj (hs'.symm.trans hs)
      exact .inl (lacking_addRecord hname (nodup_names_bodyFields hsent) hvalid hadd hlacking)
  | update object target body => exact lacking_updateRecord hs hname h hlacking
  | delete object target => exact .inl (lacking_deleteRecord h hlacking)
  | upsert object field text body =>
    rcases map_eq_ok.mp h with ⟨⟨what, _⟩, hupsert, rfl⟩
    exact lacking_upsertRecord hs hname hupsert hlacking

/-- A field that is empty after an operation was so before, or the operation empties it. -/
theorem lacking_step (hs : o.catalog.find? object = some s) (hname : s.Demands name) {op : Op}
    (hlacking : (o.step op).Lacking object id name) :
    o.Lacking object id name ∨ o.Empties object id name op := by
  have hnext := hlacking
  rcases hlacking with ⟨r, hr, hid, hlacks⟩
  rcases (step_outcome o op).stores hr with hbefore | ⟨call, rfl, hcall, rfl⟩ |
    ⟨b, hb, hprocessed, rfl, hmem⟩
  · exact .inl ⟨r, hbefore, hid, hlacks⟩
  · exact lacking_call hs hname hcall hnext
  · have hschema : b.processor.schema = s := Option.some.inj (hprocessed.schema.symm.trans hs)
    subst hschema
    have hrows := RowProcessor.lacking_processAll hname (nodup_names_of_rowBatch hb)
      ⟨r, hmem, hid, hlacks⟩
    rcases hrows with hbefore | ⟨result, row, hzip, hupdated, hblanks⟩
    · exact .inl (.of_collection hprocessed.collection hbefore)
    · exact .inr ⟨row, .row hb rfl hzip hupdated, hblanks⟩

end

/-! ## Runs -/

/-- Every write leaves only records with an id. -/
theorem kept_id : Kept fun _ r => ∃ id, r.id? = some id where
  created _ _ _ _ := ⟨_, Record.id?_created _ _ _⟩
  updated _ r _ _ _ h := by rwa [Record.id?_updated]

/-- Whatever requests and batches an organisation has answered since it was empty, a stored record
has its required fields filled, and from the time at which one of them was seen filled it stays so,
unless an update of this record has been accepted that sends the field as null or as the empty
text. -/
theorem required_field_stays_filled {c : Catalog} {settings : Settings} {supply : Supply}
    {before after : List Op} {object : String} {s : Schema} (hs : c.find? object = some s)
    {name : String} (hname : s.Demands name) {r : Record}
    (hr : ((ofCatalog c settings supply).run (before ++ after)).Stores object r)
    (hfilled : ∀ old, ((ofCatalog c settings supply).run before).Stores object old →
      old.id? = r.id? → old.lacks name = false) :
    ∃ id, r.id? = some id ∧ (r.lacks name = false ∨
      Sometime (fun o op => o.Empties object id name op)
        ((ofCatalog c settings supply).run before) after) := by
  have hcatalog (ops : List Op) : ((ofCatalog c settings supply).run ops).catalog = c :=
    catalog_run _ ops
  have hid : ∃ id, r.id? = some id := by
    rcases hr with ⟨collection, hmem, hr⟩
    have hschema := hs
    rw [← hcatalog (before ++ after)] at hschema
    exact run_everywhere kept_id c settings supply _ object collection s hmem hschema r hr
  rcases hid with ⟨id, hid⟩
  refine ⟨id, hid, ?_⟩
  cases hlacks : r.lacks name with
  | false => exact .inl rfl
  | true =>
    -- the field is empty now and was not before, so some operation in between has emptied it
    let Empty (o : Org) : Prop := o.catalog = c ∧ o.Lacking object id name
    have hstep (o : Org) (op : Op) (hnext : Empty (o.step op)) :
        Empty o ∨ o.Empties object id name op := by
      have hsame : o.catalog = c := (step_effect o op).2.symm.trans hnext.1
      have hobject : o.catalog.find? object = some s := hsame ▸ hs
      exact (lacking_step hobject hname hnext.2).imp_left fun hbefore => ⟨hsame, hbefore⟩
    have hlast : Empty ((ofCatalog c settings supply).run (before ++ after)) :=
      ⟨hcatalog _, r, hr, hid, hlacks⟩
    rw [run_append] at hlast
    refine .inr ((sometime_of_run hstep hlast).resolve_left ?_)
    rintro ⟨-, old, hold, holdId, holdLacks⟩
    rw [hfilled old hold (holdId.trans hid.symm)] at holdLacks
    cases holdLacks

/-- An object with a required field. -/
def requiringName : Schema where
  name := "Account"
  idPrefix := "001"
  fields := [("Name", { required := true })]

/-- An organisation with this object. -/
def withRequiredName : Org := ofCatalog ⟨[requiringName]⟩ {} ⟨0, 0⟩

def creation : List Op := [.call (.create "Account" (.obj [("Name", .str "one")]))]

/-- Updates that keep the name or give another, by a request and by a row. -/
def renames : List Op := [
  .call (.update "Account" "001AAAAAAAAAAAAAAA" (.obj [("Phone", .null)])),
  .createBatchJob "<jobInfo><operation>update</operation><object>Account</object></jobInfo>",
  .addBatch "750AAAAAAAAAAAAAAB" "Id,Name\n001AAAAAAAAAAAAAAA,two\n001AAAAAAAAAAAAAAA,\n"]

/-- After these updates the account has the name that a row gave it. -/
theorem renamed_account_stays_filled : ∃ r,
    (withRequiredName.run (creation ++ renames)).Stores "Account" r ∧
      r.get? "Name" = some (.text "two") ∧ ∃ id, r.id? = some id ∧ (r.lacks "Name" = false ∨
        Sometime (fun o op => o.Empties "Account" id "Name" op) (withRequiredName.run creation)
          renames) := by
  let created : Record :=
    .created "001AAAAAAAAAAAAAAA" (Supply.now ⟨0, 0⟩) ⟨[("Name", .text "one")]⟩
  let r : Record := (created.set "Phone" .null).set "Name" (.text "two")
  have hname : requiringName.Demands "Name" := ⟨by decide, { required := true }, by decide, rfl⟩
  have hr : (withRequiredName.run (creation ++ renames)).Stores "Account" r :=
    ⟨⟨[r]⟩, by decide +kernel, by simp⟩
  refine ⟨r, hr, by decide, required_field_stays_filled rfl hname hr ?_⟩
  -- one record is stored before the updates, and its name is filled
  have hbefore :
      (withRequiredName.run creation).store.collections = [("Account", ⟨[created]⟩)] := by
    decide +kernel
  rintro old ⟨collection, hmem, hold⟩ -
  have hcollections := hbefore ▸ hmem
  simp only [List.mem_singleton, Prod.mk.injEq, true_and] at hcollections
  rw [hcollections, List.mem_singleton] at hold
  rw [hold]
  decide

/-- Updates that empty the name: a request with null, one with the empty text, and a row with the
cell for null. -/
def emptyingUpdates : List (List Op) := [
  [.call (.update "Account" "001AAAAAAAAAAAAAAA" (.obj [("Name", .null)]))],
  [.call (.update "Account" "001AAAAAAAAAAAAAAA" (.obj [("Name", .str "")]))],
  [.createBatchJob "<jobInfo><operation>update</operation><object>Account</object></jobInfo>",
    .addBatch "750AAAAAAAAAAAAAAB" "Id,Name\n001AAAAAAAAAAAAAAA,#N/A\n"]]

/-- Each of them leaves an account without the name that it requires. -/
theorem required_fields_are_emptied : "Name" ∉ systemFields ∧
    requiringName.field? "Name" = some { required := true } ∧
      ∀ ops ∈ emptyingUpdates, ∃ entry ∈ (withRequiredName.run (creation ++ ops)).store.collections,
        entry.1 = "Account" ∧ ∃ r ∈ entry.2.records, r.lacks "Name" := by
  decide +kernel

end Org

end CrmEmulator
