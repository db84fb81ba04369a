import CrmEmulator.Proofs.Org.Invariant

/-!
# CrmEmulator.Proofs.Org.Events — how platform events come to be stored

A request that creates an event publishes it.  The other ways of writing do not tell events from
records.

1. A write leaves records with ids that were there, and at most one with an id that it draws.  Rows
   draw ids only if they are inserted or upserted.
2. `Inserts`: the operations that can store a new record without asking whether it is an event.
3. Every event that is stored got its id from one of them.
-/

namespace CrmEmulator

/-! ## Ids of written records -/

/-- A record that a write leaves has the id of one that was there, or one that the write draws. -/
theorem Write.id?_of_mem {s : Schema} {st st' : RowState} (h : Write s st st') {r : Record}
    (hr : r ∈ st'.collection.records) : (∃ old ∈ st.collection.records, old.id? = r.id?) ∨
      ∃ id ∈ Supply.drawn s.idPrefix st.supply st'.supply, r.id? = some id := by
  cases h with
  | kept => exact .inl ⟨r, hr, rfl⟩
  | appended c supply =>
    rcases List.mem_append.mp hr with hr | hr
    · exact .inl ⟨r, hr, rfl⟩
    · rw [List.mem_singleton.mp hr, Supply.drawn_freshId]
      exact .inr ⟨_, List.mem_singleton_self _, Record.id?_created _ _ _⟩
  | edited front back old =>
    rcases List.mem_append.mp hr with hr | hr
    · exact .inl ⟨r, List.mem_append_left _ hr, rfl⟩
    rcases List.mem_cons.mp hr with rfl | hr
    · exact .inl ⟨old, by simp, (Record.id?_updated _ _ _).symm⟩
    · exact .inl ⟨r, by simp [hr], rfl⟩
  | removed front back old =>
    refine .inl ⟨r, ?_, rfl⟩
    simp only [List.mem_append, List.mem_cons] at hr ⊢
    exact hr.imp_right .inr

/-- After writes every record has an id that was there before or was drawn in between. -/
theorem Writes.id?_of_mem {s : Schema} {st st' : RowState} (h : Writes s st st') {r : Record}
    (hr : r ∈ st'.collection.records) : (∃ old ∈ st.collection.records, old.id? = r.id?) ∨
      ∃ id ∈ Supply.drawn s.idPrefix st.supply st'.supply, r.id? = some id := by
  induction h with
  | nil => exact .inl ⟨r, hr, rfl⟩
  | cons h hs ih =>
    rw [← Supply.drawn_append _ h.serial_le hs.serial_le]
    rcases ih hr with ⟨mid, hmid, heq⟩ | ⟨id, hid, heq⟩
    · rw [← heq]
      -- the record that has this id after the first write
      refine (h.id?_of_mem hmid).imp_right fun ⟨id, hid, hmid⟩ => ?_
      exact ⟨id, List.mem_append_left _ hid, hmid⟩
    · exact .inr ⟨id, List.mem_append_right _ hid, heq⟩

namespace RowProcessor

/-- An operation that adds records. -/
def Adds (p : RowProcessor) : Prop := p.operation = .insert ∨ p.operation = .upsert

instance (p : RowProcessor) : Decidable p.Adds := inferInstanceAs (Decidable (_ ∨ _))

/-- A row that adds no record draws no id. -/
theorem supply_process {p : RowProcessor} (hp : ¬ p.Adds) (st : RowState) (row : Record) :
    (p.process st row).2.supply = st.supply := by
  unfold process
  split
  · next hinsert => exact (hp (.inl hinsert)).elim
  · rcases hrevised : p.update st row with ⟨result, st'⟩
    have h := p.update_revised st row
    rw [hrevised] at h
    cases h <;> rfl
  · next hupsert => exact (hp (.inr hupsert)).elim
  · unfold delete
    split
    · rfl
    split <;> rfl
  · rfl
  · rfl

/-- Rows that add no record draw no ids. -/
theorem supply_processAll {p : RowProcessor} (hp : ¬ p.Adds) (st : RowState)
    (rows : List Record) : (p.processAll st rows).2.supply = st.supply := by
  induction rows generalizing st with
  | nil => rfl
  | cons row rows ih => exact (ih _).trans (supply_process hp st row)

end RowProcessor

namespace Org

/-! ## Operations that insert -/

/-- An operation that stores new records of an object, whether they are events or not: an upsert of
a single record, or rows of a job that inserts or upserts. -/
inductive Inserts (o : Org) (object : String) : Op → Prop
  | upsert (field text : String) (body : Json) :
      Inserts o object (.call (.upsert object field text body))
  | rows {op : Op} {b : RowBatch} (hb : o.rowBatch? op = some b) (hobject : b.object = object)
      (hadds : b.processor.Adds) : Inserts o object op

/-- A record that is stored after a single write has the id of one that was stored before, or an id
that the write has drawn. -/
theorem Written.id?_of_stores {o o' : Org} {object : String} (h : Written o object o') {r : Record}
    (hr : o'.Stores object r) : (∃ old, o.Stores object old ∧ old.id? = r.id?) ∨
      ∃ id ∈ Supply.drawn (o.idPrefix object) o.supply o'.supply, r.id? = some id := by
  cases h with
  | mk hschema hc hwrite =>
    rcases hr.of_setCollection rfl hc with hbefore | ⟨-, hmem⟩
    · exact .inl ⟨r, hbefore, rfl⟩
    rcases hwrite.id?_of_mem hmem with ⟨old, hold, heq⟩ | hdrawn
    · exact .inl ⟨old, ⟨_, Store.mem_of_lookup hc, hold⟩, heq⟩
    · rw [idPrefix_of_find? hschema]
      exact .inr hdrawn

/-- A call stores no new event unless it is an upsert. -/
theorem call_event {o o' : Org} {call : Call} (h : o.perform call = .ok o')
    (hevent : isEventName call.object) {r : Record} (hr : o'.Stores call.object r) :
    (∃ old, o.Stores call.object old ∧ old.id? = r.id?) ∨
      o.Inserts call.object (.call call) ∧ ∃ id ∈ o.idsOf (.call call), r.id? = some id := by
  have hstep : o.step (.call call) = o' := step_of_ok h
  rw [idsOf, hstep]
  cases call with
  | create object body =>
    rcases map_eq_ok.mp h with ⟨⟨id, _⟩, hcreate, rfl⟩
    -- creating publishes the event and stores nothing
    have hname : isEventName object := hevent
    rw [createRecord, if_pos hname] at hcreate
    exact .inl ⟨r, hr.of_store_eq (publishEvent_ok hcreate).1, rfl⟩
  | update object id body =>
    refine .inl (((updateRecord_written h).id?_of_stores hr).resolve_right ?_)
    rcases updateRecord_ok h with ⟨_, _, _, _, -, -, -, -, -, rfl⟩
    simp [putRowState]
  | delete object id =>
    refine .inl (((deleteRecord_written h).id?_of_stores hr).resolve_right ?_)
    rcases deleteRecord_ok h with ⟨_, _, _, -, -, -, rfl⟩
    simp [putRowState]
  | upsert object field text body =>
    rcases map_eq_ok.mp h with ⟨⟨what, _⟩, hupsert, rfl⟩
    -- an upsert is not stopped by the name, so it may have drawn an id
    refine ((upsertRecord_written hupsert).id?_of_stores hr).imp_right fun hdrawn => ?_
    exact ⟨.upsert field text body, hdrawn⟩

/-- Rows store no new record of any object unless they are inserted or upserted. -/
theorem rows_id? {o o' : Org} {op : Op} {b : RowBatch} (hb : o.rowBatch? op = some b)
    (h : o.Processed b o') (hstep : o.step op = o') {r : Record}
    (hr : r ∈ b.after.collection.records) :
    (∃ old, o.Stores b.object old ∧ old.id? = r.id?) ∨
      o.Inserts b.object op ∧ ∃ id ∈ o.idsOf op, r.id? = some id := by
  rcases b.writes.id?_of_mem hr with ⟨old, hold, heq⟩ | hdrawn
  · exact .inl ⟨old, ⟨_, Store.mem_of_lookup h.collection, hold⟩, heq⟩
  · have hadds : b.processor.Adds := by
      refine Decidable.byContradiction fun hnot => ?_
      have hsupply : b.after.supply = b.before.supply :=
        RowProcessor.supply_processAll hnot b.before b.rows
      rw [hsupply, Supply.drawn_self] at hdrawn
      simp at hdrawn
    rw [idsOf_of_rowBatch hb h, hstep, h.supply]
    exact .inr ⟨.rows hb rfl hadds, hdrawn⟩

/-- What an operation does to the events that are stored. -/
theorem step_event {object : String} (hevent : isEventName object) (o : Org) (op : Op)
    {r : Record} (hr : (o.step op).Stores object r) :
    (∃ old, o.Stores object old ∧ old.id? = r.id?) ∨
      o.Inserts object op ∧ ∃ id ∈ o.idsOf op, r.id? = some id := by
  rcases (step_outcome o op).stores hr with hbefore | ⟨call, rfl, hcall, rfl⟩ |
    ⟨b, hb, hprocessed, rfl, hmem⟩
  · exact .inl ⟨r, hbefore, rfl⟩
  · exact call_event hcall hevent hr
  · exact rows_id? hb hprocessed rfl hmem

/-- Whatever requests and batches an organisation has answered since it was empty, an event is
stored only if an upsert or the rows of an inserting or upserting job have stored it: then it bears
an id that this operation has drawn. -/
theorem stored_event_is_inserted {c : Catalog} {settings : Settings} {supply : Supply}
    {ops : List Op} {object : String} (hevent : isEventName object) {r : Record}
    (hr : ((ofCatalog c settings supply).run ops).Stores object r) :
    Sometime (fun o op => o.Inserts object op ∧ ∃ id ∈ o.idsOf op, r.id? = some id)
      (ofCatalog c settings supply) ops := by
  let Bears (o : Org) : Prop := ∃ old, o.Stores object old ∧ old.id? = r.id?
  have hstep (o : Org) (op : Op) (hnext : Bears (o.step op)) :
      Bears o ∨ o.Inserts object op ∧ ∃ id ∈ o.idsOf op, r.id? = some id := by
    rcases hnext with ⟨mid, hmid, heq⟩
    have hcause := step_event hevent o op hmid
    rwa [heq] at hcause
  have hlast : Bears ((ofCatalog c settings supply).run ops) := ⟨r, hr, rfl⟩
  refine (sometime_of_run hstep hlast).resolve_left ?_
  rintro ⟨old, hold, -⟩
  exact not_stores_ofCatalog c settings supply object old hold

/-- An organisation with one event. -/
def withNotes : Org := ofCatalog ⟨[⟨"Note__e", "e01", "Note", none, []⟩]⟩ {} ⟨0, 0⟩

/-- The event that the upsert leaves in the store has an id that the upsert drew. -/
theorem upserted_note_is_inserted : ∃ r,
    (withNotes.run [.call (.upsert "Note__e" "Text" "a" .null)]).Stores "Note__e" r ∧
      Sometime (fun o op => o.Inserts "Note__e" op ∧ ∃ id ∈ o.idsOf op, r.id? = some id)
        withNotes [.call (.upsert "Note__e" "Text" "a" .null)] := by
  let r : Record := .created "e01AAAAAAAAAAAAAAA" (Supply.now ⟨0, 0⟩) ⟨[("Text", .text "a")]⟩
  have hr : (withNotes.run [.call (.upsert "Note__e" "Text" "a" .null)]).Stores "Note__e" r :=
    ⟨⟨[r]⟩, by decide +kernel, by simp⟩
  exact ⟨r, hr, stored_event_is_inserted (by decide) hr⟩

/-- Runs that leave an event in the store: an upsert, an upload and a batch. -/
def storingRuns : List (List Op) := [
  [.call (.upsert "Note__e" "Text" "a" .null)],
  [.createIngest ⟨some "Note__e", some "insert", none, none, none, none⟩,
    .upload "750AAAAAAAAAAAAAAA" "Text\na\n",
    .closeIngest "750AAAAAAAAAAAAAAA",
    .processIngest "750AAAAAAAAAAAAAAA"],
  [.createBatchJob "<jobInfo><operation>insert</operation><object>Note__e</object></jobInfo>",
    .addBatch "750AAAAAAAAAAAAAAA" "Text\na\n"]]

/-- Each of them leaves one. -/
theorem events_are_stored : isEventName "Note__e" ∧
    ∀ ops ∈ storingRuns, (withNotes.run ops).store.total = 1 := by
  decide +kernel

end Org

end CrmEmulator
