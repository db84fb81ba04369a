import CrmEmulator.Proofs.Store.Write

/-!
# CrmEmulator.Proofs.Bulk.ExternalId — upserts by an external id

An upsert finds its record by the text of one field, the external id.

1. The view of a collection by which upserts find records: the values of that field, in order.
2. `process_upserts`: a row leaves this view as it is, or creates a record whose external id nobody
   carried and so adds one value at the end.
3. A batch creates at most one record for each external id, and none for one that is there; external
   ids that are distinct stay distinct.
-/

namespace CrmEmulator

/-! ## External ids -/

namespace Record

/-- A value has a key exactly if it is present and not blank. -/
theorem keyText?_eq_some {value : Option Value} {key : String} :
    keyText? value = some key ↔ ∃ v, value = some v ∧ v.isBlank = false ∧ v.coerceText = key := by
  cases value with
  | none => simp [keyText?]
  | some v => cases hv : v.isBlank <;> simp [keyText?, Option.filter, hv]

end Record

namespace Collection

variable {field : String}

/-- The values of a field, record by record. -/
def values (c : Collection) (field : String) : List (Option Value) := c.records.map (·.get? field)

/-- The external ids of the records that have one. -/
def keys (c : Collection) (field : String) : List String := c.records.filterMap (·.key? field)

/-- Some record has a value with the text in the field. -/
def Carries (c : Collection) (field key : String) : Prop :=
  ∃ r ∈ c.records, ∃ v, r.get? field = some v ∧ v.coerceText = key

theorem keys_eq (c : Collection) (field : String) :
    c.keys field = (c.values field).filterMap Record.keyText? := by
  rw [keys, values, List.filterMap_map]
  rfl

/-- A text is carried exactly if some value of the field converts to it. -/
theorem carries_iff {c : Collection} {key : String} :
    c.Carries field key ↔ ∃ v, some v ∈ c.values field ∧ v.coerceText = key := by
  simp only [Carries, values, List.mem_map]
  constructor
  · rintro ⟨r, hr, v, hv, htext⟩
    exact ⟨v, ⟨r, hr, hv⟩, htext⟩
  · rintro ⟨v, ⟨r, hr, hv⟩, htext⟩
    exact ⟨r, hr, v, hv, htext⟩

/-- An external id is carried by the record that has it. -/
theorem carries_of_mem_keys {c : Collection} {key : String} (h : key ∈ c.keys field) :
    c.Carries field key := by
  rcases List.mem_filterMap.mp h with ⟨r, hr, hkey⟩
  rcases Record.keyText?_eq_some.mp hkey with ⟨v, hv, -, htext⟩
  exact ⟨r, hr, v, hv, htext⟩

theorem hasText_iff {r : Record} {text : String} :
    hasText field text r ↔ ∃ v, r.get? field = some v ∧ v.coerceText = text := by
  unfold hasText
  cases r.get? field <;> simp

theorem findByText?_eq_none {c : Collection} {key : String} :
    c.findByText? field key = none ↔ ¬ c.Carries field key := by
  simp only [findByText?, List.find?_eq_none, hasText_iff, Carries, not_exists, not_and]

theorem values_push (c : Collection) (r : Record) (field : String) :
    (c.push r).values field = c.values field ++ [r.get? field] := by
  simp [push, values]

end Collection

namespace RowProcessor

variable {s : Schema} {field : String}

/-! ## One row -/

/-- What an upsert leaves out of an update stays as it is. -/
theorem get?_updated_without (hfield : field ∉ systemFields) (r : Record) (now : String)
    (sent : Record) : (r.updated now (without field sent)).get? field = r.get? field := by
  have hopen : field ∉ Record.protectedFields := fun h => hfield (Record.protectedFields_subset h)
  -- the field is left out of what is sent, so nothing sets it
  have hlast : (without field sent).last? field = none := by
    rw [Record.last?, without, ← List.filter_reverse, Record.lookup_filter, if_pos rfl]
  rw [Record.get?_updated hopen, hlast, Option.none_or]

/-- An edit that leaves the field out keeps the values of the field. -/
theorem values_edited (hfield : field ∉ systemFields) {now : String} {row : Record}
    {before after : Collection} (h : Edited s now (without field row) before after) :
    after.values field = before.values field := by
  cases h with
  | mk front back r => simp [Collection.values, get?_updated_without hfield]

/-- A record is created with the values it was sent, but for the fields of the system. -/
theorem get?_created_without (hfield : field ∉ systemFields) {input : Record}
    (hnames : input.names.Nodup) (id now : String) :
    (Record.created id now (without "Id" input)).get? field = input.get? field := by
  have hid : Record.created id now (without "Id" input) = .created id now input :=
    Record.created_withoutId id now input
  rw [hid, Record.get?_created hfield, Record.last?_of_nodup hnames]

/-- What an upsert did to the values of the external id. -/
inductive Upserts (field : String) (before : Collection) (input : Record) :
    RowResult → Collection → Prop
  | kept {result : RowResult} {after : Collection} (hresult : result.created = false)
      (hvalues : after.values field = before.values field) : Upserts field before input result after
  | created {result : RowResult} {after : Collection} (hresult : result.created = true)
      (hvalues : after.values field = before.values field ++ [input.get? field])
      (hnew : ∀ key, input.key? field = some key → ¬ before.Carries field key) :
      Upserts field before input result after

/-- An insertion of a new key is one of the ways to upsert. -/
theorem insert_upserts (hfield : field ∉ systemFields) {p : RowProcessor} {st : RowState}
    {input : Record} (hnames : input.names.Nodup)
    (hnew : ∀ key, input.key? field = some key → ¬ st.collection.Carries field key) :
    Upserts field st.collection input (p.insert st input).1 (p.insert st input).2.collection := by
  simp only [insert]
  cases p.schema.violations .create (without "Id" input) with
  | nil =>
    refine .created rfl ?_ hnew
    rw [Collection.values_push, get?_created_without hfield hnames]
  | cons => exact .kept rfl rfl

/-- A row of an upsert job upserts, whatever the collection holds. -/
theorem process_upserts (hfield : field ∉ systemFields) (st : RowState) {input : Record}
    (hnames : input.names.Nodup) :
    Upserts field st.collection input ((mk s .upsert (some field)).process st input).1
      ((mk s .upsert (some field)).process st input).2.collection := by
  simp only [process]
  rcases upsert_cases (mk s .upsert (some field)) st input with ⟨hinsert, hnew⟩ | hrevised
  · rw [hinsert]
    exact insert_upserts hfield hnames fun key hkey =>
      Collection.findByText?_eq_none.mp (hnew key hkey)
  · generalize (mk s .upsert (some field)).upsert st input = outcome at hrevised
    cases hrevised with
    | refused => exact .kept rfl rfl
    | edited h => exact .kept rfl (values_edited hfield h)

section

variable {before after : Collection} {input : Record} {result : RowResult}

/-- What was carried before an upsert is carried after it. -/
theorem Upserts.carries (h : Upserts field before input result after) {key : String}
    (hcarries : before.Carries field key) : after.Carries field key := by
  rw [Collection.carries_iff] at hcarries ⊢
  rcases hcarries with ⟨v, hv, htext⟩
  cases h with
  | kept _ hvalues => exact ⟨v, hvalues ▸ hv, htext⟩
  | created _ hvalues => exact ⟨v, hvalues ▸ List.mem_append_left _ hv, htext⟩

/-- The external id of a record that is created was not carried before, and is from then on. -/
theorem Upserts.carries_of_created (h : Upserts field before input result after)
    (hresult : result.created = true) {key : String} (hkey : input.key? field = some key) :
    ¬ before.Carries field key ∧ after.Carries field key := by
  cases h with
  | kept hkept => cases hresult.symm.trans hkept
  | created _ hvalues hnew =>
    refine ⟨hnew key hkey, ?_⟩
    rcases Record.keyText?_eq_some.mp hkey with ⟨v, hv, -, htext⟩
    exact Collection.carries_iff.mpr ⟨v, by rw [hvalues, ← hv]; simp, htext⟩

/-- An upsert keeps the keys of a collection distinct. -/
theorem Upserts.keys_nodup (h : Upserts field before input result after)
    (hnodup : (before.keys field).Nodup) : (after.keys field).Nodup := by
  cases h with
  | kept _ hvalues => rwa [Collection.keys_eq, hvalues, ← Collection.keys_eq]
  | created _ hvalues hnew =>
    -- the new record adds its external id at the end, if it has one
    have hkeys : after.keys field = before.keys field ++ (input.key? field).toList := by
      rw [Collection.keys_eq, hvalues, List.filterMap_append, ← Collection.keys_eq]
      cases hkey : Record.keyText? (input.get? field) <;> simp [Record.key?, hkey]
    rw [hkeys]
    cases hkey : input.key? field with
    | none => simpa using hnodup
    | some key =>
      rw [Option.toList_some, List.nodup_append]
      refine ⟨hnodup, by simp, ?_⟩
      rintro a ha b hb rfl
      obtain rfl : a = key := List.mem_singleton.mp hb
      exact hnew a hkey (Collection.carries_of_mem_keys ha)

end

/-! ## Batches -/

/-- How many rows with an external id created a record. -/
def creations (field key : String) (outcomes : List (Record × RowResult)) : Nat :=
  outcomes.countP fun o => decide (o.1.key? field = some key) && o.2.created

/-- In a batch of upserts each external id is created at most once, and not at all if a record
carries it from the beginning; distinct external ids stay distinct. -/
theorem upserts_create_once (s : Schema) (hfield : field ∉ systemFields) (st : RowState)
    {rows : List Record} (hrows : ∀ row ∈ rows, row.names.Nodup) :
    let outcome := (mk s .upsert (some field)).processAll st rows
    (∀ key, creations field key (rows.zip outcome.1) ≤ 1 ∧
      (st.collection.Carries field key → creations field key (rows.zip outcome.1) = 0)) ∧
    ((st.collection.keys field).Nodup → (outcome.2.collection.keys field).Nodup) := by
  -- on the rows: the first is accounted for, and the others find what it leaves
  induction rows generalizing st with
  | nil => simp [processAll, creations]
  | cons row rows ih =>
    rw [List.forall_mem_cons] at hrows
    have hrow := process_upserts (s := s) hfield st hrows.1
    have hrest := ih ((mk s .upsert (some field)).process st row).2 hrows.2
    simp only [processAll, List.zip_cons_cons]
    generalize (mk s .upsert (some field)).process st row = outcome at hrow hrest
    rcases outcome with ⟨result, mid⟩
    refine ⟨fun key => ?_, fun hnodup => hrest.2 (hrow.keys_nodup hnodup)⟩
    rcases hrest.1 key with ⟨honce, hnever⟩
    by_cases hcreates : row.key? field = some key ∧ result.created = true
    · -- the row creates the external id, so no later row does
      rcases hrow.carries_of_created hcreates.2 hcreates.1 with ⟨hbefore, hafter⟩
      have hzero := hnever hafter
      simp only [creations] at hzero
      simp [creations, hcreates, hzero, hbefore]
    · have hskip : creations field key ((row, result) ::
          rows.zip ((mk s .upsert (some field)).processAll mid rows).1) =
            creations field key (rows.zip ((mk s .upsert (some field)).processAll mid rows).1) := by
        simpa [creations, List.countP_cons] using hcreates
      rw [hskip]
      exact ⟨honce, fun hcarries => hnever (hrow.carries hcarries)⟩

/-- Typed rows have distinct names, whatever the cells were. -/
theorem nodup_names_typeRecord (s : Schema) (row : Record) : (typeRecord s row).names.Nodup :=
  Record.nodup_names_setAll (r := Record.empty) List.nodup_nil _

/-- An object with a numeric external id. -/
def keyed : Schema where
  name := "Account"
  idPrefix := "001"
  fields := [("Key", { type := .int }), ("Name", { required := true })]

/-- Rows with a new external id, one of them invalid, with none, and with one that is there. -/
def keyedRows : List Record := [
  ⟨[("Key", .text "7")]⟩,
  ⟨[("Key", .text "7"), ("Name", .text "a")]⟩,
  ⟨[("Key", .text ""), ("Name", .text "b")]⟩,
  ⟨[("Key", .text "007"), ("Name", .text "c")]⟩,
  ⟨[("Key", .text "5"), ("Name", .text "d")]⟩]

/-- The record of an external id is created by the first row that is valid; the leading zeros are
not in the value. -/
theorem seven_is_created_once :
    let rows := keyedRows.map (typeRecord keyed)
    let st : RowState := ⟨⟨[⟨[("Id", .text "001A"), ("Key", .integer 5)]⟩]⟩, ⟨0, 0⟩⟩
    let outcome := (mk keyed .upsert (some "Key")).processAll st rows
    outcome.1.map (·.created) = [false, true, true, false, false] ∧
      creations "Key" "7" (rows.zip outcome.1) ≤ 1 ∧
      creations "Key" "5" (rows.zip outcome.1) = 0 ∧
      outcome.2.collection.keys "Key" = ["5", "7"] ∧ (outcome.2.collection.keys "Key").Nodup := by
  intro rows st outcome
  have hrows : ∀ row ∈ rows, row.names.Nodup := by
    rw [List.forall_mem_map]
    exact fun row _ => nodup_names_typeRecord keyed row
  have hfield : "Key" ∉ systemFields := by decide
  rcases upserts_create_once keyed hfield st hrows with ⟨honce, hnodup⟩
  refine ⟨by decide +kernel, (honce "7").1, (honce "5").2 ?_, by decide +kernel, hnodup ?_⟩
  · exact ⟨_, List.mem_singleton.mpr rfl, .integer 5, rfl, rfl⟩
  · decide

end RowProcessor

end CrmEmulator
