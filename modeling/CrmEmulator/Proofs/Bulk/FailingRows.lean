import CrmEmulator.Proofs.Store.Write

/-!
# CrmEmulator.Proofs.Bulk.FailingRows — a failing row has no effect on its batch

1. `Handled`: all that one row can come to.  It fails and leaves the collection and the supply as
   they are, or it adds a record, changes one, or removes one.
2. By induction over the rows: a batch begins like the batch of its first rows, its rows that
   succeed make the same batch without the others, and its results count the records.
-/

namespace CrmEmulator

namespace Collection

theorem size_push (c : Collection) (r : Record) : (c.push r).size = c.size + 1 := by
  simp [size, push]

theorem size_edited {s : Schema} {now : String} {sent : Record} {c c' : Collection}
    (h : Edited s now sent c c') : c'.size = c.size := by
  cases h with
  | mk front back r => simp [size]

/-- Removing a record that is there makes a collection shorter by one. -/
theorem size_remove {c : Collection} {id : String} {r : Record} (hfound : c.find? id = some r) :
    (c.remove id).size + 1 = c.size := by
  rcases c with ⟨records⟩
  rcases split_of_find? hfound with ⟨front, back, rfl, -, hremove⟩
  simp only [remove, hremove, size, List.length_append, List.length_cons]
  omega

end Collection

namespace RowProcessor

/-! ## One row -/

/-- All that a row can come to. -/
inductive Handled (p : RowProcessor) (st : RowState) : RowResult × RowState → Prop
  | failed {id : Option String} {errors : List Violation} {input : Record} (h : errors ≠ []) :
      Handled p st (.failure id errors input, st)
  | added (hop : p.operation ≠ .delete) {id : String} {input r : Record} {supply : Supply} :
      Handled p st (.success id true input, ⟨st.collection.push r, supply⟩)
  | changed (hop : p.operation ≠ .delete) {id : String} {input : Record} {c : Collection}
      (hsize : c.size = st.collection.size) :
      Handled p st (.success id false input, { st with collection := c })
  | removed (hop : p.operation = .delete) {id : String} {input : Record} {c : Collection}
      (hsize : c.size + 1 = st.collection.size) :
      Handled p st (.success id false input, { st with collection := c })

/-- An insertion is handled: it adds one record, or it fails and leaves everything alone. -/
theorem insert_handled {p : RowProcessor} (hop : p.operation ≠ .delete) (st : RowState)
    (input : Record) : Handled p st (p.insert st input) := by
  simp only [insert]
  cases p.schema.violations .create (without "Id" input) with
  | nil => exact .added hop
  | cons first more => exact .failed (List.cons_ne_nil first more)

/-- A revision of a stored record is handled, and keeps the number of records. -/
theorem Revised.handled {p : RowProcessor} {st : RowState} {sent : Record}
    {outcome : RowResult × RowState} (h : Revised p.schema sent st outcome)
    (hop : p.operation ≠ .delete) : Handled p st outcome := by
  cases h with
  | refused herrors => exact .failed herrors
  | edited hedited => exact .changed hop (Collection.size_edited hedited)

/-- An upsert is handled, whether it inserts or revises. -/
theorem upsert_handled {p : RowProcessor} (hop : p.operation ≠ .delete) (st : RowState)
    (input : Record) : Handled p st (p.upsert st input) := by
  rcases p.upsert_cases st input with ⟨hinsert, -⟩ | hrevised
  · rw [hinsert]
    exact insert_handled hop st input
  · exact hrevised.handled hop

/-- A deletion is handled: it removes one record, or it fails and leaves everything alone. -/
theorem delete_handled {p : RowProcessor} (hop : p.operation = .delete) (st : RowState)
    (input : Record) : Handled p st (delete st input) := by
  unfold delete
  split
  · exact .failed (List.cons_ne_nil _ _)
  split
  · exact .failed (List.cons_ne_nil _ _)
  next hfound => exact .removed hop (Collection.size_remove hfound)

/-- Every row is handled, whatever the operation. -/
theorem process_handled (p : RowProcessor) (st : RowState) (row : Record) :
    Handled p st (p.process st row) := by
  cases hop : p.operation with
  | insert =>
    simp only [process, hop]
    exact insert_handled (by simp [hop]) st row
  | update =>
    simp only [process, hop]
    exact (update_revised p st row).handled (by simp [hop])
  | upsert =>
    simp only [process, hop]
    exact upsert_handled (by simp [hop]) st row
  | delete =>
    simp only [process, hop]
    exact delete_handled hop st row
  | query | queryAll =>
    simp only [process, hop]
    exact .failed (List.cons_ne_nil _ _)

theorem input_insert (p : RowProcessor) (st : RowState) (row : Record) :
    (p.insert st row).1.input = row := by
  simp only [insert]
  cases p.schema.violations .create (without "Id" row) <;> rfl

/-- An update reports the row as it was given. -/
theorem input_update (p : RowProcessor) (st : RowState) (row : Record) :
    (p.update st row).1.input = row := by
  unfold update
  split
  · rfl
  split
  · rfl
  · simp only
    split <;> rfl

/-- An upsert reports the row as it was given. -/
theorem input_upsert (p : RowProcessor) (st : RowState) (row : Record) :
    (p.upsert st row).1.input = row := by
  unfold upsert
  simp only
  split
  · exact input_insert p st row
  split
  · exact input_insert p st row
  · split <;> rfl

/-- A deletion reports the row as it was given. -/
theorem input_delete (st : RowState) (row : Record) : (delete st row).1.input = row := by
  unfold delete
  split
  · rfl
  · split <;> rfl

/-- A result reports the row that it is about. -/
theorem input_process (p : RowProcessor) (st : RowState) (row : Record) :
    (p.process st row).1.input = row := by
  unfold process
  split
  · exact input_insert p st row
  · exact input_update p st row
  · exact input_upsert p st row
  · exact input_delete st row
  all_goals rfl

section

variable {p : RowProcessor} {st : RowState} {outcome : RowResult × RowState}

/-- A row that fails changes no record and draws no id. -/
theorem Handled.kept (h : Handled p st outcome) (hfailed : outcome.1.isSuccess = false) :
    outcome.2 = st := by
  cases h with
  | failed => rfl
  | added | changed | removed => cases hfailed

/-- Does a result tell of a record that was removed? -/
def removes (p : RowProcessor) (result : RowResult) : Bool :=
  p.operation = .delete && result.isSuccess

/-- What a row does to the number of records. -/
theorem Handled.size (h : Handled p st outcome) :
    outcome.2.collection.size + (p.removes outcome.1).toNat =
      st.collection.size + outcome.1.created.toNat := by
  cases h with
  | failed herrors => simp [removes, RowResult.failure, RowResult.isSuccess, herrors]
  | added hop => simp [removes, hop, RowResult.success, Collection.size_push]
  | changed hop hsize => simp [removes, hop, RowResult.success, hsize]
  | removed hop hsize => simp [removes, hop, RowResult.success, RowResult.isSuccess, hsize]

end

/-! ## Batches -/

/-- The results of a list of rows report the rows, in their order. -/
theorem input_processAll (p : RowProcessor) (st : RowState) (rows : List Record) :
    (p.processAll st rows).1.map (·.input) = rows := by
  induction rows generalizing st with
  | nil => rfl
  | cons row rows ih => simp [processAll, input_process, ih]

/-- The first rows of a batch have the first results. -/
theorem processAll_take (p : RowProcessor) (st : RowState) (rows : List Record) (i : Nat) :
    (p.processAll st (rows.take i)).1 = (p.processAll st rows).1.take i := by
  induction rows generalizing st i with
  | nil => simp [processAll]
  | cons row rows ih =>
    cases i with
    | zero => rfl
    | succ i => simp [processAll, ih]

/-- A batch is the same state before and after a row that fails. -/
theorem processAll_kept {p : RowProcessor} {st : RowState} {rows : List Record} {i : Nat}
    {result : RowResult} (hresult : (p.processAll st rows).1[i]? = some result)
    (hfailed : result.isSuccess = false) :
    (p.processAll st (rows.take (i + 1))).2 = (p.processAll st (rows.take i)).2 := by
  induction rows generalizing st i with
  | nil => simp [processAll] at hresult
  | cons row rows ih =>
    cases i with
    | zero =>
      have hrow : (p.process st row).1 = result := by simpa [processAll] using hresult
      have hkept : (p.process st row).2 = st :=
        (process_handled p st row).kept (hrow ▸ hfailed)
      simpa [processAll] using hkept
    | succ i =>
      have hrest : (p.processAll (p.process st row).2 rows).1[i]? = some result := by
        simpa [processAll] using hresult
      simpa [processAll] using ih hrest

/-- The rows of a batch that succeed. -/
def succeeding (p : RowProcessor) (st : RowState) (rows : List Record) : List Record :=
  ((rows.zip (p.processAll st rows).1).filter (·.2.isSuccess)).map (·.1)

/-- Without the rows that fail, a batch has the other results and leaves the same. -/
theorem processAll_succeeding (p : RowProcessor) (st : RowState) (rows : List Record) :
    p.processAll st (p.succeeding st rows) =
      ((p.processAll st rows).1.filter (·.isSuccess), (p.processAll st rows).2) := by
  induction rows generalizing st with
  | nil => rfl
  | cons row rows ih =>
    have hrest := ih (p.process st row).2
    cases hrow : (p.process st row).1.isSuccess with
    | true =>
      have hsucceeding : p.succeeding st (row :: rows) =
          row :: p.succeeding (p.process st row).2 rows := by
        simp [succeeding, processAll, hrow]
      rw [hsucceeding]
      simp [processAll, hrest, hrow]
    | false =>
      -- the rest of the batch starts where the failing row started
      have hkept : (p.process st row).2 = st := (process_handled p st row).kept hrow
      have hsucceeding : p.succeeding st (row :: rows) = p.succeeding st rows := by
        simp [succeeding, processAll, hrow, hkept]
      rw [hkept] at hrest
      rw [hsucceeding, hrest]
      simp [processAll, hrow, hkept]

/-- The results of a batch account for the number of records. -/
theorem size_processAll (p : RowProcessor) (st : RowState) (rows : List Record) :
    (p.processAll st rows).2.collection.size + (p.processAll st rows).1.countP p.removes =
      st.collection.size + (p.processAll st rows).1.countP (·.created) := by
  induction rows generalizing st with
  | nil => rfl
  | cons row rows ih =>
    have hrow := (process_handled p st row).size
    have hrest := ih (p.process st row).2
    simp only [processAll, List.countP_cons]
    cases hremoves : p.removes (p.process st row).1 <;>
      cases hcreated : (p.process st row).1.created <;>
        simp [hremoves, hcreated] at hrow ⊢ <;> omega

/-- A batch has one result for each row, in order, and its first rows make the same results in a
batch of their own.  A row that fails leaves the collection and the supply exactly as they were.
Without the rows that fail, the other results and the last collection are the same.  And the
records that the results report as created or removed are those by which the collection grew or
shrank. -/
theorem failing_rows_have_no_effect (p : RowProcessor) (st : RowState) (rows : List Record) :
    let results := (p.processAll st rows).1
    let last := (p.processAll st rows).2
    results.map (·.input) = rows ∧
    (∀ i, (p.processAll st (rows.take i)).1 = results.take i) ∧
    (∀ i result, results[i]? = some result → result.isSuccess = false →
      (p.processAll st (rows.take (i + 1))).2 = (p.processAll st (rows.take i)).2) ∧
    p.processAll st (p.succeeding st rows) = (results.filter (·.isSuccess), last) ∧
    last.collection.size + results.countP p.removes =
      st.collection.size + results.countP (·.created) := by
  have hprefix : ∀ i, (p.processAll st (rows.take i)).1 = (p.processAll st rows).1.take i :=
    processAll_take p st rows
  have hkept : ∀ i result, (p.processAll st rows).1[i]? = some result →
      result.isSuccess = false →
        (p.processAll st (rows.take (i + 1))).2 = (p.processAll st (rows.take i)).2 :=
    fun i result hresult hfailed => processAll_kept hresult hfailed
  exact ⟨input_processAll p st rows, hprefix, hkept, processAll_succeeding p st rows,
    size_processAll p st rows⟩

/-- An object with a short name that is required. -/
def titled : Schema where
  name := "Note"
  idPrefix := "00N"
  fields := [("Name", { required := true, maxLength := some 3 }), ("Key", {})]

/-- A new key, a key that is there with a long name, a new key without a name, and no key. -/
def titledRows : List Record := [
  ⟨[("Key", .text "7"), ("Name", .text "a")]⟩,
  ⟨[("Key", .text "5"), ("Name", .text "long")]⟩,
  ⟨[("Key", .text "8")]⟩,
  ⟨[("Name", .text "b")]⟩]

/-- The two rows in the middle fail, one when it finds its record and one when it makes a new one;
the last row draws the id after that of the first, with the two and without them. -/
theorem titledRows_without_failures :
    let p : RowProcessor := ⟨titled, .upsert, some "Key"⟩
    let st : RowState :=
      ⟨⟨[⟨[("Id", .text "00NA"), ("Key", .text "5"), ("Name", .text "c")]⟩]⟩, ⟨0, 0⟩⟩
    (p.processAll st titledRows).1.map (·.isSuccess) = [true, false, false, true] ∧
    p.succeeding st titledRows =
      [⟨[("Key", .text "7"), ("Name", .text "a")]⟩, ⟨[("Name", .text "b")]⟩] ∧
    (p.processAll st (titledRows.take 2)).2 = (p.processAll st (titledRows.take 1)).2 ∧
    p.processAll st (p.succeeding st titledRows) =
      ((p.processAll st titledRows).1.filter (·.isSuccess), (p.processAll st titledRows).2) ∧
    (p.processAll st titledRows).2.collection.size = 3 := by
  intro p st
  have hall := failing_rows_have_no_effect p st titledRows
  refine ⟨by decide +kernel, by decide +kernel, ?_, hall.2.2.2.1, by decide +kernel⟩
  exact hall.2.2.1 1 _ rfl (by decide +kernel)

end RowProcessor

end CrmEmulator
