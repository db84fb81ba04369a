import CrmEmulator.Proofs.Bulk.IngestLife
import CrmEmulator.Proofs.Csv.Tables

/-!
# CrmEmulator.Proofs.Bulk.Results — every uploaded row comes back

A row is typed before it is processed, and put back as it was sent before it is reported.

1. `resultsCsv` writes the columns of results and of the upload, so that reading it gives, row by
   row, what became of the row and the cells that were sent.
2. `Reported`: what a processed job says of its rows, in the order of upload.
-/

namespace CrmEmulator

namespace Ingest

open Csv

/-! ## Result rows -/

/-- The columns that results have before those of the upload. -/
def leadingColumns (success : Bool) : List String :=
  ["sf__Id", if success then "sf__Created" else "sf__Error"]

/-- What became of a row: its id, and whether a record was created or why none was. -/
def leadingCells (r : RowResult) : List String :=
  [r.id.getD "", if r.isSuccess then Value.boolText r.created else r.summary]

/-- A result row is a row of the uploaded table with what became of it before its cells. -/
theorem resultRow_eq {r : RowResult} {headers row : List String}
    (hnodup : (leadingColumns r.isSuccess ++ headers).Nodup) (h : row.length = headers.length) :
    resultRow { r with input := rowRecord headers row } =
      rowRecord (leadingColumns r.isSuccess ++ headers) (leadingCells r ++ row) := by
  have hsplit := List.nodup_append.mp hnodup
  have hlength : (leadingCells r).length = (leadingColumns r.isSuccess).length := rfl
  have hhead : resultRow { r with input := rowRecord headers row } =
      (rowRecord headers row).fields.foldl
        (fun row field => if row.contains field.1 then row else row.set field.1 field.2)
        (rowRecord (leadingColumns r.isSuccess) (leadingCells r)) := by
    rcases r with ⟨id, created, errors, input⟩
    cases errors <;> rfl
  have hfields : (resultRow { r with input := rowRecord headers row }).fields =
      (rowRecord (leadingColumns r.isSuccess) (leadingCells r)).fields ++
        (rowRecord headers row).fields := by
    rw [hhead]
    -- no column of the upload is one of the leading columns, so none is left out
    refine Record.fields_foldl_of_nodup ?_ ?_
    · intro row name value hnew
      have habsent : row.contains name = false := by simpa [Record.contains] using hnew
      simp [habsent]
    · have hnames : (rowRecord headers row).fields.map (·.1) = headers :=
        names_rowRecord hsplit.2.1 h
      rwa [names_rowRecord hsplit.1 hlength, hnames]
  have hwide : (leadingCells r ++ row).length = (leadingColumns r.isSuccess ++ headers).length := by
    rw [List.length_append, List.length_append, hlength, h]
  have hsame : (resultRow { r with input := rowRecord headers row }).fields =
      (rowRecord (leadingColumns r.isSuccess ++ headers) (leadingCells r ++ row)).fields := by
    rw [hfields, fields_rowRecord hsplit.1 hlength, fields_rowRecord hsplit.2.1 h,
      fields_rowRecord hnodup hwide, List.map_append, List.zip_append (by simp [hlength])]
  exact congrArg Record.mk hsame

/-! ## Columns -/

/-- A name that is there is not added again. -/
def addName (names : List String) (name : String) : List String :=
  if names.contains name then names else names ++ [name]

theorem columnsOf_eq (rows : List Record) :
    columnsOf rows = (rows.flatMap Record.names).foldl addName [] := rfl

/-- New names are appended in their order. -/
theorem foldl_addName_of_nodup {names more : List String} (h : (names ++ more).Nodup) :
    more.foldl addName names = names ++ more := by
  induction more generalizing names with
  | nil => simp
  | cons name more ih =>
    have hnew : name ∉ names := by
      intro hmem
      exact (List.nodup_append.mp h).2.2 name hmem name (by simp) rfl
    have hadd : addName names name = names ++ [name] := by simp [addName, hnew]
    rw [List.foldl_cons, hadd, ih (by simpa using h)]
    simp

/-- Names that are listed already add nothing. -/
theorem foldl_addName_of_subset {names more : List String} (h : ∀ name ∈ more, name ∈ names) :
    more.foldl addName names = names := by
  induction more with
  | nil => rfl
  | cons name more ih =>
    rw [List.forall_mem_cons] at h
    have hadd : addName names name = names := by simp [addName, h.1]
    rw [List.foldl_cons, hadd, ih h.2]

/-- Rows that all have the same columns have these columns together. -/
theorem columnsOf_of_same {columns : List String} {rows : List Record} (hne : rows ≠ [])
    (hnodup : columns.Nodup) (h : ∀ row ∈ rows, row.names = columns) :
    columnsOf rows = columns := by
  cases rows with
  | nil => exact absurd rfl hne
  | cons row rows =>
    rw [List.forall_mem_cons] at h
    have hothers : ∀ name ∈ rows.flatMap Record.names, name ∈ columns := by
      intro name hmem
      rcases List.mem_flatMap.mp hmem with ⟨other, hother, hname⟩
      rwa [h.2 other hother] at hname
    have hfirst : columns.foldl addName [] = columns :=
      foldl_addName_of_nodup (by simpa using hnodup)
    rw [columnsOf_eq, List.flatMap_cons, List.foldl_append, h.1, hfirst,
      foldl_addName_of_subset hothers]

/-! ## Result tables -/

/-- A row that failed has a summary to show. -/
theorem summary_filled {r : RowResult} (h : r.errors ≠ []) : r.summary ≠ "" := by
  have hcolon : ':' ∈ r.summary.toList := by
    rcases List.exists_cons_of_ne_nil h with ⟨v, more, herrors⟩
    cases more with
    | nil => simp [RowResult.summary, herrors, Violation.summary]
    | cons next more =>
      simp [RowResult.summary, herrors, String.intercalate_cons_of_ne_nil, Violation.summary]
  intro hempty
  simp [hempty] at hcolon

/-- What became of a row is told in words: whether a record was created, or why none was. -/
theorem leadingCells_filled (r : RowResult) : ∃ cell ∈ leadingCells r, cell ≠ "" := by
  refine ⟨_, List.mem_cons_of_mem _ List.mem_cons_self, ?_⟩
  split
  · cases r.created <;> decide
  · next hfailed => exact summary_filled (by simpa [RowResult.isSuccess] using hfailed)

theorem trimmed_leadingColumns (success : Bool) :
    ∀ name ∈ leadingColumns success, trim name.toList = name.toList := by
  cases success <;> decide

/-- A row that was processed, as it is reported: with the record that was sent. -/
def asSent (headers : List String) (o : RowResult × List String) : RowResult :=
  { o.1 with input := rowRecord headers o.2 }

/-- The table of results of one kind: what became of each row, and the row. -/
def resultTable (success : Bool) (headers : List String)
    (outcomes : List (RowResult × List String)) : Table :=
  if outcomes.isEmpty then ⟨[], []⟩
  else ⟨leadingColumns success ++ headers, outcomes.map fun o => leadingCells o.1 ++ o.2⟩

/-- A table of results is read back row by row: the leading columns, and the cells that were
uploaded. -/
theorem parse_resultsCsv {success : Bool} {headers : List String}
    (hnodup : (leadingColumns success ++ headers).Nodup)
    (htrimmed : ∀ name ∈ headers, trim name.toList = name.toList)
    {outcomes : List (RowResult × List String)} (hsuccess : ∀ o ∈ outcomes, o.1.isSuccess = success)
    (hwide : ∀ o ∈ outcomes, o.2.length = headers.length) :
    Csv.parse (resultsCsv (outcomes.map (asSent headers))).toList =
      resultTable success headers outcomes := by
  by_cases hne : outcomes = []
  · subst hne
    rfl
  -- all result rows have the same columns, so the table has them too and its rows are theirs
  have hrows : (outcomes.map (asSent headers)).map resultRow =
      outcomes.map fun o =>
        rowRecord (leadingColumns success ++ headers) (leadingCells o.1 ++ o.2) := by
    rw [List.map_map]
    refine List.map_congr_left fun o ho => ?_
    rw [← hsuccess o ho] at hnodup ⊢
    exact resultRow_eq hnodup (hwide o ho)
  have hlength : ∀ o ∈ outcomes,
      (leadingCells o.1 ++ o.2).length = (leadingColumns success ++ headers).length := by
    intro o ho
    simp [leadingCells, leadingColumns, hwide o ho]
  have hcolumns : columnsOf (outcomes.map fun o =>
      rowRecord (leadingColumns success ++ headers) (leadingCells o.1 ++ o.2)) =
        leadingColumns success ++ headers := by
    refine columnsOf_of_same (by simpa using hne) hnodup ?_
    intro row hrow
    rcases List.mem_map.mp hrow with ⟨o, ho, rfl⟩
    exact names_rowRecord hnodup (hlength o ho)
  have hcells : (outcomes.map fun o =>
      rowRecord (leadingColumns success ++ headers) (leadingCells o.1 ++ o.2)).map
        (recordCells (leadingColumns success ++ headers)) =
      outcomes.map fun o => leadingCells o.1 ++ o.2 := by
    rw [List.map_map]
    refine List.map_congr_left fun o ho => ?_
    exact recordCells_rowRecord hnodup (hlength o ho)
  have hregular : Table.Regular ⟨leadingColumns success ++ headers,
      outcomes.map fun o => leadingCells o.1 ++ o.2⟩ := by
    refine ⟨?_, ?_, ?_⟩
    · intro name hname
      rcases List.mem_append.mp hname with hlead | hheader
      · exact trimmed_leadingColumns success name hlead
      · exact htrimmed name hheader
    · intro row hrow
      rcases List.mem_map.mp hrow with ⟨o, ho, rfl⟩
      exact hlength o ho
    · intro row hrow
      rcases List.mem_map.mp hrow with ⟨o, ho, rfl⟩
      rcases leadingCells_filled o.1 with ⟨cell, hcell, hfilled⟩
      exact ⟨cell, List.mem_append_left _ hcell, hfilled⟩
  have hparse := hregular.parse_write (by simp [leadingColumns])
  simp only [resultsCsv, writeRecords, hrows, hcolumns, hcells, List.isEmpty_iff, resultTable, hne,
    List.map_eq_nil_iff, if_false, String.toList_ofList, hparse]

/-! ## Processed jobs -/

/-- What becomes of the rows of a table that a job processes, each with its row. -/
def outcomesOf (j : Job) (s : Schema) (st : RowState) (t : Table) :
    List (RowResult × List String) :=
  ((RowProcessor.mk s j.operation j.externalId).processAll st
    (t.records.map (typeRecord s))).1.zip t.rows

/-- There is a result for every row. -/
theorem length_processAll (p : RowProcessor) (st : RowState) (rows : List Record) :
    (p.processAll st rows).1.length = rows.length := by
  induction rows generalizing st with
  | nil => rfl
  | cons row rows ih => exact congrArg (· + 1) (ih _)

/-- The outcomes keep the rows of the table. -/
theorem rows_outcomesOf (j : Job) (s : Schema) (st : RowState) (t : Table) :
    (outcomesOf j s st t).map (·.2) = t.rows := by
  refine List.map_snd_zip ?_
  rw [length_processAll, records_eq]
  simp

/-- The rows are put back in the order in which they were processed. -/
theorem processRaw_records (j : Job) (s : Schema) (st : RowState) (t : Table) :
    ((RowProcessor.mk s j.operation j.externalId).processRaw st t.records).1 =
      (outcomesOf j s st t).map (asSent t.headers) := by
  simp only [RowProcessor.processRaw, outcomesOf, records_eq t, List.zipWith_map_right]
  rw [List.map_zip_eq_zipWith]
  rfl

/-- What a processed job says of the rows of a table. -/
structure Reported (t : Table) (outcomes : List (RowResult × List String)) (job : Job) :
    Prop where
  /-- Every row has an outcome, in the order of upload. -/
  rows : outcomes.map (·.2) = t.rows
  counted : job.processed + job.failed = t.rows.length
  failed : job.state = .failed ↔ (∀ o ∈ outcomes, o.1.isSuccess = false) ∧ outcomes ≠ []
  complete : job.state ≠ .failed → job.state = .jobComplete
  /-- The rows that succeeded, with their ids, as they were sent. -/
  successful : ∃ text, successfulResults job = .ok text ∧
    Csv.parse text.toList = resultTable true t.headers (outcomes.filter fun o => o.1.isSuccess)
  /-- The other rows, with their errors, as they were sent. -/
  unsuccessful : ∃ text, failedResults job = .ok text ∧
    Csv.parse text.toList = resultTable false t.headers (outcomes.filter fun o => !o.1.isSuccess)

/-- Headers that leave room for the columns of results. -/
theorem nodup_columns {headers : List String} (hnodup : headers.Nodup)
    (hfree : ∀ name ∈ ["sf__Id", "sf__Created", "sf__Error"], name ∉ headers) (success : Bool) :
    (leadingColumns success ++ headers).Nodup := by
  rw [List.nodup_append]
  refine ⟨by cases success <;> decide, hnodup, ?_⟩
  rintro name hname other hother rfl
  refine hfree name ?_ hother
  revert hname
  cases success <;> simp [leadingColumns] <;> tauto

/-- A finished job has failed if it has results and all of them are failures. -/
theorem state_finish_failed {j : Job} {now csv : String} {results : List RowResult} :
    (finish j now csv results).state = .failed ↔
      (∀ r ∈ results, r.isSuccess = false) ∧ results ≠ [] := by
  have hsplit : (finish j now csv results).state = .failed ↔
      results.filter RowResult.isSuccess = [] ∧ results.filter (fun r => !r.isSuccess) ≠ [] := by
    have hstate : (finish j now csv results).state =
        if (results.filter RowResult.isSuccess).isEmpty &&
            !(results.filter fun r => !r.isSuccess).isEmpty then .failed else .jobComplete := rfl
    rw [hstate]
    split_ifs with hfailed <;> simpa using hfailed
  have hnone : results.filter RowResult.isSuccess = [] ↔ ∀ r ∈ results, r.isSuccess = false := by
    simp [List.filter_eq_nil_iff]
  rw [hsplit, hnone]
  refine and_congr_right fun hall => ?_
  rw [List.filter_eq_self.mpr fun r hr => by simp [hall r hr]]

/-- A processed job gives out its two tables of results. -/
theorem results_finish (j : Job) (now csv : String) (results : List RowResult) :
    successfulResults (finish j now csv results) =
        .ok (resultsCsv (results.filter RowResult.isSuccess)) ∧
      failedResults (finish j now csv results) =
        .ok (resultsCsv (results.filter fun r => !r.isSuccess)) := by
  have hfinished : ensureFinished (finish j now csv results) = .ok () := by
    rcases state_finish j now csv results with hstate | hstate <;> simp [ensureFinished, hstate]
  rw [successfulResults, failedResults, hfinished]
  exact ⟨rfl, rfl⟩

/-- What a processed job gives out reports every row with the cells that were uploaded. -/
theorem reported_finish {t : Table}
    (hnodup : ∀ success, (leadingColumns success ++ t.headers).Nodup)
    (htrimmed : ∀ name ∈ t.headers, trim name.toList = name.toList)
    (hwide : ∀ row ∈ t.rows, row.length = t.headers.length)
    {outcomes : List (RowResult × List String)} (hrows : outcomes.map (·.2) = t.rows)
    (j : Job) (now csv : String) :
    Reported t outcomes (finish j now csv (outcomes.map (asSent t.headers))) := by
  have hfit : ∀ o ∈ outcomes, o.2.length = t.headers.length := by
    intro o ho
    exact hwide o.2 (hrows ▸ List.mem_map_of_mem ho)
  have hsuccessful : (outcomes.map (asSent t.headers)).filter RowResult.isSuccess =
      (outcomes.filter fun o => o.1.isSuccess).map (asSent t.headers) := List.filter_map
  have hfailed : (outcomes.map (asSent t.headers)).filter (fun r => !r.isSuccess) =
      (outcomes.filter fun o => !o.1.isSuccess).map (asSent t.headers) := List.filter_map
  have hresults := results_finish j now csv (outcomes.map (asSent t.headers))
  rw [hsuccessful, hfailed] at hresults
  refine ⟨hrows, ?_, ?_, ?_, ⟨_, hresults.1, ?_⟩, ⟨_, hresults.2, ?_⟩⟩
  · -- the rows are those that succeeded and the others
    rw [← hrows, List.length_map, List.length_eq_length_filter_add fun o => o.1.isSuccess]
    simp only [finish, hsuccessful, hfailed, List.length_map]
  · rw [state_finish_failed, List.forall_mem_map]
    exact and_congr_right fun _ => by simp
  · exact (state_finish j now csv _).resolve_right
  · refine parse_resultsCsv (hnodup true) htrimmed ?_ ?_
    · exact fun o ho => (List.mem_filter.mp ho).2
    · exact fun o ho => hfit o (List.mem_filter.mp ho).1
  · refine parse_resultsCsv (hnodup false) htrimmed ?_ ?_
    · exact fun o ho => by simpa using (List.mem_filter.mp ho).2
    · exact fun o ho => hfit o (List.mem_filter.mp ho).1

/-- Every row that was uploaded to a closed job is counted once and reported once, with the cells
that were sent, whatever the operation does to the records. -/
theorem process_reports_every_row {j : Job} {data : IngestData}
    (hclosed : j.state = .uploadComplete) (hdata : j.payload = .ingest data)
    (hnodup : (Csv.parse data.csv.toList).headers.Nodup)
    (hfree : ∀ name ∈ ["sf__Id", "sf__Created", "sf__Error"],
      name ∉ (Csv.parse data.csv.toList).headers) (s : Schema) (st : RowState) :
    Reported (Csv.parse data.csv.toList) (outcomesOf j s st (Csv.parse data.csv.toList))
      (process j s st).1 := by
  have hprocess : ∃ now, (process j s st).1 = finish j now data.csv
      ((outcomesOf j s st (Csv.parse data.csv.toList)).map
        (asSent (Csv.parse data.csv.toList).headers)) := by
    rw [← processRaw_records]
    simp only [process, hclosed, hdata]
    exact ⟨_, rfl⟩
  rcases hprocess with ⟨now, hfinish⟩
  rw [hfinish]
  exact reported_finish (nodup_columns hnodup hfree) (trimmed_parse _) (wide_parse _)
    (rows_outcomesOf j s st _) j now data.csv

/-- A row whose required cell is empty fails; the other one is typed to be stored, and reported with
its blank and zeros. -/
theorem mixed_rows_are_reported :
    ∃ j s st successful failed, j.state = .uploadComplete ∧
      j.payload = .ingest ⟨"N,I\n,x\n\"a,b\", 007", [], []⟩ ∧
      (Csv.parse "N,I\n,x\n\"a,b\", 007".toList).headers = ["N", "I"] ∧
      successfulResults (process j s st).1 = .ok successful ∧
      failedResults (process j s st).1 = .ok failed ∧
      Csv.parse successful.toList = ⟨["sf__Id", "sf__Created", "N", "I"],
        [["001AAAAAAAAAAAAAAA", "true", "a,b", " 007"]]⟩ ∧
      Csv.parse failed.toList = ⟨["sf__Id", "sf__Error", "N", "I"],
        [["", "REQUIRED_FIELD_MISSING:Required fields are missing: [N]", "", "x"]]⟩ := by
  let data : IngestData := ⟨"N,I\n,x\n\"a,b\", 007", [], []⟩
  let j : Job :=
    { (Job.create ⟨0, 0⟩ .insert "A" "59.0" (.ingest data)).1 with state := .uploadComplete }
  let s : Schema :=
    { name := "A", idPrefix := "001",
      fields := [("N", { required := true }), ("I", { type := .int })] }
  let st : RowState := ⟨.empty, ⟨0, 0⟩⟩
  have h := @process_reports_every_row j data rfl rfl (by decide) (by decide) s st
  rcases h.successful with ⟨successful, hsuccessful, htable⟩
  rcases h.unsuccessful with ⟨failed, hfailed, htable'⟩
  refine ⟨j, s, st, successful, failed, rfl, rfl, by decide, hsuccessful, hfailed, ?_, ?_⟩
  · rw [htable]
    decide
  · rw [htable']
    decide

end Ingest

end CrmEmulator
