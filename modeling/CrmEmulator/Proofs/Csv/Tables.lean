import CrmEmulator.Proofs.Csv.RoundTrip
import CrmEmulator.Proofs.Record
import CrmEmulator.Proofs.Text.Trimming

/-!
# CrmEmulator.Proofs.Csv.Tables — rows of a table as records

1. A table that is read has trimmed headers and rows of their width.
2. Of a table that is written, all rows are read but those that are empty throughout, and the line
   of a record has its values under their names.
3. `rowRecord`: the record of a row holds the cells of the row under the headers, in order, if these
   are distinct.
-/

namespace CrmEmulator

namespace Csv

/-! ## Tables that are read -/

@[simp] theorem length_fitRow (width : Nat) (row : List String) :
    (fitRow width row).length = width := by
  simp only [fitRow, List.length_append, List.length_take, List.length_replicate]
  omega

/-- All rows of a table that is read are as wide as its headers. -/
theorem wide_parse (text : List Char) :
    ∀ row ∈ (parse text).rows, row.length = (parse text).headers.length := by
  unfold parse
  split
  · nofun
  · intro row hrow
    rcases List.mem_map.mp hrow with ⟨cells, -, rfl⟩
    exact length_fitRow _ _

/-- The headers of a table that is read have no white space around them. -/
theorem trimmed_parse (text : List Char) :
    ∀ name ∈ (parse text).headers, trim name.toList = name.toList := by
  unfold parse
  split
  · nofun
  · intro name hname
    rcases List.mem_map.mp hname with ⟨cell, -, rfl⟩
    rw [String.toList_ofList, trim_trim]

/-! ## Tables that are written -/

/-- Does a row have a cell that is not empty? -/
def isFilled (row : List String) : Bool := row.any fun cell => !cell.isEmpty

/-- A row without cells is written as one with an empty cell. -/
theorem encodeRow_nil : encodeRow [] = encodeRow [""] := rfl

/-- The rows that are read from a table of rows as wide as its header. -/
theorem rows_parse_write {headers : List String} {rows : List (List String)}
    (h : ∀ row ∈ rows, row.length = headers.length) :
    (parse (write headers rows)).rows = rows.filter isFilled := by
  by_cases hheaders : headers = []
  · -- no row has a cell, and all that is read is empty
    subst hheaders
    have hempty : ∀ row ∈ rows, row = [] := fun row hrow => List.length_eq_zero_iff.mp (h row hrow)
    have hwrite : write [] rows = write [""] (rows.map fun _ => [""]) := by
      have hrows : rows.flatMap encodeRow = rows.flatMap fun _ => encodeRow [""] :=
        List.flatMap_congr fun row hrow => by rw [hempty row hrow, encodeRow_nil]
      rw [write, write, hrows, List.flatMap_map, encodeRow_nil]
    have hread : parseRows (write [] rows) = [""] :: rows.map fun _ => [""] := by
      rw [hwrite]
      exact parseRows_write (by decide) (by simp)
    have hnone : rows.filter isFilled = [] := by
      refine List.filter_eq_nil_iff.mpr fun row hrow => ?_
      rw [hempty row hrow]
      decide
    rw [hnone]
    simp [parse, hread]
  · have hrows : ∀ row ∈ rows, row ≠ [] := by
      rintro row hrow rfl
      exact hheaders (List.length_eq_zero_iff.mp (h [] hrow).symm)
    have hfit : (rows.filter isFilled).map (fitRow headers.length) = rows.filter isFilled := by
      refine (List.map_congr_left fun row hrow => ?_).trans (List.map_id _)
      exact fitRow_of_length (h row (List.mem_filter.mp hrow).1)
    have hparse : (parse (write headers rows)).rows =
        (rows.filter isFilled).map (fitRow headers.length) := by
      simp only [parse, parseRows_write hheaders hrows, List.length_map]
      rfl
    rw [hparse, hfit]

/-- On a line of a text, a cell stands in every column with a name, and there is such a column. -/
def StandsUnder (text : String) (line : Nat) (name cell : String) : Prop :=
  ∃ header row, (parseRows text.toList)[0]? = some header ∧
    (parseRows text.toList)[line]? = some row ∧ name ∈ header ∧
      ∀ k : Nat, header[k]? = some name → row[k]? = some cell

/-- The line of a record has the values of the record, under the columns of the table. -/
theorem standsUnder_writeRecords {headers : List String} (hheaders : headers ≠ [])
    {records : List Record} {i : Nat} {record : Record} (h : records[i]? = some record)
    (name cell : String) :
    StandsUnder (writeRecords headers records) (i + 1) name cell ↔
      name ∈ headers ∧ (record.getOrNull name).cellText = cell := by
  have hrows : ∀ row ∈ records.map (recordCells headers), row ≠ [] := by
    intro row hrow
    rcases List.mem_map.mp hrow with ⟨r, -, rfl⟩
    simpa [recordCells] using hheaders
  -- the rows of the text are the headers and one row for each record
  have hlines : parseRows (writeRecords headers records).toList =
      headers :: records.map (recordCells headers) := by
    rw [writeRecords, String.toList_ofList]
    exact parseRows_write hheaders hrows
  have hrow : (headers :: records.map (recordCells headers))[i + 1]? =
      some (recordCells headers record) := by
    rw [List.getElem?_cons_succ, List.getElem?_map, h]
    rfl
  have hcell (k : Nat) (hk : headers[k]? = some name) :
      (recordCells headers record)[k]? = some (record.getOrNull name).cellText := by
    rw [recordCells, List.getElem?_map, hk]
    rfl
  unfold StandsUnder
  rw [hlines, hrow]
  constructor
  · rintro ⟨header, row, ⟨⟩, ⟨⟩, hname, hcells⟩
    rcases List.mem_iff_getElem?.mp hname with ⟨k, hk⟩
    exact ⟨hname, Option.some.inj ((hcell k hk).symm.trans (hcells k hk))⟩
  · rintro ⟨hname, rfl⟩
    exact ⟨headers, _, rfl, rfl, hname, hcell⟩

/-! ## Rows as records -/

/-- A row under its headers. -/
def rowRecord (headers row : List String) : Record := .ofFields (headers.zip (row.map .text))

theorem records_eq (t : Table) : t.records = t.rows.map (rowRecord t.headers) := rfl

section

variable {headers row : List String}

theorem map_fst_zip_of_length (h : row.length = headers.length) :
    (headers.zip (row.map Value.text)).map (·.1) = headers :=
  List.map_fst_zip (by simp [h])

theorem fields_rowRecord (hnodup : headers.Nodup) (h : row.length = headers.length) :
    (rowRecord headers row).fields = headers.zip (row.map Value.text) := by
  refine Record.fields_ofFields_of_nodup ?_
  rwa [map_fst_zip_of_length h]

theorem names_rowRecord (hnodup : headers.Nodup) (h : row.length = headers.length) :
    (rowRecord headers row).names = headers := by
  rw [Record.names, fields_rowRecord hnodup h, map_fst_zip_of_length h]

/-- The cells of a row are read off its record. -/
theorem recordCells_rowRecord (hnodup : headers.Nodup) (h : row.length = headers.length) :
    recordCells headers (rowRecord headers row) = row := by
  have hnames := names_rowRecord hnodup h
  have hvalues : headers.map (rowRecord headers row).get? =
      (headers.zip (row.map Value.text)).map fun field => some field.2 := by
    rw [← fields_rowRecord hnodup h]
    have hlookup := Record.map_lookup_of_nodup (hnames.symm ▸ hnodup)
    rwa [← Record.names, hnames] at hlookup
  have hrow : (headers.zip (row.map Value.text)).map (·.2) = row.map Value.text :=
    List.map_snd_zip (by simp [h])
  calc recordCells headers (rowRecord headers row)
      = (headers.map (rowRecord headers row).get?).map fun v => (v.getD .null).cellText := by
        simp [recordCells, Record.getOrNull]
    _ = ((headers.zip (row.map Value.text)).map (·.2)).map Value.cellText := by
        simp [hvalues]
    _ = row := by
        rw [hrow]
        simp [Function.comp_def, Value.cellText, Value.coerceText]

end

end Csv

end CrmEmulator
