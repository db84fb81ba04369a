import CrmEmulator.Proofs.Csv.Reading

/-!
# CrmEmulator.Proofs.Csv.RoundTrip — written tables are read back

1. A cell, written with quotes or without, puts the reader behind the cell; the comma or the line
   feed after it takes the cell in, whatever it is made of.
2. A written row ends where the next one begins, and so the reader finds all rows of a table.
3. As a table, a written one comes back if it is one that a text can hold: trimmed headers, rows
   of their width, and no row that is empty throughout.
-/

namespace CrmEmulator

namespace Csv

namespace Reader

/-! ## Cells -/

/-- A character that needs no quotes. -/
def IsBare (c : Char) : Prop := c ≠ ',' ∧ c ≠ '"' ∧ c ≠ '\n' ∧ c ≠ '\r'

/-- The characters of a cell that needs no quotes are bare. -/
theorem isBare_of_not_needsQuotes {cs : List Char} (h : needsQuotes cs = false) :
    ∀ c ∈ cs, IsBare c := by
  intro c hc
  have hnot := List.any_eq_false.mp h c hc
  simpa [IsBare, and_assoc] using hnot

/-- Bare characters are collected in the cell. -/
theorem readFrom_bare {cs : List Char} (h : ∀ c ∈ cs, IsBare c) (rows : List (List String))
    (k : Cursor) :
    (Reader.mk rows k .plain).readFrom cs =
      ⟨rows, ⟨k.row, cs.reverse ++ k.cell, k.begun || !cs.isEmpty⟩, .plain⟩ := by
  induction cs generalizing k with
  | nil => simp
  | cons c cs ih =>
    rw [List.forall_mem_cons] at h
    rcases h with ⟨⟨hcomma, hquote, hfeed, hreturn⟩, hcs⟩
    simp [step, stepPlain, hcomma, hquote, hfeed, hreturn, ih hcs, Cursor.put]

/-- Between quotes only a quote is written in another way. -/
theorem readFrom_doubled (cs : List Char) (rows : List (List String)) (k : Cursor)
    (hbegun : k.begun = true) :
    (Reader.mk rows k .quoted).readFrom (cs.flatMap fun c => if c = '"' then ['"', '"'] else [c]) =
      ⟨rows, ⟨k.row, cs.reverse ++ k.cell, true⟩, .quoted⟩ := by
  induction cs generalizing k with
  | nil =>
    rcases k with ⟨row, cell, begun⟩
    subst hbegun
    rfl
  | cons c cs ih =>
    by_cases hc : c = '"'
    · -- of the two quotes that are written the first is remembered and the second taken in
      subst hc
      simpa [step, Cursor.put] using ih (k.put '"') rfl
    · simpa [step, hc, Cursor.put] using ih (k.put c) rfl

/-- The reader behind a written cell: outside quotes, or after those that close the cell. -/
theorem readFrom_encodeCell (rows : List (List String)) (row : List String) (begun : Bool)
    (cell : String) :
    ∃ begun' mode, (mode = .plain ∨ mode = .quoteSeen) ∧
      (Reader.mk rows ⟨row, [], begun⟩ .plain).readFrom (encodeCell cell) =
        ⟨rows, ⟨row, cell.toList.reverse, begun'⟩, mode⟩ := by
  unfold encodeCell
  cases hquotes : needsQuotes cell.toList with
  | false =>
    refine ⟨begun || !cell.toList.isEmpty, .plain, .inl rfl, ?_⟩
    simpa [hquotes] using
      readFrom_bare (isBare_of_not_needsQuotes hquotes) rows ⟨row, [], begun⟩
  | true =>
    refine ⟨true, .quoteSeen, .inr rfl, ?_⟩
    have hinner := readFrom_doubled cell.toList rows ⟨row, [], true⟩ rfl
    simp [hquotes, readFrom_append, step, stepPlain, hinner]

/-- A comma after a written cell takes the cell in. -/
theorem readFrom_encodeCell_comma (rows : List (List String)) (row : List String) (begun : Bool)
    (cell : String) :
    (Reader.mk rows ⟨row, [], begun⟩ .plain).readFrom (encodeCell cell ++ [',']) =
      ⟨rows, ⟨cell :: row, [], true⟩, .plain⟩ := by
  rcases readFrom_encodeCell rows row begun cell with ⟨begun', mode, hmode, hcell⟩
  rw [readFrom_append, hcell]
  rcases hmode with rfl | rfl <;> simp [step, stepPlain, Cursor.nextCell]

/-- A line feed after a written cell ends the row. -/
theorem readFrom_encodeCell_feed (rows : List (List String)) (row : List String) (begun : Bool)
    (cell : String) :
    (Reader.mk rows ⟨row, [], begun⟩ .plain).readFrom (encodeCell cell ++ ['\n']) =
      atRow (rows ++ [row.reverse ++ [cell]]) := by
  rcases readFrom_encodeCell rows row begun cell with ⟨begun', mode, hmode, hcell⟩
  rw [readFrom_append, hcell]
  rcases hmode with rfl | rfl <;> simp [step, stepPlain, endRow, atRow, Cursor.cells]

/-! ## Rows -/

/-- A written row is read to its end: its cells join those that were there. -/
theorem readFrom_cells (rows : List (List String)) (row : List String) (begun : Bool)
    {cells : List String} (h : cells ≠ []) :
    (Reader.mk rows ⟨row, [], begun⟩ .plain).readFrom (encodeRow cells) =
      atRow (rows ++ [row.reverse ++ cells]) := by
  induction cells generalizing row begun with
  | nil => exact absurd rfl h
  | cons cell cells ih =>
    cases cells with
    | nil => exact readFrom_encodeCell_feed rows row begun cell
    | cons next cells =>
      -- a comma ends all cells but the last one
      have hsplit : encodeRow (cell :: next :: cells) =
          (encodeCell cell ++ [',']) ++ encodeRow (next :: cells) := by
        simp [encodeRow, joinWith]
      rw [hsplit, readFrom_append, readFrom_encodeCell_comma, ih _ _ (List.cons_ne_nil _ _)]
      simp

/-- A row that is written below others is read as one more. -/
theorem readFrom_encodeRow (rows : List (List String)) {cells : List String} (h : cells ≠ []) :
    (atRow rows).readFrom (encodeRow cells) = atRow (rows ++ [cells]) :=
  readFrom_cells rows [] false h

/-- Rows that are written one below the other are read one after the other. -/
theorem readFrom_encodeRows (rows : List (List String)) {more : List (List String)}
    (h : ∀ cells ∈ more, cells ≠ []) :
    (atRow rows).readFrom (more.flatMap encodeRow) = atRow (rows ++ more) := by
  induction more generalizing rows with
  | nil => simp
  | cons cells more ih =>
    rw [List.forall_mem_cons] at h
    rw [List.flatMap_cons, readFrom_append, readFrom_encodeRow rows h.1, ih _ h.2]
    simp

end Reader

/-! ## Tables -/

open Reader in
/-- Rows of at least one cell are read back, whatever their cells hold. -/
theorem parseRows_write {headers : List String} {rows : List (List String)}
    (hheaders : headers ≠ []) (hrows : ∀ row ∈ rows, row ≠ []) :
    parseRows (write headers rows) = headers :: rows := by
  have hall : ∀ row ∈ headers :: rows, row ≠ [] := List.forall_mem_cons.mpr ⟨hheaders, hrows⟩
  have hwrite : write headers rows = (headers :: rows).flatMap encodeRow := rfl
  rw [← finish_read, hwrite, Reader.read, readFrom_encodeRows [] hall]
  simp [atRow, finish, rowsFrom, Cursor.start]

/-- A table that a text can hold. -/
structure Table.Regular (t : Table) : Prop where
  trimmed : ∀ name ∈ t.headers, trim name.toList = name.toList
  wide : ∀ row ∈ t.rows, row.length = t.headers.length
  filled : ∀ row ∈ t.rows, ∃ cell ∈ row, cell ≠ ""

theorem fitRow_of_length {width : Nat} {row : List String} (h : row.length = width) :
    fitRow width row = row := by
  subst h
  simp [fitRow]

/-- A regular table is read back from its text. -/
theorem Table.Regular.parse_write {t : Table} (h : t.Regular) (hheaders : t.headers ≠ []) :
    parse (write t.headers t.rows) = t := by
  rcases t with ⟨headers, rows⟩
  have hwidth : headers.length ≠ 0 := by simpa using hheaders
  have hrows : ∀ row ∈ rows, row ≠ [] := by
    rintro row hrow rfl
    exact hwidth (h.wide [] hrow).symm
  have htrim : headers.map (fun cell => String.ofList (trim cell.toList)) = headers := by
    refine (List.map_congr_left fun name hname => ?_).trans (List.map_id headers)
    rw [h.trimmed name hname, String.ofList_toList, id]
  have hfilter : rows.filter (fun row => row.any fun cell => !cell.isEmpty) = rows :=
    List.filter_eq_self.mpr fun row hrow => by simpa using h.filled row hrow
  have hfit : rows.map (fitRow headers.length) = rows :=
    (List.map_congr_left fun row hrow => fitRow_of_length (h.wide row hrow)).trans
      (List.map_id rows)
  simp only [parse, parseRows_write hheaders hrows, htrim, hfilter, hfit]

/-- What is written is read back, row by row and cell by cell; and as a table, if it is one that a
text can hold. -/
theorem written_reads_back {headers : List String} {rows : List (List String)}
    (hheaders : headers ≠ []) (hrows : ∀ row ∈ rows, row ≠ []) :
    parseRows (write headers rows) = headers :: rows ∧
      ((∀ name ∈ headers, trim name.toList = name.toList) →
        (∀ row ∈ rows, row.length = headers.length) → (∀ row ∈ rows, ∃ cell ∈ row, cell ≠ "") →
          parse (write headers rows) = ⟨headers, rows⟩) := by
  refine ⟨parseRows_write hheaders hrows, ?_⟩
  intro htrimmed hwide hfilled
  have hregular : Table.Regular ⟨headers, rows⟩ := ⟨htrimmed, hwide, hfilled⟩
  exact hregular.parse_write hheaders

/-- Cells that hold all that ends a cell or a row: quotes, commas, line breaks, or nothing. -/
theorem awkward_cells_read_back :
    (∀ row ∈ [["\"", "a\r"], [",\r\n", ""]], row.length = 2 ∧ ∃ cell ∈ row, cell ≠ "") ∧
      parseRows (write ["x", "\"y\", z"] [["\"", "a\r"], [",\r\n", ""]]) =
        [["x", "\"y\", z"], ["\"", "a\r"], [",\r\n", ""]] ∧
      parse (write ["x", "\"y\", z"] [["\"", "a\r"], [",\r\n", ""]]) =
        ⟨["x", "\"y\", z"], [["\"", "a\r"], [",\r\n", ""]]⟩ := by
  have h := @written_reads_back ["x", "\"y\", z"] [["\"", "a\r"], [",\r\n", ""]] (by decide)
    (by decide)
  exact ⟨by decide, h.1, h.2 (by decide) (by decide) (by decide)⟩

end Csv

end CrmEmulator
