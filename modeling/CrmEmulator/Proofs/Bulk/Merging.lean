import CrmEmulator.Proofs.Bulk.IngestLife
import CrmEmulator.Proofs.Csv.Lines

/-!
# CrmEmulator.Proofs.Bulk.Merging — the parts of an upload make one table

Parts are merged as texts: the first lines are compared, and what is after the first line is added
on a line of its own.  What a part means is a matter of the reader of tables.

1. `Mergeable`: the parts for which the first line of the text is the first row of the table.
2. `Merged`: what holds of the text that parts were merged into, kept by every upload.
3. The table of that text has the header of the first part, and the rows of all parts in order.
-/

namespace CrmEmulator

namespace Ingest

open Csv Csv.Reader

/-! ## Parts -/

/-- A part that ends between rows, and has a header that is one line. -/
structure Mergeable (part : List Char) : Prop where
  filled : part.all isBlank = false
  paired : ReturnsPaired part
  closed : (read part).mode ≠ .quoted
  plainHeader : '"' ∉ firstLine part

/-- What a part has to be, in the terms of the reader of tables. -/
theorem mergeable_iff {part : List Char} :
    Mergeable part ↔ part.all isBlank = false ∧ ReturnsPaired part ∧ (read part).mode ≠ .quoted ∧
      '"' ∉ firstLine part :=
  ⟨fun ⟨hfilled, hpaired, hclosed, hheader⟩ => ⟨hfilled, hpaired, hclosed, hheader⟩,
    fun ⟨hfilled, hpaired, hclosed, hheader⟩ => ⟨hfilled, hpaired, hclosed, hheader⟩⟩

instance (part : List Char) : Decidable (Mergeable part) := decidable_of_iff' _ mergeable_iff

/-- A mergeable part is read to its end outside of quotes. -/
theorem Mergeable.whole {part : List Char} (h : Mergeable part) : Whole part := by
  have hfilled : part ≠ [] := by
    rintro rfl
    exact absurd h.filled (by decide)
  refine ⟨hfilled, h.closed, ?_⟩
  intro hlast
  rcases List.getLast?_eq_some_iff.mp hlast with ⟨before, rfl⟩
  have hbefore : (read before).mode ≠ .quoted := by
    intro hquoted
    apply h.closed
    simp [read_concat, step, hquoted]
  have hnone := h.paired before [] rfl hbefore
  simp at hnone

/-- A text has one line only, or is its first line and the text after it. -/
theorem split_firstLine (cs : List Char) :
    (firstLine cs = cs ∧ afterFirstLine cs = []) ∨
      cs = firstLine cs ++ '\n' :: afterFirstLine cs := by
  induction cs with
  | nil => exact .inl ⟨rfl, rfl⟩
  | cons c cs ih =>
    by_cases hc : c = '\n'
    · exact .inr (by simp [firstLine, afterFirstLine, hc])
    · simpa [firstLine, afterFirstLine, hc] using ih

/-- What a part holds after its first row. -/
structure Headed (part rest : List Char) : Prop where
  whole : rest = [] ∨ Whole rest
  rows : ∃ header, parseRows part = header :: parseRows rest ∧
    header.length = (headerLine part).count ',' + 1

/-- A part of one line is its header; the line feed that is missing would end this row. -/
theorem Mergeable.headed_line {part : List Char} (h : Mergeable part)
    (hline : firstLine part = part) : Headed part [] := by
  have hfeed := feed_not_mem_firstLine part
  have hquote : '"' ∉ firstLine part := h.plainHeader
  have hpaired : ReturnsPaired (part ++ []) := by simpa using h.paired
  rw [hline] at hfeed hquote
  rcases hpaired.read_line hquote hfeed with ⟨row, hread, hlength⟩
  have hend : endLine part = part ++ ['\n'] :=
    if_neg fun hlast => hfeed (List.mem_of_getLast? hlast)
  have hwhole := h.whole.read_endLine
  rw [hend, hread] at hwhole
  have hrow : [row] = parseRows part := congrArg Reader.rows hwhole
  refine ⟨.inl rfl, row, hrow.symm, ?_⟩
  rw [hlength, headerLine_eq, hline, count_trim (by decide)]

/-- After the first line of a mergeable part its other lines are read on their own. -/
theorem Mergeable.headed_lines {part rest : List Char} (h : Mergeable part)
    (hsplit : part = firstLine part ++ '\n' :: rest) : Headed part rest := by
  have hpaired : ReturnsPaired (firstLine part ++ '\n' :: rest) := hsplit ▸ h.paired
  rcases hpaired.read_line h.plainHeader (feed_not_mem_firstLine part) with ⟨row, hread, hlength⟩
  have hafter : read part = (read rest).addRows [row] := by
    have hcut : part = (firstLine part ++ ['\n']) ++ rest := by simpa using hsplit
    have hstart : atRow [row] = (atRow []).addRows [row] := rfl
    rw [hcut, Reader.read, readFrom_append, ← Reader.read, hread, hstart, readFrom_addRows]
    rfl
  refine ⟨?_, row, ?_, ?_⟩
  · by_cases hrest : rest = []
    · exact .inl hrest
    refine .inr ⟨hrest, ?_, ?_⟩
    · have hclosed := h.closed
      rwa [hafter] at hclosed
    · have hlast := h.whole.unbroken
      rwa [hsplit, List.getLast?_append_of_ne_nil _ (List.cons_ne_nil _ _),
        List.getLast?_cons_of_ne_nil hrest] at hlast
  · rw [← finish_read, hafter, ← finish_read rest]
    rfl
  · rw [hlength, headerLine_eq, count_trim (by decide)]

/-- The first row of a part is its first line; the other rows are those of the text after it. -/
theorem Mergeable.headed {part : List Char} (h : Mergeable part) :
    Headed part (afterFirstLine part) := by
  rcases split_firstLine part with ⟨hline, hrest⟩ | hsplit
  · rw [hrest]
    exact h.headed_line hline
  · exact h.headed_lines hsplit

/-! ## Tables -/

/-- The rows of a table among the rows of a text. -/
def tableRows (width : Nat) (rows : List (List String)) : List (List String) :=
  (rows.filter fun row => row.any fun cell => !cell.isEmpty).map (fitRow width)

theorem tableRows_append (width : Nat) (rows more : List (List String)) :
    tableRows width (rows ++ more) = tableRows width rows ++ tableRows width more := by
  simp [tableRows]

/-- A table is its first line, trimmed, and the rows of the others. -/
theorem parse_of_rows {cs : List Char} {header : List String} {rows : List (List String)}
    (h : parseRows cs = header :: rows) :
    Csv.parse cs = ⟨header.map fun cell => String.ofList (trim cell.toList),
      tableRows header.length rows⟩ := by
  simp [Csv.parse, h, tableRows]

/-! ## Merging -/

/-- A part with the header line of the buffer loses it before it is appended. -/
theorem mergeUpload_of_same {buffered part : List Char} (hfilled : buffered ≠ [])
    (hline : headerLine part = headerLine buffered) :
    mergeUpload buffered part =
      if afterFirstLine part = [] then buffered else endLine buffered ++ afterFirstLine part := by
  simp only [mergeUpload, endLine, hline, if_true, List.isEmpty_iff, hfilled, if_false]
  split_ifs <;> simp

/-- What holds of the text that a first part and others were merged into. -/
structure Merged (first : List Char) (others : List (List Char)) (text : List Char) : Prop where
  whole : Whole text
  line : headerLine text = headerLine first
  rows : parseRows text =
    parseRows first ++ others.flatMap fun part => parseRows (afterFirstLine part)

theorem Mergeable.merged {first : List Char} (h : Mergeable first) : Merged first [] first :=
  ⟨h.whole, rfl, by simp⟩

/-- Uploading one more part with the same header line keeps the buffer merged. -/
theorem Merged.upload {first text part : List Char} {others : List (List Char)}
    (h : Merged first others text) (hpart : Mergeable part)
    (hline : headerLine part = headerLine first) :
    Merged first (others ++ [part]) (mergeUpload text part) := by
  rw [mergeUpload_of_same h.whole.filled (hline.trans h.line.symm)]
  split
  · next hrest =>
    -- a part that is a header only adds nothing
    refine ⟨h.whole, h.line, ?_⟩
    rw [h.rows, List.flatMap_append, List.flatMap_singleton, hrest]
    simp [parseRows, rowsFrom, Cursor.start]
  · next hrest =>
    have hwhole : Whole (afterFirstLine part) := hpart.headed.whole.resolve_left hrest
    refine ⟨h.whole.endLine_append hwhole, ?_, ?_⟩
    · rw [headerLine_eq, firstLine_endLine_append, ← headerLine_eq, h.line]
    · rw [h.whole.parseRows_endLine_append, h.rows, List.flatMap_append, List.flatMap_singleton,
        List.append_assoc]

/-- Uploading any number of such parts keeps the buffer merged. -/
theorem Merged.uploads {first text : List Char} {others : List (List Char)}
    (h : Merged first others text) {parts : List (List Char)}
    (hparts : ∀ part ∈ parts, Mergeable part ∧ headerLine part = headerLine first) :
    Merged first (others ++ parts) (parts.foldl mergeUpload text) := by
  induction parts generalizing others text with
  | nil => simpa using h
  | cons part parts ih =>
    rw [List.forall_mem_cons] at hparts
    rcases hparts with ⟨⟨hpart, hline⟩, hparts⟩
    have hnext := ih (h.upload hpart hline) hparts
    rwa [List.append_assoc, List.singleton_append] at hnext

/-- The table of the merged text: one header, and the rows of every part on its own. -/
theorem Merged.parse {first text : List Char} {others : List (List Char)}
    (h : Merged first others text)
    (hparts : ∀ part ∈ first :: others, Mergeable part ∧ headerLine part = headerLine first) :
    Csv.parse text =
      ⟨(Csv.parse first).headers, (first :: others).flatMap fun part => (Csv.parse part).rows⟩ := by
  let width := (headerLine first).count ',' + 1
  -- all headers are equally wide, since their lines have the same commas
  have hpart : ∀ part ∈ first :: others,
      (Csv.parse part).rows = tableRows width (parseRows (afterFirstLine part)) := by
    intro part hmem
    rcases hparts part hmem with ⟨hclean, hline⟩
    rcases hclean.headed.rows with ⟨header, hrows, hlength⟩
    rw [parse_of_rows hrows, hlength, hline]
  have hothers : others.flatMap (fun part => (Csv.parse part).rows) =
      tableRows width (others.flatMap fun part => parseRows (afterFirstLine part)) := by
    rw [List.flatMap_congr fun part hmem => hpart part (List.mem_cons_of_mem first hmem)]
    clear h hparts hpart
    induction others with
    | nil => rfl
    | cons part others ih => simp only [List.flatMap_cons, tableRows_append, ih]
  rcases hparts first (List.mem_cons_self) with ⟨hclean, -⟩
  rcases hclean.headed.rows with ⟨header, hrows, hlength⟩
  have htext : parseRows text = header :: (parseRows (afterFirstLine first) ++
      others.flatMap fun part => parseRows (afterFirstLine part)) := by
    rw [h.rows, hrows, List.cons_append]
  rw [parse_of_rows htext, parse_of_rows hrows, List.flatMap_cons, hothers,
    hpart first (List.mem_cons_self), hlength, tableRows_append]

/-! ## Uploads -/

/-- Upload parts one after the other, each at its time. -/
def uploadAll (j : Job) (parts : List (String × String)) : Except Failure Job :=
  parts.foldlM (fun j part => upload j part.1 part.2) j

/-- An open job takes every part that is not blank. -/
theorem upload_of_open {j : Job} {data : IngestData} (hopen : j.state = .open)
    (hdata : j.payload = .ingest data) (now : String) {body : String}
    (hbody : body.toList.all isBlank = false) :
    upload j now body = .ok { j with
      payload := .ingest
        { data with csv := String.ofList (mergeUpload data.csv.toList body.toList) }
      modifiedDate := now } := by
  simp [upload, hopen, hbody, ingestData_ok.mpr hdata, bind, Except.bind, pure, Except.pure]

/-- An open job accepts parts that are not blank, and stays open. -/
theorem uploadAll_ok {j : Job} {data : IngestData} (hopen : j.state = .open)
    (hdata : j.payload = .ingest data) {parts : List (String × String)}
    (hparts : ∀ part ∈ parts, part.2.toList.all isBlank = false) :
    ∃ job, uploadAll j parts = .ok job ∧ job.state = .open ∧ job.payload = .ingest
      { data with csv :=
          String.ofList ((parts.map fun part => part.2.toList).foldl mergeUpload data.csv.toList) }
      := by
  induction parts generalizing j data with
  | nil => exact ⟨j, rfl, hopen, by simpa using hdata⟩
  | cons part parts ih =>
    rw [List.forall_mem_cons] at hparts
    have hstep := upload_of_open hopen hdata part.1 hparts.1
    rcases ih (j := { j with
        payload := .ingest
          { data with csv := String.ofList (mergeUpload data.csv.toList part.2.toList) }
        modifiedDate := part.1 }) hopen rfl hparts.2 with ⟨job, hrun, hstate, hpayload⟩
    refine ⟨job, ?_, hstate, by simpa using hpayload⟩
    rw [uploadAll, List.foldlM_cons, hstep]
    exact hrun

/-- Parts that are uploaded one after the other to an open job make one table: the header of the
first part, and the rows that each part has on its own, in order. -/
theorem uploads_make_one_table {j : Job} {data : IngestData} (hopen : j.state = .open)
    (hdata : j.payload = .ingest data) (hnew : data.csv = "") {first : String × String}
    {others : List (String × String)}
    (hclean : ∀ part ∈ first :: others, Mergeable part.2.toList)
    (hline : ∀ part ∈ others, headerLine part.2.toList = headerLine first.2.toList) :
    ∃ job merged, uploadAll j (first :: others) = .ok job ∧ job.ingestData = .ok merged ∧
      Csv.parse merged.csv.toList =
        ⟨(Csv.parse first.2.toList).headers,
          (first :: others).flatMap fun part => (Csv.parse part.2.toList).rows⟩ := by
  rcases uploadAll_ok hopen hdata fun part hmem => (hclean part hmem).filled with
    ⟨job, hrun, -, hpayload⟩
  refine ⟨job, _, hrun, ingestData_ok.mpr hpayload, ?_⟩
  have hparts : ∀ part ∈ (first :: others).map fun part => part.2.toList,
      Mergeable part ∧ headerLine part = headerLine first.2.toList := by
    intro text hmem
    rcases List.mem_map.mp hmem with ⟨part, hpart, rfl⟩
    refine ⟨hclean part hpart, ?_⟩
    rcases List.mem_cons.mp hpart with rfl | hother
    · rfl
    · exact hline part hother
  have hfirst := (hclean first (List.mem_cons_self)).merged
  have hmerged := hfirst.uploads (List.forall_mem_cons.mp hparts).2
  have htable := hmerged.parse hparts
  simpa [hnew, mergeUpload, List.flatMap_map] using htable

/-- A row that is open at the end and has a line break in it, a header alone, and a part with other
line ends. -/
theorem uneven_parts_make_one_table :
    (∀ part ∈ [("t", "N,M\n1,\"a\n\""), ("u", "N,M"), ("v", " N,M\r\n2\r\n,\r\n3,\r\n")],
      Mergeable part.2.toList ∧ headerLine part.2.toList = "N,M".toList) ∧
    ∃ job merged,
      uploadAll (Job.create ⟨0, 0⟩ .insert "A" "59.0" (.ingest ⟨"", [], []⟩)).1
        [("t", "N,M\n1,\"a\n\""), ("u", "N,M"), ("v", " N,M\r\n2\r\n,\r\n3,\r\n")] =
          .ok job ∧
      job.ingestData = .ok merged ∧
      Csv.parse merged.csv.toList = ⟨["N", "M"], [["1", "a\n"], ["2", ""], ["3", ""]]⟩ := by
  have hparts : ∀ part ∈
      [("t", "N,M\n1,\"a\n\""), ("u", "N,M"), ("v", " N,M\r\n2\r\n,\r\n3,\r\n")],
      Mergeable part.2.toList ∧ headerLine part.2.toList = "N,M".toList := by decide
  refine ⟨hparts, ?_⟩
  exact uploads_make_one_table rfl rfl rfl (fun part hpart => (hparts part hpart).1)
    fun part hpart => (hparts part (List.mem_cons_of_mem _ hpart)).2

end Ingest

end CrmEmulator
