import CrmEmulator.Org.BulkJobs
import CrmEmulator.Proofs.Csv.Tables
import CrmEmulator.Proofs.Outcome
import CrmEmulator.Proofs.Query.Paging

/-!
# CrmEmulator.Proofs.Bulk.QueryResults — what the table of a query job shows

1. `Completed`: a job that is complete has run a query that shows fields, and has written the
   records found under its columns.
2. The rows that are read from the table are those of the records, but for rows that are empty
   throughout, which are not read.
3. A star stands for the fields of the first record: of these, no record loses any that it has, and
   other fields are shown by the answer to the query alone.
-/

namespace CrmEmulator

/-! ## Documents of records -/

/-- Setting a member changes what is found under its key and nothing else. -/
theorem Json.lookup_setMember (name key : String) (value : Json) (members : List (String × Json)) :
    lookup key (setMember name value members) =
      if key = name then some value else lookup key members := by
  induction members with
  | nil => simp [setMember, lookup, eq_comm]
  | cons member members ih =>
    rcases member with ⟨first, old⟩
    unfold setMember
    split
    · next hfirst => simp only [lookup, hfirst, eq_comm]; split <;> simp_all
    · next hfirst =>
      simp only [lookup, ih]
      split <;> simp_all

namespace Record

/-- Fields that are set on members, one after the other, leave the last one of each name. -/
theorem lookup_foldl_setMember (key : String) (fields : List (String × Value))
    (members : List (String × Json)) :
    Json.lookup key (fields.foldl (fun members field =>
      Json.setMember field.1 field.2.toJson members) members) =
      ((lookup key fields.reverse).map Value.toJson).or (Json.lookup key members) := by
  induction fields generalizing members with
  | nil => rfl
  | cons field fields ih =>
    rw [List.foldl_cons, ih, Json.lookup_setMember, List.reverse_cons, lookup_append]
    by_cases hkey : key = field.1
    · cases lookup key fields.reverse <;> simp [lookup, hkey]
    · cases lookup key fields.reverse <;> simp [lookup, hkey, Ne.symm hkey]

/-- With a star, the document of a record has all fields of the record as members. -/
theorem member?_project {r : Record} (hnodup : r.names.Nodup) {names : List String}
    (hstar : "*" ∈ names) {name : String} {v : Value} (h : r.get? name = some v)
    (object version : String) :
    (r.project object names version).member? name = some v.toJson := by
  have hall : r.selected names = r.fields := by simp [selected, hstar]
  have hlast : lookup name r.fields.reverse = some v := (last?_of_nodup hnodup name).trans h
  rw [project, hall]
  show Json.lookup name (r.fields.foldl (fun members field =>
    Json.setMember field.1 field.2.toJson members) _) = _
  rw [lookup_foldl_setMember, hlast]
  rfl

end Record

namespace QueryJob

variable {c : Catalog} {s : Store} {supply supply' : Supply} {version : String} {r : Request}
  {j : Job}

/-! ## Complete jobs -/

/-- A complete job of a query text: the query that it spells out and the records found. -/
structure Completed (c : Catalog) (s : Store) (text : String) (j : Job) (q : Soql)
    (names : List String) (schema : Schema) (records : List Record) : Prop where
  parse : Soql.parse text = .ok q
  select : q.select = .fields names
  found : s.run c q = .ok records
  object : c.require q.object = .ok schema
  results : results j = .ok (Csv.writeRecords (columns names records schema) records)
  processed : j.processed = records.length

/-- A query that runs selects fields, reads records, and writes them under its columns. -/
theorem run_eq_ok {text : String} {outcome : Outcome} (h : run c s text = .ok outcome) :
    ∃ q names schema records, Soql.parse text = .ok q ∧ q.select = .fields names ∧
      s.run c q = .ok records ∧ c.require q.object = .ok schema ∧
      outcome = ⟨q.object, records.length,
        Csv.writeRecords (columns names records schema) records⟩ := by
  rcases bind_eq_ok.mp h with ⟨q, hparse, hquery⟩
  have hparsed : Soql.parse text = .ok q := mapError_eq_ok.mp hparse
  cases hselect : q.select with
  | count =>
    -- a query that counts is refused
    rw [hselect] at hquery
    cases hquery
  | fields names =>
    rw [hselect] at hquery
    rcases bind_eq_ok.mp hquery with ⟨records, hrecords, hrest⟩
    rcases bind_eq_ok.mp hrest with ⟨schema, hschema, houtcome⟩
    cases houtcome
    exact ⟨q, names, schema, records, hparsed, hselect, hrecords, hschema, rfl⟩

/-- A new job has run its query, whatever operation it is asked for. -/
theorem create_eq_ok (h : create c s supply version r = .ok (j, supply')) :
    ∃ text blank data, r.query = some text ∧ j = finish blank data (run c s text) := by
  unfold create at h
  simp only [bind, Except.bind] at h
  split at h
  · next text htext =>
    have hquery : r.query = some text := (Option.filter_eq_some_iff.mp htext).1
    split at h
    · cases h
      exact ⟨text, _, _, hquery, rfl⟩
    · split at h
      · cases h
        exact ⟨text, _, _, hquery, rfl⟩
      · cases h
  · cases h

/-- Only a query that succeeds completes its job. -/
theorem exists_completed (h : create c s supply version r = .ok (j, supply'))
    (hstate : j.state = .jobComplete) :
    ∃ text q names schema records, r.query = some text ∧
      Completed c s text j q names schema records := by
  rcases create_eq_ok h with ⟨text, blank, data, hquery, rfl⟩
  cases hrun : run c s text with
  | error e =>
    rw [hrun] at hstate
    cases hstate
  | ok outcome =>
    rcases run_eq_ok hrun with ⟨q, names, schema, records, hparse, hselect, hfound, hobject, rfl⟩
    exact ⟨text, q, names, schema, records, hquery, hparse, hselect, hfound, hobject, rfl, rfl⟩

/-! ## Rows -/

/-- The rows of the records under the columns of a query. -/
def recordRows (names : List String) (schema : Schema) (records : List Record) :
    List (List String) :=
  records.map (Csv.recordCells (columns names records schema))

/-- Every row of the results is as wide as the columns. -/
theorem wide_recordRows (names : List String) (schema : Schema) (records : List Record) :
    ∀ row ∈ recordRows names schema records,
      row.length = (columns names records schema).length := by
  intro row hrow
  rcases List.mem_map.mp hrow with ⟨record, -, rfl⟩
  simp [Csv.recordCells]

/-- What the table of a complete job tells of the records that its query found. -/
structure Listed (names : List String) (schema : Schema) (records : List Record) (j : Job)
    (csv : String) : Prop where
  results : results j = .ok csv
  processed : j.processed = records.length
  /-- The rows that are read are those of the records, in order, without the empty ones. -/
  rows : (Csv.parse csv.toList).rows = (recordRows names schema records).filter Csv.isFilled
  /-- If no row is empty, each record has its row. -/
  complete : (∀ row ∈ recordRows names schema records, Csv.isFilled row) →
    (Csv.parse csv.toList).rows = recordRows names schema records
  /-- As many rows are read as the job reports if no row is empty, and only then. -/
  counted : (Csv.parse csv.toList).rows.length = j.processed ↔
    ∀ row ∈ recordRows names schema records, Csv.isFilled row

/-- A complete job reports how many records its query found, and its table has their rows.  The rows
are as many as the job reports if every record shows something under the columns. -/
theorem complete_jobs_list_their_records (h : create c s supply version r = .ok (j, supply'))
    (hstate : j.state = .jobComplete) :
    ∃ text q names schema records csv, r.query = some text ∧ Soql.parse text = .ok q ∧
      q.select = .fields names ∧ c.require q.object = .ok schema ∧ s.run c q = .ok records ∧
      Listed names schema records j csv ∧
      ∀ (o : Org) (id : String), o.queryJob id = .ok j →
        o.queryResults id = .ok (csv, records.length) := by
  rcases exists_completed h hstate with ⟨text, q, names, schema, records, hquery, hjob⟩
  have hrows : (Csv.parse (Csv.writeRecords (columns names records schema) records).toList).rows =
      (recordRows names schema records).filter Csv.isFilled := by
    rw [Csv.writeRecords, String.toList_ofList]
    exact Csv.rows_parse_write (wide_recordRows names schema records)
  -- the rows that reading drops are the empty ones, so only they can be missing
  have hcount : j.processed = (recordRows names schema records).length := by
    rw [hjob.processed, recordRows, List.length_map]
  have hlisted : Listed names schema records j
      (Csv.writeRecords (columns names records schema) records) := by
    refine ⟨hjob.results, hjob.processed, hrows, ?_, ?_⟩
    · intro hfilled
      rw [hrows]
      exact List.filter_eq_self.mpr hfilled
    · rw [hrows, hcount]
      exact List.length_filter_eq_length_iff
  refine ⟨text, q, names, schema, records, _, hquery, hjob.parse, hjob.select, hjob.object,
    hjob.found, hlisted, ?_⟩
  intro o id hid
  rw [Org.queryResults, hid, ok_bind, hjob.results, ok_bind, hjob.processed]
  rfl

/-- Two accounts, of which only the second one has a telephone number. -/
def phones : Store where
  collections := [("Account",
    ⟨[⟨[("Id", .text "001A"), ("Name", .text "Acme, Inc.")]⟩,
      ⟨[("Id", .text "001B"), ("Name", .text "Globex"), ("Phone", .text "555")]⟩]⟩)]

/-- A request that says nothing but its query. -/
def Request.ofQuery (text : String) : Request := { Request.blank with query := some text }

/-- The account without a number shows its name, so both accounts have a row. -/
theorem accounts_have_rows :
    ∃ j supply csv, create Store.accountsOnly phones ⟨0, 0⟩ "v59.0"
        (.ofQuery "SELECT Phone, Name FROM Account") = .ok (j, supply) ∧
      results j = .ok csv ∧ j.processed = 2 ∧
      (Csv.parse csv.toList).rows = [["", "Acme, Inc."], ["555", "Globex"]] := by
  obtain ⟨j, supply, hcreate, hstate⟩ : ∃ j supply, create Store.accountsOnly phones ⟨0, 0⟩ "v59.0"
      (.ofQuery "SELECT Phone, Name FROM Account") = .ok (j, supply) ∧ j.state = .jobComplete :=
    ⟨_, _, rfl, rfl⟩
  rcases complete_jobs_list_their_records hcreate hstate with
    ⟨_, q, names, schema, records, csv, ⟨⟩, hparse, hselect, hobject, hfound, hlisted, -⟩
  obtain rfl : ⟨.fields ["Phone", "Name"], "Account", none, none, none, none⟩ = q :=
    Except.ok.inj hparse
  obtain rfl : ["Phone", "Name"] = names := Selection.fields.inj hselect
  obtain rfl : [_, _] = records := Except.ok.inj hfound
  exact ⟨j, supply, csv, hcreate, hlisted.results, hlisted.processed, hlisted.rows⟩

/-- An account that shows nothing is counted, and has a row that is not read. -/
theorem silent_account_is_counted :
    ∃ j supply, create Store.accountsOnly phones ⟨0, 0⟩ "v59.0"
        (.ofQuery "SELECT Phone FROM Account") = .ok (j, supply) ∧
      j.state = .jobComplete ∧ j.processed = 2 ∧ results j = .ok "Phone\n\n555\n" ∧
      (Csv.parse "Phone\n\n555\n".toList).rows = [["555"]] :=
  ⟨_, _, rfl, rfl, rfl, rfl, by decide⟩

/-! ## Columns -/

theorem columns_of_star {names : List String} (h : "*" ∈ names) (first : Record)
    (records : List Record) (schema : Schema) :
    columns names (first :: records) schema = first.names := by
  simp [columns, h]

/-- A star shows all fields of every record in the answer to the query.  In the table of the job it
stands for the fields of the first record: the others have their values under these, and fields that
the first record has not are not shown. -/
theorem star_shows_fields_of_first (h : create c s supply version r = .ok (j, supply'))
    (hstate : j.state = .jobComplete) {text : String} (hquery : r.query = some text) {q : Soql}
    (hparse : Soql.parse text = .ok q) {names : List String} (hselect : q.select = .fields names)
    (hstar : "*" ∈ names) :
    ∃ records csv, s.run c q = .ok records ∧ results j = .ok csv ∧
      (∀ version, s.query c text version =
        .ok ⟨records.length, records.map (·.project q.object names version)⟩) ∧
      ∀ first, records.head? = some first → ∀ (i : Nat) record, records[i]? = some record →
        ∀ name v, record.get? name = some v → v ≠ .null →
          (record.names.Nodup → ∀ version,
            (record.project q.object names version).member? name = some v.toJson) ∧
          (first.names ≠ [] →
            (Csv.StandsUnder csv (i + 1) name v.cellText ↔ name ∈ first.names)) := by
  rcases exists_completed h hstate with ⟨text', q', names', schema, records, hquery', hjob⟩
  obtain rfl : text' = text := Option.some.inj (hquery'.symm.trans hquery)
  obtain rfl : q' = q := Except.ok.inj (hjob.parse.symm.trans hparse)
  obtain rfl : names' = names := Selection.fields.inj (hjob.select.symm.trans hselect)
  refine ⟨records, _, hjob.found, hjob.results, ?_, ?_⟩
  · intro version
    rw [Store.query_eq_answer hparse, Store.answer, hjob.found, ok_bind, hselect]
    rfl
  · intro first hfirst i record hrecord name v hv hnull
    refine ⟨fun hnodup version => Record.member?_project hnodup hstar hv q'.object version, ?_⟩
    intro hnames
    rcases List.head?_eq_some_iff.mp hfirst with ⟨more, rfl⟩
    have hvalue : record.getOrNull name = v := by simp [Record.getOrNull, hv]
    rw [columns_of_star hstar, Csv.standsUnder_writeRecords hnames hrecord, hvalue]
    exact and_iff_left rfl

/-- In the other order, the account with a number comes first, and has a column for it. -/
theorem numbered_account_shows_phone :
    ∃ j supply csv, create Store.accountsOnly phones ⟨0, 0⟩ "v59.0"
        (.ofQuery "SELECT * FROM Account ORDER BY Name DESC") = .ok (j, supply) ∧
      results j = .ok csv ∧ Csv.StandsUnder csv 1 "Phone" "555" ∧
      Csv.StandsUnder csv 2 "Name" "Acme, Inc." := by
  obtain ⟨j, supply, hcreate, hstate⟩ : ∃ j supply, create Store.accountsOnly phones ⟨0, 0⟩ "v59.0"
      (.ofQuery "SELECT * FROM Account ORDER BY Name DESC") = .ok (j, supply) ∧
        j.state = .jobComplete := ⟨_, _, rfl, rfl⟩
  rcases star_shows_fields_of_first hcreate hstate rfl rfl rfl (by decide) with
    ⟨records, csv, hfound, hresults, -, hshown⟩
  obtain rfl : [_, _] = records := Except.ok.inj hfound
  have hphone := (hshown _ rfl 0 _ rfl "Phone" (.text "555") rfl nofun).2 (by decide)
  have hname := (hshown _ rfl 1 _ rfl "Name" (.text "Acme, Inc.") rfl nofun).2 (by decide)
  exact ⟨j, supply, csv, hcreate, hresults, hphone.mpr (by decide), hname.mpr (by decide)⟩

/-- The number of the second account is in the answer to the query, and in no column of the job. -/
theorem star_misses_phone :
    ∃ j supply answer csv, create Store.accountsOnly phones ⟨0, 0⟩ "v59.0"
        (.ofQuery "SELECT * FROM Account") = .ok (j, supply) ∧
      j.state = .jobComplete ∧ results j = .ok csv ∧
      csv = "Id,Name\n001A,\"Acme, Inc.\"\n001B,Globex\n" ∧
      phones.query Store.accountsOnly "SELECT * FROM Account" "v59.0" = .ok answer ∧
      (∃ doc ∈ answer.records, doc.member? "Phone" = some (.str "555")) ∧
      ¬∃ line cell, Csv.StandsUnder csv line "Phone" cell := by
  refine ⟨_, _, _, _, rfl, rfl, rfl, rfl, rfl, ⟨_, List.mem_cons_of_mem _ List.mem_cons_self, rfl⟩, ?_⟩
  rintro ⟨line, cell, header, row, hheader, -, hphone, -⟩
  obtain rfl : ["Id", "Name"] = header := Option.some.inj hheader
  exact absurd hphone (by decide)

end QueryJob

end CrmEmulator
