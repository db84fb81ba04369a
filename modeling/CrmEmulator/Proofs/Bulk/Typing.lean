import CrmEmulator.Bulk.Row
import CrmEmulator.Proofs.Csv.Tables
import CrmEmulator.Proofs.Text.LetterCase
import CrmEmulator.Proofs.Text.Numeral

/-!
# CrmEmulator.Proofs.Bulk.Typing — values that are written to a table are typed again

1. `Survives`: a value that its cell tells, where the field has a type.  A text that is empty or
   stands for null does not, and neither does one in a field of numbers or truth values.
2. A row of such cells is typed as the fields that the record had under the headers; a null is an
   empty cell, which is left out.
3. A table of rows that are not empty throughout comes back with its types.
-/

namespace CrmEmulator

/-! ## Cells -/

/-- Are cells of the type taken as they are? -/
def FieldType.isTextual : FieldType → Bool
  | .int | .double | .currency | .percent | .boolean => false
  | _ => true

theorem typeCell_of_isTextual {type : FieldType} (h : type.isTextual) (text : String) :
    typeCell type text = .text text := by
  cases type <;> first | rfl | cases h

/-- A value that its cell tells, in a field with a type or in one that the schema does not know. -/
inductive Survives : Option FieldType → Value → Prop
  | integer (n : Int64) : Survives (some .int) (.integer n)
  | boolean (b : Bool) : Survives (some .boolean) (.boolean b)
  | text {type : Option FieldType} {text : String} (htextual : ∀ t ∈ type, t.isTextual)
      (hfilled : text ≠ "") (hmarker : text ≠ nullMarker) : Survives type (.text text)

instance decidableSurvives (type : Option FieldType) : (v : Value) → Decidable (Survives type v)
  | .integer n => decidable_of_iff (type = some .int)
      ⟨fun h => h ▸ .integer n, fun h => by cases h; rfl⟩
  | .boolean b => decidable_of_iff (type = some .boolean)
      ⟨fun h => h ▸ .boolean b, fun h => by cases h; rfl⟩
  | .text text => decidable_of_iff
      ((∀ t ∈ type, t.isTextual) ∧ text ≠ "" ∧ text ≠ nullMarker)
      ⟨fun ⟨htextual, hfilled, hmarker⟩ => .text htextual hfilled hmarker,
        fun | .text htextual hfilled hmarker => ⟨htextual, hfilled, hmarker⟩⟩
  | .null => .isFalse nofun
  | .double _ => .isFalse nofun
  | .json _ => .isFalse nofun

theorem not_isBlank_of_isDigit {c : Char} (h : c.isDigit) : isBlank c = false := by
  have hall : ∀ n < 128, (Char.ofNat n).isDigit → isBlank (Char.ofNat n) = false := by decide
  exact forall_ascii (P := fun c => c.isDigit → isBlank c = false) hall (ascii_of_isDigit h) h

/-- There is no white space in a written number. -/
theorem trim_int64Text (n : Int64) :
    trim (Value.int64Text n).toList = (Value.int64Text n).toList := by
  refine trim_of_not_isBlank ?_
  intro c hc
  rcases Numeral.sign_or_isDigit_of_mem_repr (n := n.toInt) hc with rfl | hdigit
  · decide
  · exact not_isBlank_of_isDigit hdigit

/-- The text of an integer is typed as that integer. -/
theorem typeCell_int64Text (n : Int64) : typeCell .int (Value.int64Text n) = .integer n := by
  have hread : (Numeral.int64? (trim (Value.int64Text n).toList)).map Value.integer =
      some (.integer n) := by
    rw [trim_int64Text, Numeral.int64?_int64Text]
    rfl
  rw [typeCell, hread]
  rfl

/-- No number is written as a text that is not read as one. -/
theorem int64Text_ne {text : String} (h : Numeral.int64? text.toList = none) (n : Int64) :
    Value.int64Text n ≠ text := by
  rintro rfl
  rw [Numeral.int64?_int64Text] at h
  cases h

/-- The cell of such a value is filled, and not the one of null. -/
theorem Survives.cellText_ne {type : Option FieldType} {v : Value} (h : Survives type v) :
    v.cellText ≠ "" ∧ v.cellText ≠ nullMarker := by
  cases h with
  | integer n => exact ⟨int64Text_ne (by decide) n, int64Text_ne (by decide) n⟩
  | boolean b => cases b <;> decide
  | text htextual hfilled hmarker => exact ⟨hfilled, hmarker⟩

/-- The type of a field, if the schema has the field. -/
def Schema.fieldType? (s : Schema) (name : String) : Option FieldType :=
  (s.field? name).map (·.type)

/-- A cell that is neither empty nor null is typed by the type of its field. -/
theorem typeField_text (s : Schema) (name : String) {text : String} (hfilled : text ≠ "")
    (hmarker : text ≠ nullMarker) :
    typeField s name (.text text) =
      some ((s.fieldType? name).elim (.text text) fun type => typeCell type text) := by
  have hsome : text.isEmpty = false := by simpa using hfilled
  rw [typeField, hsome, if_neg (by decide), if_neg hmarker, Schema.fieldType?]
  cases s.field? name <;> rfl

/-- A value that survives is read back from the cell that it is written as. -/
theorem Survives.typeField_cellText {s : Schema} {name : String} {v : Value}
    (h : Survives (s.fieldType? name) v) : typeField s name (.text v.cellText) = some v := by
  rcases h.cellText_ne with ⟨hfilled, hmarker⟩
  rw [typeField_text s name hfilled hmarker]
  generalize s.fieldType? name = type at h
  cases h with
  | integer n => exact congrArg some (typeCell_int64Text n)
  | boolean b => cases b <;> rfl
  | text htextual =>
    cases type with
    | none => rfl
    | some type => exact congrArg some (typeCell_of_isTextual (htextual type rfl) _)

/-! ## Rows -/

namespace Csv

/-- The fields that a record has under headers, but for those that are null. -/
def filledFields (headers : List String) (r : Record) : List (String × Value) :=
  headers.filterMap fun name =>
    if r.getOrNull name = .null then none else some (name, r.getOrNull name)

/-- Can the fields of a record be written under headers, and some of them be seen? -/
structure Exportable (s : Schema) (headers : List String) (r : Record) : Prop where
  filled : ∃ name ∈ headers, r.getOrNull name ≠ .null
  survives : ∀ name ∈ headers, ∀ v ∈ r.get? name, v ≠ .null → Survives (s.fieldType? name) v

instance (s : Schema) (headers : List String) (r : Record) : Decidable (Exportable s headers r) :=
  decidable_of_iff ((∃ name ∈ headers, r.getOrNull name ≠ .null) ∧
      ∀ name ∈ headers, ∀ v ∈ r.get? name, v ≠ .null → Survives (s.fieldType? name) v)
    ⟨fun ⟨hfilled, hsurvives⟩ => ⟨hfilled, hsurvives⟩, fun h => ⟨h.filled, h.survives⟩⟩

/-- The values of an exportable record survive, nulls apart. -/
theorem Exportable.survives_getOrNull {s : Schema} {headers : List String} {r : Record}
    (h : Exportable s headers r) {name : String} (hname : name ∈ headers)
    (hnull : r.getOrNull name ≠ .null) : Survives (s.fieldType? name) (r.getOrNull name) := by
  cases hget : r.get? name with
  | none => simp [Record.getOrNull, hget] at hnull
  | some v =>
    have hvalue : r.getOrNull name = v := by simp [Record.getOrNull, hget]
    rw [hvalue] at hnull ⊢
    exact h.survives name hname v hget hnull

/-- The filled fields come in the order of the headers. -/
theorem names_filledFields (headers : List String) (r : Record) :
    ((filledFields headers r).map (·.1)).Sublist headers := by
  induction headers with
  | nil => exact List.Sublist.slnil
  | cons name headers ih =>
    by_cases hnull : r.getOrNull name = .null
    · have hskip : filledFields (name :: headers) r = filledFields headers r := by
        simp [filledFields, hnull]
      rw [hskip]
      exact ih.cons name
    · have htake : filledFields (name :: headers) r =
          (name, r.getOrNull name) :: filledFields headers r := by
        simp [filledFields, hnull]
      rw [htake]
      exact ih.cons_cons name

/-- The cells of a record are typed as its values were. -/
theorem typeRecord_recordCells {s : Schema} {headers : List String} (hnodup : headers.Nodup)
    {r : Record} (h : Exportable s headers r) :
    typeRecord s (rowRecord headers (recordCells headers r)) = ⟨filledFields headers r⟩ := by
  have hlength : (recordCells headers r).length = headers.length := by simp [recordCells]
  have hfields : (rowRecord headers (recordCells headers r)).fields =
      headers.map fun name => (name, .text (r.getOrNull name).cellText) := by
    rw [fields_rowRecord hnodup hlength, recordCells, List.map_map]
    have hzip := List.zip_map' (l := headers) (f := id)
      (g := fun name => Value.text (r.getOrNull name).cellText)
    rwa [List.map_id] at hzip
  have htyped : ∀ name ∈ headers,
      (typeField s name (.text (r.getOrNull name).cellText)).map (name, ·) =
        if r.getOrNull name = .null then none else some (name, r.getOrNull name) := by
    intro name hname
    split
    · next hnull =>
      rw [hnull]
      rfl
    · next hnull =>
      rw [(h.survives_getOrNull hname hnull).typeField_cellText]
      rfl
  -- so typing drops the empty cells and gives the others their values back
  have hkept : (rowRecord headers (recordCells headers r)).fields.filterMap
      (fun field => (typeField s field.1 field.2).map (field.1, ·)) = filledFields headers r := by
    rw [hfields, List.filterMap_map]
    exact List.filterMap_congr htyped
  have hdistinct : ((filledFields headers r).map (·.1)).Nodup :=
    hnodup.sublist (names_filledFields headers r)
  have hset := Record.fields_ofFields_of_nodup hdistinct
  rw [← hkept] at hset ⊢
  exact congrArg Record.mk hset

/-! ## Tables -/

/-- An exportable record fills some cell, so that its row is no empty line. -/
theorem Exportable.filled_recordCells {s : Schema} {headers : List String} {r : Record}
    (h : Exportable s headers r) : ∃ cell ∈ recordCells headers r, cell ≠ "" := by
  rcases h.filled with ⟨name, hname, hnull⟩
  have hfilled := (h.survives_getOrNull hname hnull).cellText_ne.1
  exact ⟨_, List.mem_map_of_mem hname, hfilled⟩

/-- Records that are written under headers come back, in order, with the values that they have
under these: cells are quoted and read, rows are told apart, and texts are typed by the schema. -/
theorem exported_records_come_back {s : Schema} {headers : List String} {records : List Record}
    (hheaders : headers ≠ []) (hnodup : headers.Nodup)
    (htrimmed : ∀ name ∈ headers, trim name.toList = name.toList)
    (hrecords : ∀ r ∈ records, Exportable s headers r) :
    (parse (writeRecords headers records).toList).records.map (typeRecord s) =
      records.map fun r => ⟨filledFields headers r⟩ := by
  have hregular : Table.Regular ⟨headers, records.map (recordCells headers)⟩ := by
    refine ⟨htrimmed, ?_, ?_⟩
    · intro row hrow
      rcases List.mem_map.mp hrow with ⟨r, -, rfl⟩
      simp [recordCells]
    · intro row hrow
      rcases List.mem_map.mp hrow with ⟨r, hr, rfl⟩
      exact (hrecords r hr).filled_recordCells
  have hparse : parse (writeRecords headers records).toList =
      ⟨headers, records.map (recordCells headers)⟩ := by
    rw [writeRecords, String.toList_ofList]
    exact hregular.parse_write hheaders
  rw [hparse, records_eq, List.map_map, List.map_map]
  refine List.map_congr_left ?_
  intro r hr
  exact typeRecord_recordCells hnodup (hrecords r hr)

/-- Numbers and truth values are typed again, a text that looks like one stays a text, and what is
null, missing or under no header is left out. -/
theorem mixed_values_come_back :
    (parse (writeRecords ["Id", "Size", "Open", "Note"] [
        ⟨[("Note", .text "true, \"5\"\r\n"), ("Size", .integer (-9223372036854775808)),
          ("Rank", .integer 1), ("Open", .boolean false)]⟩,
        ⟨[("Size", .null), ("Id", .text " 7 ")]⟩]).toList).records.map
      (typeRecord { name := "Account", idPrefix := "001", fields := [("Id", { type := .id }),
        ("Size", { type := .int }), ("Open", { type := .boolean })] }) =
      [⟨[("Size", .integer (-9223372036854775808)), ("Open", .boolean false),
        ("Note", .text "true, \"5\"\r\n")]⟩, ⟨[("Id", .text " 7 ")]⟩] :=
  exported_records_come_back (by decide) (by decide) (by decide) (by decide)

end Csv

end CrmEmulator
