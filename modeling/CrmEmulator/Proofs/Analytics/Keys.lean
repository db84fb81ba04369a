import CrmEmulator.Analytics.Pipeline
import CrmEmulator.Proofs.Record
import CrmEmulator.Proofs.Value.Equality

/-!
# CrmEmulator.Proofs.Analytics.Keys — equality of keys

1. The names in a key depend on the fields alone, so two keys are equal when the values of all their
   fields are (`keyOf_same_iff`).
2. `Record.Proper`: records with proper documents.  Every record that is read is one, and among the
   keys of such records equality is symmetric.
-/

namespace CrmEmulator

/-! ## Names -/

/-- Setting a field of a record of names to the value that it has changes nothing. -/
theorem Record.setField_map_of_mem {name : String} {names : List String} (h : name ∈ names)
    (value : String → Value) :
    setField name (value name) (names.map fun n => (n, value n)) =
      names.map fun n => (n, value n) := by
  induction names with
  | nil => cases h
  | cons first names ih =>
    rw [List.map_cons, setField]
    split
    · next hfirst => rw [hfirst]
    · next hfirst => rw [ih ((List.mem_cons.mp h).resolve_left (Ne.symm hfirst))]

/-- The names of a record whose fields are set do not depend on the values. -/
theorem Record.exists_names_setAll (fields names : List String) :
    ∃ names' : List String, (∀ name, name ∈ names' ↔ name ∈ names ∨ name ∈ fields) ∧
      ∀ value : String → Value,
        setAll ⟨names.map fun n => (n, value n)⟩ (fields.map fun n => (n, value n)) =
          ⟨names'.map fun n => (n, value n)⟩ := by
  induction fields generalizing names with
  | nil => exact ⟨names, by simp, fun _ => rfl⟩
  | cons field fields ih =>
    by_cases hfield : field ∈ names
    · obtain ⟨names', hnames, hset⟩ := ih names
      refine ⟨names', fun name => ?_, fun value => ?_⟩
      · rw [hnames, List.mem_cons, or_left_comm]
        exact (or_iff_right_of_imp fun heq => .inl (heq ▸ hfield)).symm
      · rw [← hset value]
        exact congrArg (fun fs => setAll ⟨fs⟩ _) (setField_map_of_mem hfield value)
    · obtain ⟨names', hnames, hset⟩ := ih (names ++ [field])
      refine ⟨names', fun name => ?_, fun value => ?_⟩
      · rw [hnames, List.mem_append, List.mem_singleton, List.mem_cons, or_assoc]
      · rw [← hset value, List.map_append]
        have hnew : field ∉ (names.map fun n => (n, value n)).map (·.1) := by
          simpa using hfield
        exact congrArg (fun fs => setAll ⟨fs⟩ _) (setField_of_not_mem hnew (value field))

theorem Record.same_map_iff (names : List String) (v w : String → Value) :
    same ⟨names.map fun n => (n, v n)⟩ ⟨names.map fun n => (n, w n)⟩ ↔
      ∀ name ∈ names, (v name).same (w name) := by
  simp [same, size, List.zip_map']

/-! ## Keys -/

/-- Two keys are equal when the values of all their fields are. -/
theorem keyOf_same_iff (fields : List String) (r s : Record) :
    (keyOf fields r).same (keyOf fields s) ↔
      ∀ field ∈ fields, (r.getOrNull field).same (s.getOrNull field) := by
  obtain ⟨names, hnames, hset⟩ := Record.exists_names_setAll fields []
  have hkey (row : Record) : keyOf fields row = ⟨names.map fun n => (n, row.getOrNull n)⟩ :=
    hset row.getOrNull
  rw [hkey, hkey, Record.same_map_iff]
  simp [hnames]

/-! ## Proper records -/

/-- Are the documents in the fields of a record proper? -/
def Record.Proper (r : Record) : Prop := ∀ field ∈ r.fields, field.2.Proper

@[simp] theorem Record.proper_nil : Proper ⟨[]⟩ := List.forall_mem_nil _

@[simp] theorem Record.proper_cons (field : String × Value) (fields : List (String × Value)) :
    Proper ⟨field :: fields⟩ ↔ field.2.Proper ∧ Proper ⟨fields⟩ := List.forall_mem_cons

/-- The fields after one was set are the new one and some of the old ones. -/
theorem Record.mem_setField {name : String} {value : Value} {fields : List (String × Value)}
    {field : String × Value} (h : field ∈ setField name value fields) :
    field = (name, value) ∨ field ∈ fields := by
  induction fields with
  | nil => exact .inl (List.mem_singleton.mp h)
  | cons first fields ih =>
    unfold setField at h
    split at h
    · next hname =>
      rcases List.mem_cons.mp h with rfl | hrest
      · exact .inl (by rw [hname])
      · exact .inr (List.mem_cons_of_mem _ hrest)
    · rcases List.mem_cons.mp h with rfl | hrest
      · exact .inr List.mem_cons_self
      · exact (ih hrest).imp_right (List.mem_cons_of_mem _)

/-- Records stay proper when proper values are set. -/
theorem Record.Proper.setAll {r : Record} (hr : r.Proper) {fields : List (String × Value)}
    (hfields : ∀ field ∈ fields, field.2.Proper) : (r.setAll fields).Proper := by
  induction fields generalizing r with
  | nil => exact hr
  | cons field fields ih =>
    rw [List.forall_mem_cons] at hfields
    refine ih (r := r.set field.1 field.2) (fun other hother => ?_) hfields.2
    rcases mem_setField hother with rfl | hold
    · exact hfields.1
    · exact hr other hold

/-- A record that is read from a text is proper. -/
theorem Record.proper_of_parse? {cs : List Char} {doc : Json} (hread : Json.parse? cs = some doc)
    {r : Record} (h : ofJson? doc = some r) : r.Proper := by
  cases Json.proper_of_parse? hread with
  | @obj members names hmembers =>
    cases h
    refine proper_nil.setAll fun field hfield => ?_
    obtain ⟨member, hmember, rfl⟩ := List.mem_map.mp hfield
    exact Value.proper_ofJson (hmembers member hmember)
  | _ => cases h

/-- Fields of a proper record are proper; null stands for those that it lacks. -/
theorem Record.Proper.getOrNull {r : Record} (h : r.Proper) (name : String) :
    (r.getOrNull name).Proper := by
  rw [Record.getOrNull]
  cases hget : r.get? name with
  | none => trivial
  | some v => exact h _ (mem_of_lookup hget)

/-- Keys of proper rows are equal in both orders or in none. -/
theorem keyOf_same_comm (fields : List String) {r s : Record} (hr : r.Proper) (hs : s.Proper) :
    (keyOf fields r).same (keyOf fields s) = (keyOf fields s).same (keyOf fields r) := by
  rw [Bool.eq_iff_iff, keyOf_same_iff, keyOf_same_iff]
  refine forall₂_congr fun field _ => ?_
  rw [Value.same_comm (hr.getOrNull field) (hs.getOrNull field)]

end CrmEmulator
