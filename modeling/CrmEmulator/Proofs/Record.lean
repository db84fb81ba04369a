import CrmEmulator.Record

/-!
# CrmEmulator.Proofs.Record — fields after they are set

What a record holds under a name, and in which order its names stand, after one field or several
fields are set.
-/

namespace CrmEmulator

namespace Record

/-! ## Values -/

/-- After a field was set, the field shows its new value and the others are as before. -/
theorem lookup_setField (name key : String) (value : Value) (fields : List (String × Value)) :
    lookup key (setField name value fields) =
      if key = name then some value else lookup key fields := by
  induction fields with
  | nil => simp [setField, lookup, eq_comm]
  | cons field fields ih =>
    rcases field with ⟨first, old⟩
    unfold setField
    split
    · next hfirst => simp only [lookup, hfirst, eq_comm]; split <;> simp_all
    · next hfirst =>
      simp only [lookup, ih]
      split <;> simp_all

theorem get?_empty (key : String) : empty.get? key = none := rfl

theorem get?_set (r : Record) (name key : String) (value : Value) :
    (r.set name value).get? key = if key = name then some value else r.get? key :=
  lookup_setField name key value r.fields

/-- A field is looked up in the first of two lists, and then in the second. -/
theorem lookup_append (key : String) (fields more : List (String × Value)) :
    lookup key (fields ++ more) = (lookup key fields).or (lookup key more) := by
  induction fields with
  | nil => rfl
  | cons field fields ih =>
    by_cases hkey : field.1 = key <;> simp [lookup, hkey, ih]

/-- What is found among fields is one of them. -/
theorem mem_of_lookup {key : String} {fields : List (String × Value)} {value : Value}
    (h : lookup key fields = some value) : (key, value) ∈ fields := by
  induction fields with
  | nil => cases h
  | cons field fields ih =>
    rcases field with ⟨first, old⟩
    unfold lookup at h
    split at h
    · next hfirst =>
      cases h
      simp [hfirst]
    · exact List.mem_cons_of_mem _ (ih h)

/-- Nothing is found exactly under the names that no field has. -/
theorem lookup_eq_none {key : String} {fields : List (String × Value)} :
    lookup key fields = none ↔ key ∉ fields.map (·.1) := by
  induction fields with
  | nil => simp [lookup]
  | cons field fields ih =>
    by_cases hkey : field.1 = key
    · simp [lookup, hkey]
    · simpa [lookup, hkey, Ne.symm hkey] using ih

/-- The value of the last field with a name: the one that stays when fields are set in order. -/
def last? (r : Record) (name : String) : Option Value := lookup name r.fields.reverse

/-- Names that are distinct are looked up from either end. -/
theorem last?_of_nodup {r : Record} (h : r.names.Nodup) (name : String) :
    r.last? name = r.get? name := by
  rcases r with ⟨fields⟩
  simp only [last?, get?, names] at h ⊢
  induction fields with
  | nil => rfl
  | cons field fields ih =>
    rcases field with ⟨first, value⟩
    rw [List.map_cons, List.nodup_cons] at h
    rw [List.reverse_cons, lookup_append, ih h.2]
    by_cases hfirst : first = name
    · subst hfirst
      simp [lookup, lookup_eq_none.mpr h.1]
    · simp [lookup, hfirst]

/-- After fields were set, each shows the last value that was set, and the others are as before. -/
theorem get?_setAll (r : Record) (fields : List (String × Value)) (key : String) :
    (r.setAll fields).get? key = (lookup key fields.reverse).or (r.get? key) := by
  induction fields generalizing r with
  | nil => rfl
  | cons field fields ih =>
    rw [List.reverse_cons, lookup_append, Option.or_assoc]
    refine (ih (r.set field.1 field.2)).trans (congrArg _ ?_)
    rw [get?_set]
    by_cases hkey : key = field.1
    · simp [lookup, hkey]
    · simp [lookup, hkey, Ne.symm hkey]

/-- A field that is not sent stays as it is. -/
theorem get?_setAll_of_not_mem {key : String} {fields : List (String × Value)}
    (h : key ∉ fields.map (·.1)) (r : Record) : (r.setAll fields).get? key = r.get? key := by
  rw [get?_setAll, lookup_eq_none.mpr (by simpa using h)]
  rfl

/-- Without a field, there is nothing under its name, and all else as before. -/
theorem lookup_filter (name key : String) (fields : List (String × Value)) :
    lookup key (fields.filter (·.1 != name)) = if key = name then none else lookup key fields := by
  induction fields with
  | nil => simp [lookup]
  | cons field fields ih =>
    rcases field with ⟨first, value⟩
    by_cases hfirst : first = name
    · subst hfirst
      by_cases hkey : key = first
      · simp_all
      · simpa [lookup, Ne.symm hkey, hkey] using ih
    · by_cases hkey : first = key
      · simp [lookup, hkey, hkey ▸ hfirst]
      · simpa [lookup, hfirst, hkey] using ih

theorem last?_withoutId {name : String} (h : name ≠ "Id") (r : Record) :
    r.withoutId.last? name = r.last? name := by
  rw [last?, withoutId, ← List.filter_reverse, lookup_filter, if_neg h]
  rfl

theorem id_not_mem_withoutId (r : Record) : "Id" ∉ r.withoutId.fields.map (·.1) := by
  simp [withoutId]

theorem withoutId_withoutId (r : Record) : r.withoutId.withoutId = r.withoutId := by
  simp [withoutId]

/-- An id that is set is left out again. -/
theorem withoutId_set (r : Record) (value : Value) :
    (r.set "Id" value).withoutId = r.withoutId := by
  rcases r with ⟨fields⟩
  simp only [set, withoutId, mk.injEq]
  induction fields with
  | nil => simp [setField]
  | cons field fields ih =>
    rcases field with ⟨first, old⟩
    by_cases hfirst : first = "Id"
    · simp [setField, hfirst]
    · simp [setField, hfirst, ih]

/-! ## Names -/

/-- Setting a field appends its name if it is new. -/
theorem map_fst_setField (name : String) (value : Value) (fields : List (String × Value)) :
    (setField name value fields).map (·.1) =
      if name ∈ fields.map (·.1) then fields.map (·.1) else fields.map (·.1) ++ [name] := by
  induction fields with
  | nil => rfl
  | cons field fields ih =>
    rcases field with ⟨first, old⟩
    unfold setField
    split
    · next hfirst => simp [hfirst]
    · next hfirst =>
      simp only [List.map_cons, ih, List.mem_cons, Ne.symm hfirst, false_or]
      split <;> rfl

/-- A new field is appended. -/
theorem setField_of_not_mem {name : String} {fields : List (String × Value)}
    (h : name ∉ fields.map (·.1)) (value : Value) :
    setField name value fields = fields ++ [(name, value)] := by
  induction fields with
  | nil => rfl
  | cons field fields ih =>
    rw [List.map_cons, List.mem_cons, not_or] at h
    simp [setField, Ne.symm h.1, ih h.2]

/-- Setting a field keeps names distinct. -/
theorem nodup_names_set {r : Record} (h : r.names.Nodup) (name : String) (value : Value) :
    (r.set name value).names.Nodup := by
  unfold names set at *
  rw [map_fst_setField]
  split
  · exact h
  · next hnew =>
    rw [List.nodup_append]
    refine ⟨h, by simp, ?_⟩
    rintro a ha b hb rfl
    exact hnew (List.mem_singleton.mp hb ▸ ha)

/-- Setting any number of fields keeps names distinct. -/
theorem nodup_names_setAll {r : Record} (h : r.names.Nodup) (fields : List (String × Value)) :
    (r.setAll fields).names.Nodup := by
  induction fields generalizing r with
  | nil => exact h
  | cons field fields ih => exact ih (nodup_names_set h field.1 field.2)

/-! ## New fields -/

/-- Fields with new and distinct names come last, in order, however they are set. -/
theorem fields_foldl_of_nodup {f : Record → String × Value → Record}
    (hf : ∀ r name value, name ∉ r.names → f r (name, value) = r.set name value)
    {r : Record} {fields : List (String × Value)} (h : (r.names ++ fields.map (·.1)).Nodup) :
    (fields.foldl f r).fields = r.fields ++ fields := by
  induction fields generalizing r with
  | nil => simp
  | cons field fields ih =>
    rcases field with ⟨name, value⟩
    have hnew : name ∉ r.names := by
      intro hmem
      exact (List.nodup_append.mp h).2.2 name hmem name (by simp) rfl
    have hset : (r.set name value).fields = r.fields ++ [(name, value)] :=
      setField_of_not_mem hnew value
    have hrest : ((r.set name value).names ++ fields.map (·.1)).Nodup := by
      simpa [names, hset] using h
    rw [List.foldl_cons, hf r name value hnew, ih hrest, hset]
    simp

theorem fields_ofFields_of_nodup {fields : List (String × Value)}
    (h : (fields.map (·.1)).Nodup) : (ofFields fields).fields = fields :=
  fields_foldl_of_nodup (fun _ _ _ _ => rfl) (r := empty) h

/-- Read under distinct names one after the other, a record gives its values in order. -/
theorem map_lookup_of_nodup {fields : List (String × Value)} (h : (fields.map (·.1)).Nodup) :
    (fields.map (·.1)).map (lookup · fields) = fields.map fun field => some field.2 := by
  induction fields with
  | nil => rfl
  | cons field fields ih =>
    rcases field with ⟨name, value⟩
    rw [List.map_cons, List.nodup_cons] at h
    rcases h with ⟨hname, hfields⟩
    have hskip : (fields.map (·.1)).map (lookup · ((name, value) :: fields)) =
        (fields.map (·.1)).map (lookup · fields) := by
      refine List.map_congr_left fun key hkey => ?_
      have hne : name ≠ key := fun he => hname (he ▸ hkey)
      simp [lookup, hne]
    rw [List.map_cons, List.map_cons, hskip, ih hfields]
    simp [lookup]

/-! ## The first field -/

/-- Setting another field keeps the first one. -/
theorem head?_set {r : Record} {first : String} {x : Value}
    (h : r.fields.head? = some (first, x)) {name : String} (hname : first ≠ name)
    (value : Value) : (r.set name value).fields.head? = some (first, x) := by
  rcases r with ⟨fields⟩
  cases fields with
  | nil => cases h
  | cons field fields =>
    cases h
    simp [set, setField, hname]

/-- Setting any number of other fields keeps the first one. -/
theorem head?_setAll {r : Record} {first : String} {x : Value}
    (h : r.fields.head? = some (first, x)) {fields : List (String × Value)}
    (hfields : first ∉ fields.map (·.1)) : (r.setAll fields).fields.head? = some (first, x) := by
  induction fields generalizing r with
  | nil => exact h
  | cons field fields ih =>
    rw [List.map_cons, List.mem_cons, not_or] at hfields
    rcases hfields with ⟨hne, hrest⟩
    exact ih (head?_set h hne field.2) hrest

/-- The first field is found under its name. -/
theorem get?_of_head? {r : Record} {first : String} {x : Value}
    (h : r.fields.head? = some (first, x)) : r.get? first = some x := by
  rcases r with ⟨fields⟩
  cases fields with
  | nil => cases h
  | cons field fields =>
    cases h
    simp [get?, lookup]

end Record

end CrmEmulator
