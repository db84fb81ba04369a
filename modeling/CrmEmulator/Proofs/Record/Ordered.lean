import CrmEmulator.Proofs.Edits
import CrmEmulator.Proofs.Record

/-!
# CrmEmulator.Proofs.Record.Ordered — records are ordered maps

1. What removing a field and setting several of them does to the names and to the values.
2. `Made`: records with the edits that made them.  A record begins empty, from a list of fields or
   from an object, and is changed by setting a field, removing one, or setting all those of another
   record.
3. Each way keeps the record in step with its edits, so a record that was made holds the finite
   map that its edits leave, with the names in the order in which they arrived.
-/

namespace CrmEmulator

namespace Record

variable {r other : Record} {edits edits' : List (Edit Value)}

/-! ## Names and values -/

theorem names_set (r : Record) (name : String) (value : Value) :
    (r.set name value).names = if name ∈ r.names then r.names else r.names ++ [name] :=
  map_fst_setField name value r.fields

/-- Erasing a field erases its name. -/
theorem map_fst_eraseField (name : String) (fields : List (String × Value)) :
    (eraseField name fields).map (·.1) = (fields.map (·.1)).erase name := by
  induction fields with
  | nil => rfl
  | cons field fields ih =>
    rcases field with ⟨first, old⟩
    unfold eraseField
    split
    · next hfirst =>
      subst hfirst
      exact (List.erase_cons_head ..).symm
    · next hfirst =>
      rw [List.map_cons, ih, List.map_cons, List.erase_cons_tail (by simpa using hfirst)]

/-- Among distinct names, erasing a field leaves the other names in their order. -/
theorem names_erase (h : r.names.Nodup) (name : String) :
    (r.erase name).names = r.names.filter (· ≠ name) := by
  have hnames : (r.erase name).names = r.names.erase name := map_fst_eraseField name r.fields
  rw [hnames, h.erase_eq_filter]
  refine List.filter_congr ?_
  intro key _
  exact (Bool.eq_iff_iff).mpr (by simp)

/-- An erased field is not found any more, and the others are as before. -/
theorem lookup_eraseField {fields : List (String × Value)} (h : (fields.map (·.1)).Nodup)
    (name key : String) :
    lookup key (eraseField name fields) = if key = name then none else lookup key fields := by
  induction fields with
  | nil => simp [eraseField, lookup]
  | cons field fields ih =>
    rcases field with ⟨first, old⟩
    rw [List.map_cons, List.nodup_cons] at h
    obtain ⟨hnew, hrest⟩ := h
    unfold eraseField
    split
    · next hfirst =>
      subst hfirst
      by_cases hkey : key = first
      · -- the names are distinct, so no second field of the name comes to light
        subst hkey
        rw [if_pos rfl]
        exact lookup_eq_none.mpr hnew
      · rw [if_neg hkey, lookup, if_neg (Ne.symm hkey)]
    · next hfirst =>
      rw [lookup, ih hrest, lookup]
      by_cases hkey : first = key
      · subst hkey
        rw [if_pos rfl, if_pos rfl, if_neg hfirst]
      · rw [if_neg hkey, if_neg hkey]

theorem get?_erase (h : r.names.Nodup) (name key : String) :
    (r.erase name).get? key = if key = name then none else r.get? key :=
  lookup_eraseField h name key

/-- Fields that are set keep the names that are there in their places, and append the new ones in
their own order. -/
theorem names_setAll {fields : List (String × Value)} (h : (fields.map (·.1)).Nodup)
    (r : Record) :
    (r.setAll fields).names = r.names ++ (fields.map (·.1)).filter (· ∉ r.names) := by
  induction fields generalizing r with
  | nil => exact (List.append_nil _).symm
  | cons field fields ih =>
    rcases field with ⟨name, value⟩
    rw [List.map_cons, List.nodup_cons] at h
    obtain ⟨hnew, hrest⟩ := h
    have hset := names_set r name value
    have hstep : (r.setAll ((name, value) :: fields)).names =
        (r.set name value).names ++ (fields.map (·.1)).filter (· ∉ (r.set name value).names) :=
      ih hrest (r.set name value)
    rw [hstep, hset, List.map_cons]
    by_cases hold : name ∈ r.names
    · rw [if_pos hold, List.filter_cons_of_neg (by simpa using hold)]
    · -- the later fields have other names, so the new name does not hold any of them back
      have hothers : (fields.map (·.1)).filter (· ∉ r.names ++ [name]) =
          (fields.map (·.1)).filter (· ∉ r.names) := by
        refine List.filter_congr ?_
        intro key hkey
        have hne : key ≠ name := fun heq => hnew (heq ▸ hkey)
        simp [hne]
      rw [if_neg hold, hothers, List.filter_cons_of_pos (by simpa using hold), List.append_assoc]
      rfl

theorem contains_iff (r : Record) (name : String) : r.contains name ↔ name ∈ r.names :=
  List.contains_iff_mem

/-! ## Records and their edits -/

/-- The edits of setting fields one after the other. -/
def puts (fields : List (String × Value)) : List (Edit Value) :=
  fields.map fun (name, value) => .put name value

/-- A record, and the edits that made it. -/
inductive Made : Record → List (Edit Value) → Prop
  | new : Made empty []
  | ofFields (fields : List (String × Value)) : Made (ofFields fields) (puts fields)
  | ofJson {members : List (String × Json)} {r : Record} (h : ofJson? (.obj members) = some r) :
      Made r (puts (members.map fun (name, doc) => (name, Value.ofJson doc)))
  | set {r : Record} {edits : List (Edit Value)} (h : Made r edits) (name : String)
      (value : Value) : Made (r.set name value) (edits ++ [.put name value])
  | erase {r : Record} {edits : List (Edit Value)} (h : Made r edits) (name : String) :
      Made (r.erase name) (edits ++ [.drop name])
  | merge {r other : Record} {edits edits' : List (Edit Value)} (h : Made r edits)
      (h' : Made other edits') : Made (r.merge other) (edits ++ puts other.fields)

/-- A record is in step with edits: it has the names and the values that they leave. -/
def Follows (r : Record) (edits : List (Edit Value)) : Prop := Edit.Keeps r.names r.get? edits

theorem follows_empty : Follows empty [] := Edit.Keeps.empty

/-- A record that follows edits follows one more when a field is set. -/
theorem Follows.set (h : Follows r edits) (name : String) (value : Value) :
    Follows (r.set name value) (edits ++ [.put name value]) :=
  h.put value (names_set r name value) fun key => get?_set r name key value

/-- A record that follows edits follows one more when a field is erased. -/
theorem Follows.erase (h : Follows r edits) (name : String) :
    Follows (r.erase name) (edits ++ [.drop name]) :=
  h.drop (names_erase h.nodup name) (get?_erase h.nodup name)

/-- A record that follows edits follows all further ones when fields are set one after the other. -/
theorem Follows.setAll (h : Follows r edits) (fields : List (String × Value)) :
    Follows (r.setAll fields) (edits ++ puts fields) := by
  induction fields generalizing r edits with
  | nil =>
    rw [puts, List.map_nil, List.append_nil]
    exact h
  | cons field fields ih =>
    have hrest := ih (h.set field.1 field.2)
    rw [List.append_assoc] at hrest
    exact hrest

/-- Every record that operations make follows the edits that they stand for. -/
theorem Made.follows (h : Made r edits) : Follows r edits := by
  induction h with
  | new => exact follows_empty
  | ofFields fields => exact follows_empty.setAll fields
  | ofJson h =>
    cases h
    exact follows_empty.setAll _
  | set _ name value ih => exact ih.set name value
  | erase _ name ih => exact ih.erase name
  | merge _ _ ih _ => exact ih.setAll _

/-! ## The main result -/

/-- A record that was made has distinct names.  It holds under each name, and in number, what the
last edits of each name leave.  A name is there exactly if it has arrived for good, and the names
are in the order in which they did: setting a field that is there leaves every name in its place,
and merging appends the new names in the order of the other record. -/
theorem records_are_ordered_maps {r : Record} {edits : List (Edit Value)} (h : Made r edits) :
    r.names.Nodup ∧
    (∀ name, r.get? name = (Edit.contents edits).lookup name) ∧
    (∀ name, r.contains name ↔ name ∈ Edit.contents edits) ∧
    r.size = (Edit.contents edits).keys.card ∧
    (∀ name, name ∈ r.names ↔ ∃ i, Edit.Arrives edits name i) ∧
    r.names.Pairwise (Edit.Before edits) ∧
    (∀ name value, name ∈ r.names → (r.set name value).names = r.names) ∧
    ∀ other edits', Made other edits' →
      (r.merge other).names = r.names ++ other.names.filter (· ∉ r.names) := by
  have hfollows := h.follows
  refine ⟨hfollows.nodup, hfollows.get?_eq, ?_, ?_, ?_, hfollows.ordered, ?_, ?_⟩
  · intro name
    rw [contains_iff, hfollows.mem_iff]
  · have hlength : r.size = r.names.length := (List.length_map _).symm
    rw [hlength, hfollows.length_eq]
  · intro name
    rw [hfollows.mem_iff]
    constructor
    · exact Edit.exists_arrival
    · rintro ⟨i, hi⟩
      exact hi.mem
  · intro name value hold
    rw [names_set, if_pos hold]
  · intro other edits' hother
    exact names_setAll hother.follows.nodup r

/-- An account that loses its id and gets one back, with a town, from another record. -/
def movedAccount : Record :=
  ((ofFields [("Id", .text "001"), ("Name", .text "Acme"), ("Id", .text "002")]).erase "Id").merge
    (ofFields [("Town", .text "Ystad"), ("Name", .text "Acme AB"), ("Id", .text "003")])

/-- The edits that make the account. -/
def movedEdits : List (Edit Value) := [
  .put "Id" (.text "001"), .put "Name" (.text "Acme"), .put "Id" (.text "002"), .drop "Id",
  .put "Town" (.text "Ystad"), .put "Name" (.text "Acme AB"), .put "Id" (.text "003")]

theorem made_movedAccount : Made movedAccount movedEdits :=
  .merge (.erase (.ofFields _) "Id") (.ofFields _)

/-- The name was there all along, the town came after it, and the id is the last to arrive. -/
theorem movedAccount_order :
    Made movedAccount movedEdits ∧
      movedAccount.names = ["Name", "Town", "Id"] ∧
      movedAccount.names.Pairwise (Edit.Before movedEdits) ∧
      (Edit.contents movedEdits).lookup "Id" = some (.text "003") ∧
      (Edit.contents movedEdits).keys.card = 3 := by
  obtain ⟨-, hget?, -, hsize, -, hordered, -⟩ := records_are_ordered_maps made_movedAccount
  have hid : movedAccount.get? "Id" = some (.text "003") := by decide
  have hthree : movedAccount.size = 3 := by decide
  refine ⟨made_movedAccount, by decide, hordered, ?_, ?_⟩
  · rw [← hget?, hid]
  · rw [← hsize, hthree]

end Record

end CrmEmulator
