import CrmEmulator.Registry

/-!
# CrmEmulator.Proofs.Registry — looking things up after a change

1. What `get?` finds after `put`, `erase` and `append`: the change under its own name, and
   everything else as it was.
2. Which entries there are after a change: what was changed, and some of those before it.
3. Which names there are after a change, in which order.
-/

namespace CrmEmulator

namespace Registry

variable {α : Type}

/-- After something was placed it is found under its name, and everything else is as before. -/
theorem lookup_place (name key : String) (x : α) (entries : List (String × α)) :
    lookup key (place name x entries) = if key = name then some x else lookup key entries := by
  induction entries with
  | nil => simp [place, lookup, eq_comm]
  | cons entry rest ih =>
    rcases entry with ⟨first, old⟩
    unfold place
    split
    · next hname =>
      subst hname
      by_cases hkey : first = key
      · simp [lookup, hkey]
      · simp [lookup, hkey, Ne.symm hkey]
    · next hname =>
      by_cases hkey : first = key
      · subst hkey
        simp [lookup, hname]
      · simp [lookup, hkey, ih]

@[simp] theorem get?_empty (key : String) : (empty : Registry α).get? key = none := rfl

@[simp] theorem get?_put (r : Registry α) (name key : String) (x : α) :
    (r.put name x).get? key = if key = name then some x else r.get? key :=
  lookup_place name key x r.entries

/-- Putting what is there changes nothing. -/
theorem put_of_get? {r : Registry α} {name : String} {x : α} (h : r.get? name = some x) :
    r.put name x = r := by
  rcases r with ⟨entries⟩
  refine congrArg Registry.mk ?_
  have hentries : lookup name entries = some x := h
  clear h
  induction entries with
  | nil => cases hentries
  | cons entry rest ih =>
    rcases entry with ⟨first, old⟩
    unfold lookup at hentries
    unfold place
    split at hentries
    · next hname =>
      cases hentries
      rw [if_pos hname]
    · next hname => rw [if_neg hname, ih hentries]

/-- What is put last stands. -/
theorem put_put (r : Registry α) (name : String) (x y : α) :
    (r.put name x).put name y = r.put name y := by
  rcases r with ⟨entries⟩
  refine congrArg Registry.mk ?_
  show place name y (place name x entries) = place name y entries
  induction entries with
  | nil => simp [place]
  | cons entry rest ih => by_cases hname : entry.1 = name <;> simp [place, hname, ih]

@[simp] theorem get?_erase (r : Registry α) (name key : String) :
    (r.erase name).get? key = if key = name then none else r.get? key := by
  rcases r with ⟨entries⟩
  show lookup key (entries.filter (·.1 ≠ name)) = if key = name then none else lookup key entries
  induction entries with
  | nil => simp [lookup]
  | cons entry rest ih =>
    rcases entry with ⟨first, x⟩
    by_cases hname : first = name
    · subst hname
      by_cases hkey : first = key
      · subst hkey
        simpa [lookup] using ih
      · simpa [lookup, hkey, Ne.symm hkey] using ih
    · by_cases hkey : first = key
      · subst hkey
        simp [lookup, hname]
      · simpa [lookup, hname, hkey] using ih

/-- What is added at the end does not stand in the way of what is there. -/
theorem get?_append_of_get? {r : Registry α} {key : String} {y : α} (h : r.get? key = some y)
    (name : String) (x : α) : (r.append name x).get? key = some y := by
  rcases r with ⟨entries⟩
  have hentries : lookup key entries = some y := h
  show lookup key (entries ++ [(name, x)]) = some y
  induction entries with
  | nil => cases hentries
  | cons entry rest ih =>
    rw [List.cons_append]
    unfold lookup at hentries ⊢
    split
    · next hkey => simpa [hkey] using hentries
    · next hkey =>
      have hrest : lookup key rest = some y := by simpa [hkey] using hentries
      exact ih hrest hrest

/-! ## Entries -/

/-- What is found is an entry. -/
theorem mem_of_get? {r : Registry α} {key : String} {x : α} (h : r.get? key = some x) :
    (key, x) ∈ r.entries := by
  rcases r with ⟨entries⟩
  have hentries : lookup key entries = some x := h
  show (key, x) ∈ entries
  clear h
  induction entries with
  | nil => cases hentries
  | cons entry rest ih =>
    unfold lookup at hentries
    split at hentries
    · next hkey =>
      cases hentries
      rw [← hkey]
      exact List.mem_cons_self
    · exact List.mem_cons_of_mem _ (ih hentries)

/-- Every entry after putting is the new one or was there before. -/
theorem mem_put {r : Registry α} {name : String} {x : α} {entry : String × α}
    (h : entry ∈ (r.put name x).entries) : entry = (name, x) ∨ entry ∈ r.entries := by
  rcases r with ⟨entries⟩
  have hentries : entry ∈ place name x entries := h
  show entry = (name, x) ∨ entry ∈ entries
  clear h
  induction entries with
  | nil => exact .inl (List.mem_singleton.mp hentries)
  | cons first rest ih =>
    unfold place at hentries
    split at hentries
    · next hname =>
      rcases List.mem_cons.mp hentries with rfl | hrest
      · exact .inl (by rw [hname])
      · exact .inr (List.mem_cons_of_mem _ hrest)
    · rcases List.mem_cons.mp hentries with rfl | hrest
      · exact .inr List.mem_cons_self
      · exact (ih hrest).imp_right (List.mem_cons_of_mem _)

theorem mem_erase {r : Registry α} {name : String} {entry : String × α}
    (h : entry ∈ (r.erase name).entries) : entry ∈ r.entries :=
  (List.mem_filter.mp h).1

/-- Every entry after appending is the new one or was there before. -/
theorem mem_append {r : Registry α} {name : String} {x : α} {entry : String × α}
    (h : entry ∈ (r.append name x).entries) : entry = (name, x) ∨ entry ∈ r.entries := by
  rcases List.mem_append.mp h with hold | hnew
  · exact .inr hold
  · exact .inl (List.mem_singleton.mp hnew)

/-! ## Names -/

/-- Putting appends a name if it is new. -/
theorem names_put (r : Registry α) (name : String) (x : α) :
    (r.put name x).names = if name ∈ r.names then r.names else r.names ++ [name] := by
  rcases r with ⟨entries⟩
  show (place name x entries).map (·.1) =
    if name ∈ entries.map (·.1) then entries.map (·.1) else entries.map (·.1) ++ [name]
  induction entries with
  | nil => rfl
  | cons entry rest ih =>
    rcases entry with ⟨first, old⟩
    unfold place
    split
    · next hname => simp [hname]
    · next hname =>
      simp only [List.map_cons, ih, List.mem_cons, Ne.symm hname, false_or]
      split <;> rfl

/-- A registry contains the names that it has. -/
theorem contains_iff {r : Registry α} {name : String} : r.contains name ↔ name ∈ r.names := by
  rcases r with ⟨entries⟩
  show (lookup name entries).isSome ↔ name ∈ entries.map (·.1)
  induction entries with
  | nil => simp [lookup]
  | cons entry rest ih =>
    by_cases hname : entry.1 = name
    · simp [lookup, hname]
    · simpa [lookup, hname, Ne.symm hname] using ih

/-- Erasing leaves the other names in their order. -/
theorem names_erase (r : Registry α) (name : String) :
    (r.erase name).names = r.names.filter (· ≠ name) := by
  show (r.entries.filter (·.1 ≠ name)).map (·.1) = (r.entries.map (·.1)).filter (· ≠ name)
  rw [List.filter_map]
  rfl

/-- Erasing a name that is not there changes nothing. -/
theorem erase_of_not_mem {r : Registry α} {name : String} (h : name ∉ r.names) :
    r.erase name = r := by
  refine congrArg Registry.mk (List.filter_eq_self.mpr ?_)
  intro entry hentry
  have hne : entry.1 ≠ name := fun heq => h (heq ▸ List.mem_map_of_mem hentry)
  simpa using hne

/-- Under a new name, adding at the end is putting. -/
theorem append_eq_put {r : Registry α} {name : String} (h : name ∉ r.names) (x : α) :
    r.append name x = r.put name x := by
  rcases r with ⟨entries⟩
  refine congrArg Registry.mk ?_
  have hnew : name ∉ entries.map (·.1) := h
  show entries ++ [(name, x)] = place name x entries
  clear h
  induction entries with
  | nil => rfl
  | cons entry rest ih =>
    rw [List.map_cons, List.mem_cons, not_or] at hnew
    unfold place
    rw [if_neg (Ne.symm hnew.1), ← ih hnew.2]
    rfl

end Registry

end CrmEmulator
