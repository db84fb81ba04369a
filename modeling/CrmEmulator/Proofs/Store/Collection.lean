import CrmEmulator.Proofs.Record
import CrmEmulator.Store.Collection

/-!
# CrmEmulator.Proofs.Store.Collection — what stored records have in common

1. `Record.Stored`: true of a record when it is created, and kept when it is updated.  The id is
   fixed at creation; no fields that are sent can change it.
2. Changing or removing the first record that satisfies a test touches that record only.
3. `Collection.Integral`: stored records with distinct ids.  It is kept as long as the id of a new
   record is fresh, which `Collection.Known` keeps an account of.
-/

namespace CrmEmulator

namespace Record

/-! ## Stored records -/

/-- Distinct names, the id as first field, and equal stamps of the last change. -/
structure Stored (r : Record) : Prop where
  names_nodup : r.names.Nodup
  id_first : ∃ id, r.fields.head? = some ("Id", .text id)
  stamps : ∃ stamp, r.get? "LastModifiedDate" = some stamp ∧ r.get? "SystemModstamp" = some stamp

/-- A new record begins with its id. -/
theorem head?_created (id now : String) (sent : Record) :
    (created id now sent).fields.head? = some ("Id", .text id) := by
  have hfirst : (empty.set "Id" (.text id)).fields.head? = some ("Id", .text id) := rfl
  have hsent := head?_setAll hfirst (id_not_mem_withoutId sent)
  exact head?_set (head?_set (head?_set hsent (by decide) _) (by decide) _) (by decide) _

theorem id?_of_head? {r : Record} {id : String}
    (h : r.fields.head? = some ("Id", .text id)) : r.id? = some id := by
  simp [id?, get?_of_head? h, Value.text?]

theorem id?_created (id now : String) (sent : Record) : (created id now sent).id? = some id :=
  id?_of_head? (head?_created id now sent)

/-- A new record is in order. -/
theorem stored_created (id now : String) (sent : Record) : (created id now sent).Stored where
  names_nodup := by
    have hfirst : (empty.set "Id" (.text id)).names.Nodup :=
      nodup_names_set (by simp [names, empty]) _ _
    have hsent := nodup_names_setAll hfirst sent.withoutId.fields
    exact nodup_names_set (nodup_names_set (nodup_names_set hsent _ _) _ _) _ _
  id_first := ⟨id, head?_created id now sent⟩
  stamps := ⟨.text now, by simp [created, get?_set]⟩

/-- An update does not reach the id, whatever is sent. -/
theorem get?_id_updated (r : Record) (now : String) (sent : Record) :
    (r.updated now sent).get? "Id" = r.get? "Id" := by
  simp [updated, get?_set, get?_setAll_of_not_mem (id_not_mem_withoutId sent)]

theorem id?_updated (r : Record) (now : String) (sent : Record) :
    (r.updated now sent).id? = r.id? := by
  unfold id?
  rw [get?_id_updated]

/-- A field that the store does not set itself is created as it is sent. -/
theorem get?_created {name : String} (h : name ∉ systemFields) (id now : String) (sent : Record) :
    (created id now sent).get? name = sent.last? name := by
  simp only [systemFields, List.mem_cons, List.not_mem_nil, or_false, not_or] at h
  have hsent := last?_withoutId h.1 sent
  rw [last?] at hsent
  simp [created, get?_set, get?_setAll, get?_empty, h, hsent]

/-- The fields that an update never takes from what is sent. -/
def protectedFields : List String := ["Id", "LastModifiedDate", "SystemModstamp"]

theorem protectedFields_subset : protectedFields ⊆ systemFields := by decide

/-- An update sets the fields that are sent, and leaves all others but the stamps alone. -/
theorem get?_updated {name : String} (h : name ∉ protectedFields) (r : Record) (now : String)
    (sent : Record) : (r.updated now sent).get? name = (sent.last? name).or (r.get? name) := by
  simp only [protectedFields, List.mem_cons, List.not_mem_nil, or_false, not_or] at h
  have hsent := last?_withoutId h.1 sent
  rw [last?] at hsent
  simp [updated, get?_set, get?_setAll, h, hsent]

/-- It makes no difference whether an id is sent. -/
theorem created_withoutId (id now : String) (sent : Record) :
    created id now sent.withoutId = created id now sent := by
  simp [created, withoutId_withoutId]

theorem updated_withoutId (r : Record) (now : String) (sent : Record) :
    r.updated now sent.withoutId = r.updated now sent := by
  simp [updated, withoutId_withoutId]

/-- An update keeps a record in order. -/
theorem Stored.updated {r : Record} (h : r.Stored) (now : String) (sent : Record) :
    (r.updated now sent).Stored where
  names_nodup :=
    nodup_names_set (nodup_names_set (nodup_names_setAll h.names_nodup _) _ _) _ _
  id_first := by
    rcases h.id_first with ⟨id, hid⟩
    have hsent := head?_setAll hid (id_not_mem_withoutId sent)
    exact ⟨id, head?_set (head?_set hsent (by decide) _) (by decide) _⟩
  stamps := ⟨.text now, by simp [Record.updated, get?_set]⟩

end Record

namespace Collection

/-! ## The first record that satisfies a test -/

/-- The records around the first one that satisfies a test stay as they are. -/
theorem split_of_find? {test : Record → Bool} {records : List Record} {r : Record}
    (h : records.find? test = some r) :
    ∃ front back, records = front ++ r :: back ∧
      (∀ change, modifyFirst test change records = front ++ change r :: back) ∧
        removeFirst test records = front ++ back := by
  induction records with
  | nil => cases h
  | cons first rest ih =>
    by_cases htest : test first
    · obtain rfl : first = r := by simpa [htest] using h
      exact ⟨[], rest, rfl, fun change => by simp [modifyFirst, htest], by simp [removeFirst, htest]⟩
    · rcases ih (by simpa [htest] using h) with ⟨front, back, hrecords, hmodify, hremove⟩
      refine ⟨first :: front, back, by rw [hrecords]; rfl, ?_, ?_⟩
      · intro change
        simp [modifyFirst, htest, hmodify]
      · simp [removeFirst, htest, hremove]

theorem id?_of_find? {c : Collection} {id : String} {r : Record} (h : c.find? id = some r) :
    r.id? = some id := by
  simpa [hasId] using List.find?_some h

/-! ## Integrity -/

/-- Stored records with distinct ids. -/
structure Integral (c : Collection) : Prop where
  stored : ∀ r ∈ c.records, r.Stored
  ids_nodup : (c.records.map Record.id?).Nodup

/-- A collection whose ids were all drawn before. -/
structure Known (ids : List String) (c : Collection) : Prop extends c.Integral where
  drawn : ∀ r ∈ c.records, ∃ id ∈ ids, r.id? = some id

namespace Known

variable {ids : List String} {c : Collection}

theorem empty (ids : List String) : Known ids Collection.empty where
  stored := by simp [Collection.empty]
  ids_nodup := by simp [Collection.empty]
  drawn := by simp [Collection.empty]

/-- More ids may have been drawn than are known. -/
theorem mono (h : c.Known ids) {more : List String} (hids : ids ⊆ more) : c.Known more where
  toIntegral := h.toIntegral
  drawn r hr := by
    rcases h.drawn r hr with ⟨id, hid, heq⟩
    exact ⟨id, hids hid, heq⟩

/-- A record with an id that was not drawn before. -/
theorem push (h : c.Known ids) {id : String} (hfresh : id ∉ ids) (now : String) (sent : Record) :
    (c.push (.created id now sent)).Known (ids ++ [id]) where
  stored r hr := by
    rcases List.mem_append.mp hr with hr | hr
    · exact h.stored r hr
    · exact List.mem_singleton.mp hr ▸ Record.stored_created id now sent
  ids_nodup := by
    simp only [Collection.push, List.map_append, List.map_cons, List.map_nil, Record.id?_created]
    rw [List.nodup_append]
    refine ⟨h.ids_nodup, by simp, ?_⟩
    -- the ids of the other records were drawn before, and this one was not
    rintro a ha b hb rfl
    rcases List.mem_map.mp ha with ⟨r, hr, heq⟩
    rcases h.drawn r hr with ⟨known, hknown, hr⟩
    obtain rfl : known = id := by simpa [← heq, hr] using hb
    exact hfresh hknown
  drawn r hr := by
    rcases List.mem_append.mp hr with hr | hr
    · rcases h.drawn r hr with ⟨known, hknown, heq⟩
      exact ⟨known, List.mem_append_left _ hknown, heq⟩
    · rw [List.mem_singleton.mp hr]
      exact ⟨id, by simp, Record.id?_created id now sent⟩

variable {front back : List Record} {r : Record}

/-- An update of a record keeps a collection in order. -/
theorem update (h : (Collection.mk (front ++ r :: back)).Known ids) (now : String)
    (sent : Record) : (Collection.mk (front ++ r.updated now sent :: back)).Known ids where
  stored x hx := by
    rcases List.mem_append.mp hx with hx | hx
    · exact h.stored x (by simp [hx])
    rcases List.mem_cons.mp hx with rfl | hx
    · exact (h.stored r (by simp)).updated now sent
    · exact h.stored x (by simp [hx])
  ids_nodup := by simpa [Record.id?_updated] using h.ids_nodup
  drawn x hx := by
    rcases List.mem_append.mp hx with hx | hx
    · exact h.drawn x (by simp [hx])
    rcases List.mem_cons.mp hx with rfl | hx
    · rw [Record.id?_updated]
      exact h.drawn r (by simp)
    · exact h.drawn x (by simp [hx])

/-- Removing a record keeps a collection in order. -/
theorem remove (h : (Collection.mk (front ++ r :: back)).Known ids) :
    (Collection.mk (front ++ back)).Known ids := by
  have hsub : List.Sublist (front ++ back) (front ++ r :: back) :=
    List.Sublist.append_left (List.sublist_cons_self r back) front
  exact {
    stored := fun x hx => h.stored x (hsub.subset hx)
    ids_nodup := h.ids_nodup.sublist (hsub.map _)
    drawn := fun x hx => h.drawn x (hsub.subset hx) }

end Known

end Collection

end CrmEmulator
