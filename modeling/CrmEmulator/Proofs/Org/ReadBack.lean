import CrmEmulator.Proofs.Bulk.QueryResults
import CrmEmulator.Proofs.Json.Reading
import CrmEmulator.Proofs.Org.Agreement
import CrmEmulator.Proofs.Org.Integrity

/-!
# CrmEmulator.Proofs.Org.ReadBack — a created record is read back as it was sent

1. `Json.held`: what a value of a record makes of a document.  Only a whole number beyond 64 signed
   bits changes, into the nearest double.
2. `ownFields`: the fields of a body or an answer that the organisation does not set itself.  They
   are the same in what is sent, in what is stored and in what is shown.
3. A record that was created is read under its new id with its own fields as they were held.
-/

namespace CrmEmulator

/-! ## Numbers -/

/-- What a record holds of a document: a whole number beyond 64 signed bits as the nearest double,
and everything else as it is. -/
def Json.held : Json → Json
  | .int n => if Numeral.inInt64 n then .int n else .double (Double.ofInt n)
  | doc => doc

/-- A value of a document becomes that value again, except that a count beyond the 64-bit integers
becomes a double. -/
theorem Value.toJson_ofJson {doc : Json} (h : doc.inRange) :
    (Value.ofJson doc).toJson = doc.held := by
  cases doc with
  | null | bool | str | arr | obj => rfl
  | double x => exact if_pos h
  | int n =>
    have hrange : -Numeral.int64Bound ≤ n ∧ n < 2 * Numeral.int64Bound := by
      simpa [Json.inRange] using h
    have hbound : Numeral.int64Bound = 9223372036854775808 := rfl
    cases hn : Numeral.inInt64 n with
    | true =>
      have hn' : -Numeral.int64Bound ≤ n ∧ n < Numeral.int64Bound := by
        simpa [Numeral.inInt64] using hn
      have hint : (Int64.ofInt n).toInt = n := Int64.toInt_ofInt_of_le (by omega) (by omega)
      simp [ofJson, Json.held, hn, toJson, hint]
    | false =>
      have hsmall : n.natAbs < 18446744073709551616 := by omega
      have hfinite := Double.isFinite_ofInt hsmall
      simp [ofJson, Json.held, hn, toJson, Json.ofDouble, hfinite]

/-! ## Fields of their own -/

/-- The names under which the organisation shows what it sets itself. -/
def reservedNames : List String := "attributes" :: systemFields

/-- The fields, of a record or of a document, that the organisation does not set itself. -/
def ownFields {α : Type} (fields : List (String × α)) : List (String × α) :=
  fields.filter fun field => !reservedNames.contains field.1

theorem ownFields_append {α : Type} (fields more : List (String × α)) :
    ownFields (fields ++ more) = ownFields fields ++ ownFields more :=
  List.filter_append ..

theorem ownFields_map {α β : Type} (f : α → β) (fields : List (String × α)) :
    ownFields (fields.map fun field => (field.1, f field.2)) =
      (ownFields fields).map fun field => (field.1, f field.2) :=
  List.filter_map ..

theorem ownFields_cons_of_mem {α : Type} {name : String} (h : name ∈ reservedNames) (x : α)
    (fields : List (String × α)) : ownFields ((name, x) :: fields) = ownFields fields := by
  simp [ownFields, h]

theorem ownFields_cons_of_not_mem {α : Type} {name : String} (h : name ∉ reservedNames) (x : α)
    (fields : List (String × α)) :
    ownFields ((name, x) :: fields) = (name, x) :: ownFields fields := by
  simp [ownFields, h]

/-- Setting the first field with a reserved name, in a record or a document, is not seen in the
other fields. -/
theorem ownFields_setFirst {α : Type} {name : String} (h : name ∈ reservedNames) {x : α}
    (set : List (String × α) → List (String × α)) (hnil : set [] = [(name, x)])
    (hcons : ∀ first old rest, set ((first, old) :: rest) =
      if first = name then (first, x) :: rest else (first, old) :: set rest)
    (fields : List (String × α)) : ownFields (set fields) = ownFields fields := by
  induction fields with
  | nil => rw [hnil, ownFields_cons_of_mem h]
  | cons field fields ih =>
    rcases field with ⟨first, old⟩
    rw [hcons]
    split
    · next hfirst => rw [ownFields_cons_of_mem (hfirst ▸ h), ownFields_cons_of_mem (hfirst ▸ h)]
    · by_cases hown : first ∈ reservedNames
      · rw [ownFields_cons_of_mem hown, ownFields_cons_of_mem hown, ih]
      · rw [ownFields_cons_of_not_mem hown, ownFields_cons_of_not_mem hown, ih]

namespace Record

theorem ownFields_set {name : String} (h : name ∈ reservedNames) (r : Record) (value : Value) :
    ownFields (r.set name value).fields = ownFields r.fields :=
  ownFields_setFirst h (setField name value) rfl (fun _ _ _ => rfl) r.fields

/-- Leaving out the id does not change the own fields. -/
theorem ownFields_withoutId (r : Record) : ownFields r.withoutId.fields = ownFields r.fields := by
  unfold withoutId ownFields
  rw [List.filter_filter]
  refine List.filter_congr fun field _ => ?_
  by_cases hid : field.1 = "Id" <;> simp [hid, reservedNames, systemFields]

/-- A stored record has the own fields of what was sent. -/
theorem ownFields_created {sent : Record} (h : sent.names.Nodup) (id now : String) :
    ownFields (created id now sent).fields = ownFields sent.fields := by
  have hnames : ((empty.set "Id" (.text id)).names ++ sent.withoutId.fields.map (·.1)).Nodup := by
    have hsent : (sent.withoutId.fields.map (·.1)).Nodup := h.sublist (List.filter_sublist.map _)
    exact List.nodup_cons.mpr ⟨id_not_mem_withoutId sent, hsent⟩
  have hall : ((empty.set "Id" (.text id)).setAll sent.withoutId.fields).fields =
      ("Id", .text id) :: sent.withoutId.fields :=
    fields_foldl_of_nodup (fun _ _ _ _ => rfl) hnames
  unfold created
  rw [ownFields_set (by decide), ownFields_set (by decide), ownFields_set (by decide), hall,
    ownFields_cons_of_mem (by decide), ownFields_withoutId]

end Record

namespace Json

/-- A new member is set behind the others. -/
theorem setMember_of_lookup_none {name : String} {members : List (String × Json)}
    (h : lookup name members = none) (doc : Json) :
    setMember name doc members = members ++ [(name, doc)] := by
  induction members with
  | nil => rfl
  | cons member members ih =>
    rcases member with ⟨first, old⟩
    unfold lookup at h
    split at h
    · cases h
    · next hfirst => simp [setMember, hfirst, ih h]

theorem ownFields_setMember {name : String} (h : name ∈ reservedNames) (doc : Json)
    (members : List (String × Json)) : ownFields (setMember name doc members) = ownFields members :=
  ownFields_setFirst h (setMember name doc) rfl (fun _ _ _ => rfl) members

end Json

namespace Record

/-- Set on members that have none of them, fields with distinct names come last and in order. -/
theorem ownFields_foldl_setMember {fields : List (String × Value)} {members : List (String × Json)}
    (hnodup : (fields.map (·.1)).Nodup)
    (hnew : ∀ name ∈ fields.map (·.1), name ∉ reservedNames → Json.lookup name members = none) :
    ownFields (fields.foldl (fun members field =>
      Json.setMember field.1 field.2.toJson members) members) =
      ownFields members ++ (ownFields fields).map fun field => (field.1, field.2.toJson) := by
  induction fields generalizing members with
  | nil => simp [ownFields]
  | cons field fields ih =>
    rcases field with ⟨name, value⟩
    rw [List.map_cons, List.nodup_cons] at hnodup
    have hrest : ∀ key ∈ fields.map (·.1), key ∉ reservedNames →
        Json.lookup key (Json.setMember name value.toJson members) = none := by
      intro key hkey hown
      have hne : key ≠ name := fun he => hnodup.1 (he ▸ hkey)
      rw [Json.lookup_setMember, if_neg hne]
      exact hnew key (List.mem_cons_of_mem _ hkey) hown
    rw [List.foldl_cons, ih hnodup.2 hrest]
    by_cases hown : name ∈ reservedNames
    · rw [Json.ownFields_setMember hown, ownFields_cons_of_mem hown]
    · have hnone := hnew name List.mem_cons_self hown
      rw [Json.setMember_of_lookup_none hnone, ownFields_append, ownFields_cons_of_not_mem hown,
        ownFields_cons_of_not_mem hown]
      simp [ownFields]

/-- A record is shown with its own fields in order. -/
theorem exists_project {r : Record} (h : r.names.Nodup) (object version : String) :
    ∃ shown, r.project object [] version = .obj shown ∧
      ownFields shown = (ownFields r.fields).map fun field => (field.1, field.2.toJson) := by
  refine ⟨_, rfl, ?_⟩
  have hnew : ∀ name ∈ r.fields.map (·.1), name ∉ reservedNames →
      Json.lookup name [("attributes", r.attributes object version)] = none := by
    intro name _ hown
    have hne : "attributes" ≠ name := fun he => hown (he ▸ List.mem_cons_self)
    simp [Json.lookup, hne]
  exact (ownFields_foldl_setMember h hnew).trans (by simp [ownFields, reservedNames])

end Record

/-! ## Reading back -/

/-- A record with a new id is found after it was appended. -/
theorem Collection.find?_push_of_none {c : Collection} {id : String} (h : c.find? id = none)
    {r : Record} (hr : r.id? = some id) : (c.push r).find? id = some r := by
  have hid : hasId id r := by simp [hasId, hr]
  unfold find? at h ⊢
  simp [push, List.find?_append, h, hid]

namespace Org

/-- The fields of an object body are its members, in order. -/
theorem bodyFields_obj {members : List (String × Json)} (h : (members.map (·.1)).Nodup)
    {fields : Record} (hfields : bodyFields (.obj members) = .ok fields) :
    fields.fields = members.map fun member => (member.1, Value.ofJson member.2) := by
  cases hfields
  exact Record.fields_ofFields_of_nodup (by simpa [Function.comp_def] using h)

/-- A stored record is shown as it is found. -/
theorem getRecord_putRowState {o : Org} {object id : String} {s : Schema} {c : Collection}
    {st : RowState} {r : Record} (hschema : o.catalog.find? object = some s)
    (hc : Store.lookup object o.store.collections = some c)
    (hfound : st.collection.find? id = some r) (version : String) :
    (o.putRowState object st).getRecord version object id =
      .ok (r.project object [] version) := by
  have hschema := require_eq_ok.mpr hschema
  have hstored : (o.store.setCollection object st.collection).collection object =
      .ok st.collection := collection_eq_ok.mpr (Store.lookup_replace hc _)
  simp only [getRecord, putRowState, hschema, hstored, ok_bind, hfound]
  rfl

/-- A record that was created is read under its new id with the fields of the body that the
organisation does not set itself: in order, and with the values that were sent, but for whole
numbers beyond 64 signed bits. -/
theorem created_record_reads_back {o o' : Org} {object id : String}
    {members : List (String × Json)} (hobject : ¬ isEventName object) (hbody : Sendable members)
    (hcreate : o.createRecord object (.obj members) = .ok (id, o'))
    (hnew : ∀ c, o.store.collection object = .ok c → c.find? id = none) (version : String) :
    ∃ shown, o'.getRecord version object id = .ok (.obj shown) ∧
      ownFields shown = (ownFields members).map fun member => (member.1, member.2.held) := by
  rcases createRecord_ok hobject hcreate with ⟨s, sent, hschema, hfields, hvalid, hadd⟩
  have hsent := bodyFields_obj hbody.names_nodup hfields
  have hnames : sent.names.Nodup := by
    simpa [Record.names, hsent, Function.comp_def] using hbody.names_nodup
  rcases addRecord_ok hadd with ⟨c, hc, -⟩
  have hevent : isEventName object = false := by simpa using hobject
  rw [createRecord_eq hevent hschema hc hfields, hvalid] at hcreate
  cases hcreate
  rcases Record.exists_project (Record.stored_created _ _ sent).names_nodup object version with
    ⟨shown, hshown, hown⟩
  refine ⟨shown, ?_, ?_⟩
  · rw [← hshown]
    -- the record is the first with its id, since no other has it
    have hfound := Collection.find?_push_of_none (hnew c (collection_eq_ok.mpr hc))
      (Record.id?_created _ o.supply.now sent)
    exact getRecord_putRowState hschema hc hfound version
  · rw [hown, Record.ownFields_created hnames, hsent, ownFields_map, List.map_map]
    refine List.map_congr_left fun member hmember => ?_
    have hrange := hbody.inRange member (List.mem_of_mem_filter hmember)
    exact Prod.ext rfl (Value.toJson_ofJson hrange)

/-- A body with a value of every kind, an id that is ignored, and large numbers in a list. -/
def variedBody : List (String × Json) :=
  [("Id", .str "mine"), ("Name", .str "a"), ("Size", .int (-7)), ("Share", .double .epsilon),
    ("Note", .null), ("Open", .bool true), ("Parts", .arr [.int 18446744073709551615]),
    ("CreatedDate", .str "yesterday")]

/-- The body comes back without the id and the date of creation, which a request cannot choose. -/
theorem variedBody_reads_back : ∃ id after shown,
    withAccounts.createRecord "Account" (.obj variedBody) = .ok (id, after) ∧
      after.getRecord "v59.0" "Account" id = .ok (.obj shown) ∧
        ownFields shown = [("Name", .str "a"), ("Size", .int (-7)), ("Share", .double .epsilon),
          ("Note", .null), ("Open", .bool true), ("Parts", .arr [.int 18446744073709551615])] := by
  have hbody : Sendable variedBody := ⟨by decide +kernel, by decide +kernel⟩
  have haccepted : ∃ id after, withAccounts.createRecord "Account" (.obj variedBody) =
      .ok (id, after) := ⟨_, _, rfl⟩
  rcases haccepted with ⟨id, after, hcreate⟩
  have hnew : ∀ c, withAccounts.store.collection "Account" = .ok c → c.find? id = none := by
    intro c hc
    cases hc
    rfl
  rcases created_record_reads_back (by decide) hbody hcreate hnew "v59.0" with
    ⟨shown, hshown, hown⟩
  exact ⟨id, after, shown, hcreate, hshown, hown.trans (by decide +kernel)⟩

/-- The largest number of 64 bits without a sign. -/
def unsignedBody : List (String × Json) := [("Size", .int 18446744073709551615)]

/-- Such a number is not read back as it was sent, but as the next power of two. -/
theorem unsigned_number_is_rounded : Sendable unsignedBody ∧ ∃ id after shown,
    withAccounts.createRecord "Account" (.obj unsignedBody) = .ok (id, after) ∧
      after.getRecord "v59.0" "Account" id = .ok (.obj shown) ∧
        ownFields shown = [("Size", .double (.ofInt 18446744073709551616))] ∧
          ownFields shown ≠ ownFields unsignedBody := by
  refine ⟨⟨by decide, by decide⟩, _, _, _, rfl, rfl, ?_⟩
  decide +kernel

end Org

end CrmEmulator
