import CrmEmulator.Proofs.Bulk.ExternalId
import CrmEmulator.Proofs.Org.Agreement
import CrmEmulator.Proofs.Org.ReadOnly

/-!
# CrmEmulator.Proofs.Org.Upserting — the record that an upsert finds

An upsert, by a request or as a row of a batch, goes by the text of a value and not by the value.

1. Of the records with the text in the field it changes the first and leaves the others alone.
2. What that record held in the field is a value with the text.  This may be null, whose text is
   `null`, and so an upsert with that text overwrites a record that has no external id.
3. A record that a request created is found by the same request when it is made again, unless the
   organisation sets the field itself.
-/

namespace CrmEmulator

/-! ## The first record with a text -/

namespace Collection

variable {field text : String}

/-- Records that fail a test are passed over. -/
theorem modifyFirst_append {test : Record → Bool} {front : List Record}
    (h : ∀ x ∈ front, ¬ test x) (change : Record → Record) (back : List Record) :
    modifyFirst test change (front ++ back) = front ++ modifyFirst test change back := by
  induction front with
  | nil => rfl
  | cons x front ih =>
    rw [List.forall_mem_cons] at h
    rw [List.cons_append, modifyFirst, if_neg h.1, ih h.2, List.cons_append]

/-- The first record with the text is the one that is updated. -/
theorem updateByText_append {front : List Record} (h : ∀ x ∈ front, ¬ hasText field text x)
    {r : Record} (hr : hasText field text r) (back : List Record) (now : String) (sent : Record) :
    updateByText ⟨front ++ r :: back⟩ field text now sent =
      ⟨front ++ r.updated now sent :: back⟩ := by
  rw [updateByText, modifyFirst_append h, modifyFirst, if_pos hr]

/-- A record with a text is found last if no other has the text. -/
theorem findByText?_push {c : Collection} (h : c.findByText? field text = none) {r : Record}
    (hr : hasText field text r) : (c.push r).findByText? field text = some r := by
  rw [findByText?] at h ⊢
  simp [push, List.find?_append, h, hr]

theorem updateByText_push {c : Collection} (h : c.findByText? field text = none) {r : Record}
    (hr : hasText field text r) (now : String) (sent : Record) :
    (c.push r).updateByText field text now sent = c.push (r.updated now sent) :=
  updateByText_append (List.find?_eq_none.mp h) hr [] now sent

/-- A collection after the first record with a text in a field was changed.  The record keeps its
id, and what it held in the field has this text: it is not null, but for the text that is written
for null. -/
inductive Overwritten (field text : String) : Collection → Collection → Prop
  | mk {front back : List Record} {r r' : Record} {v : Value}
      (hfirst : ∀ x ∈ front, ¬ hasText field text x) (hvalue : r.get? field = some v)
      (htext : v.coerceText = text) (hnull : v.isNull → text = "null") (hid : r'.id? = r.id?) :
      Overwritten field text ⟨front ++ r :: back⟩ ⟨front ++ r' :: back⟩

/-- Updating the record that is found overwrites it and nothing else. -/
theorem overwritten_updateByText {c : Collection} {r : Record}
    (hfound : c.findByText? field text = some r) (now : String) (sent : Record) :
    Overwritten field text c (c.updateByText field text now sent) := by
  rcases c with ⟨records⟩
  rcases List.find?_eq_some_iff_append.mp hfound with ⟨hr, front, back, rfl, hfront⟩
  have hfirst : ∀ x ∈ front, ¬ hasText field text x := fun x hx => by simpa using hfront x hx
  rcases hasText_iff.mp hr with ⟨v, hvalue, htext⟩
  rw [updateByText_append hfirst hr]
  refine .mk hfirst hvalue htext ?_ (Record.id?_updated r now sent)
  intro hnull
  cases v with
  | null => exact htext.symm
  | _ => cases hnull

end Collection

namespace RowProcessor

variable {p : RowProcessor} {external : String}

/-- An upsert goes by the external id of the row. -/
theorem upsert_eq (hexternal : p.externalId.getD "Id" = external) (st : RowState) (row : Record) :
    p.upsert st row =
      match row.key? external with
      | none => p.insert st row
      | some key =>
        match st.collection.findByText? external key with
        | none => p.insert st row
        | some found =>
          match p.schema.violations .update (without external row) with
          | [] => (.success (found.id?.getD "") false row, { st with
              collection := st.collection.updateByText external key st.supply.now
                (without external row) })
          | errors => (.failure found.id? errors row, st) := by
  subst hexternal
  rfl

/-- A row that reports an update has found a record by its external id. -/
theorem upsert_found (hexternal : p.externalId.getD "Id" = external) {st : RowState} {row : Record}
    (h : (p.upsert st row).1.isSuccess) (hcreated : (p.upsert st row).1.created = false) :
    ∃ key r, row.key? external = some key ∧ st.collection.findByText? external key = some r ∧
      (p.upsert st row).2.collection =
        st.collection.updateByText external key st.supply.now (without external row) := by
  -- an inserted row has created a record or failed
  have hinsert : p.upsert st row ≠ p.insert st row := by
    intro heq
    rw [heq] at h hcreated
    cases hcreated.symm.trans ((created_insert p st row).trans h)
  rw [upsert_eq hexternal] at h hinsert ⊢
  cases hkey : row.key? external with
  | none => exact absurd (by rw [hkey]) hinsert
  | some key =>
    rw [hkey] at h hinsert
    cases hfound : st.collection.findByText? external key with
    | none => exact absurd (by simp only [hfound]) hinsert
    | some r =>
      refine ⟨key, r, rfl, hfound, ?_⟩
      cases hvalid : p.schema.violations .update (without external row) with
      | nil => simp only [hfound]
      | cons => simp [hfound, hvalid, RowResult.failure, RowResult.isSuccess] at h

end RowProcessor

namespace Org

/-! ## Requests -/

section

variable {o : Org} {object field text : String} {s : Schema} {c : Collection} {body : Json}
  {sent : Record}

/-- What a request changes or stores, if the object is known. -/
theorem upsertRecord_eq (hschema : o.catalog.find? object = some s)
    (hc : Store.lookup object o.store.collections = some c) (hbody : bodyFields body = .ok sent) :
    o.upsertRecord object field text body =
      match c.findByText? field text with
      | some _ =>
        match s.violations .update sent with
        | [] => .ok (.updated, o.putRowState object
            ⟨c.updateByText field text o.supply.now sent, o.supply⟩)
        | found => .error (.violations found)
      | none =>
        let fields := (Record.empty.set field (.text text)).merge sent
        match s.violations .create fields with
        | [] =>
          let (id, supply) := o.supply.freshId s.idPrefix
          .ok (.created id, o.putRowState object ⟨c.push (.created id supply.now fields), supply⟩)
        | found => .error (.violations found) := by
  have hschema := require_eq_ok.mpr hschema
  have hstore := collection_eq_ok.mpr hc
  simp only [upsertRecord, hschema, hstore, hbody, ok_bind, check]
  cases c.findByText? field text with
  | some r => cases s.violations .update sent <;> rfl
  | none =>
    cases s.violations .create ((Record.empty.set field (.text text)).merge sent) with
    | nil => simp [addRecord, Store.insert, hstore, ok_bind, putRowState, pure, Except.pure]
    | cons => rfl

theorem collection_putRowState (hc : Store.lookup object o.store.collections = some c)
    (st : RowState) : (o.putRowState object st).store.collection object = .ok st.collection :=
  collection_eq_ok.mpr (Store.lookup_replace hc st.collection)

end

/-- An upsert that reports an update, by a request with a text or by a row with a value of this
text, has changed the first record that has a value of this text in the field.  The value is not
null, unless the text is the one that is written for null. -/
theorem upserts_overwrite_carriers (object field text : String) :
    (∀ o o' body, upsertRecord o object field text body = .ok (.updated, o') →
      ∃ c c', o.store.collection object = .ok c ∧ o'.store.collection object = .ok c' ∧
        Collection.Overwritten field text c c') ∧
    (∀ (p : RowProcessor) st row v, p.operation = .upsert → p.externalId.getD "Id" = field →
      row.get? field = some v → v.coerceText = text →
        (p.process st row).1.isSuccess → (p.process st row).1.created = false →
          Collection.Overwritten field text st.collection (p.process st row).2.collection) := by
  refine ⟨?_, ?_⟩
  · intro o o' body h
    rcases upsertRecord_ok h with ⟨s, c, sent, -, hc, -, hupdated | ⟨id, hwhat, -⟩⟩
    · rcases hupdated with ⟨r, hfound, -, -, rfl⟩
      exact ⟨c, _, collection_eq_ok.mpr hc, collection_putRowState hc _,
        Collection.overwritten_updateByText hfound o.supply.now sent⟩
    · cases hwhat
  · intro p st row v hop hexternal hvalue htext hsuccess hcreated
    simp only [RowProcessor.process, hop] at hsuccess hcreated ⊢
    rcases RowProcessor.upsert_found hexternal hsuccess hcreated with
      ⟨key, r, hkey, hfound, hcollection⟩
    -- the key is the text of the value
    rcases Record.keyText?_eq_some.mp hkey with ⟨v', hvalue', -, hkeytext⟩
    obtain rfl : v = v' := Option.some.inj (hvalue.symm.trans hvalue')
    obtain rfl : text = key := htext.symm.trans hkeytext
    rw [hcollection]
    exact Collection.overwritten_updateByText hfound st.supply.now _

/-- An object with an external id. -/
def coded : Schema where
  name := "Account"
  idPrefix := "001"
  fields := [("Code", {}), ("Name", { required := true })]

/-- One record that has no external id, and one that has. -/
def codedAccounts : Collection := ⟨[
  ⟨[("Id", .text "001A"), ("Code", .null), ("Name", .text "a")]⟩,
  ⟨[("Id", .text "001B"), ("Code", .integer 7), ("Name", .text "b")]⟩]⟩

/-- An organisation with these records. -/
def withCoded : Org :=
  { ofCatalog ⟨[coded]⟩ {} ⟨0, 0⟩ with store := ⟨[("Account", codedAccounts)]⟩ }

/-- Codes and names of a collection. -/
def codesAndNames (c : Collection) : List (Value × Value) :=
  c.records.map fun r => (r.getOrNull "Code", r.getOrNull "Name")

/-- A request and a row find the record by its number, and change no other. -/
theorem seven_overwrites_its_carrier :
    (∃ o' c c', withCoded.upsertRecord "Account" "Code" "7" (.obj [("Name", .str "c")]) =
        .ok (.updated, o') ∧
      withCoded.store.collection "Account" = .ok c ∧ o'.store.collection "Account" = .ok c' ∧
        codesAndNames c' = [(.null, .text "a"), (.integer 7, .text "c")] ∧
          Collection.Overwritten "Code" "7" c c') ∧
    let outcome := (RowProcessor.mk coded .upsert (some "Code")).process ⟨codedAccounts, ⟨0, 0⟩⟩
      ⟨[("Code", .text "7"), ("Name", .text "c")]⟩
    outcome.1.isSuccess ∧ outcome.1.created = false ∧
      Collection.Overwritten "Code" "7" codedAccounts outcome.2.collection := by
  rcases upserts_overwrite_carriers "Account" "Code" "7" with ⟨hrequest, hrow⟩
  refine ⟨?_, by decide, by decide, ?_⟩
  · rcases hrequest withCoded _ (.obj [("Name", .str "c")]) rfl with ⟨c, c', hc, hc', hover⟩
    refine ⟨_, c, c', rfl, hc, hc', ?_, hover⟩
    cases hc'
    decide
  · exact hrow ⟨coded, .upsert, some "Code"⟩ ⟨codedAccounts, ⟨0, 0⟩⟩
      ⟨[("Code", .text "7"), ("Name", .text "c")]⟩ (.text "7") rfl rfl rfl rfl (by decide)
      (by decide)

/-- A record without an external id is overwritten by an upsert with the text `null`, which is the
external id of no record, as a request and as a row. -/
theorem null_is_overwritten :
    codesAndNames codedAccounts = [(.null, .text "a"), (.integer 7, .text "b")] ∧
    ((withCoded.upsertRecord "Account" "Code" "null" (.obj [("Name", .str "c")])).toOption.map
      fun outcome => (outcome.1, outcome.2.store.collections.map fun entry =>
        codesAndNames entry.2)) =
      some (.updated, [[(.null, .text "c"), (.integer 7, .text "b")]]) ∧
    let outcome := (RowProcessor.mk coded .upsert (some "Code")).processRaw
      ⟨codedAccounts, ⟨0, 0⟩⟩ [⟨[("Code", .text "null"), ("Name", .text "c")]⟩]
    outcome.1.map (fun result => (result.isSuccess, result.created)) = [(true, false)] ∧
      codesAndNames outcome.2.collection = [(.null, .text "c"), (.integer 7, .text "b")] := by
  decide +kernel

/-! ## Upserts that are repeated -/

/-- What an upsert stores has the text that it looked for, if the body names no other. -/
theorem hasText_created {field text : String} (hfield : field ∉ systemFields) {sent : Record}
    (hsent : ∀ v, (field, v) ∈ sent.fields → v.coerceText = text) (id now : String) :
    Collection.hasText field text
      (.created id now ((Record.empty.set field (.text text)).merge sent)) := by
  have hnames : ((Record.empty.set field (.text text)).merge sent).names.Nodup :=
    Record.nodup_names_setAll (Record.nodup_names_set (r := Record.empty) List.nodup_nil _ _) _
  rw [Collection.hasText_iff, Record.get?_created hfield, Record.last?_of_nodup hnames,
    Record.merge, Record.get?_setAll, Record.get?_set, if_pos rfl]
  cases hlast : Record.lookup field sent.fields.reverse with
  | none => exact ⟨.text text, rfl, rfl⟩
  | some v => exact ⟨v, rfl, hsent v (List.mem_reverse.mp (Record.mem_of_lookup hlast))⟩

/-- A request creates a record if it finds none. -/
theorem upsertRecord_created {o o' : Org} {object field text id : String} {body : Json}
    (h : o.upsertRecord object field text body = .ok (.created id, o')) :
    ∃ s c sent, o.catalog.find? object = some s ∧
      Store.lookup object o.store.collections = some c ∧ bodyFields body = .ok sent ∧
        c.findByText? field text = none ∧
          o' = o.putRowState object
            ⟨c.push (.created id o.supply.now ((Record.empty.set field (.text text)).merge sent)),
              (o.supply.freshId s.idPrefix).2⟩ := by
  rcases upsertRecord_ok h with ⟨s, c, sent, hschema, hc, hsent, -⟩
  refine ⟨s, c, sent, hschema, hc, hsent, ?_⟩
  rw [upsertRecord_eq hschema hc hsent] at h
  cases hfound : c.findByText? field text with
  | some r =>
    simp only [hfound] at h
    split at h <;> cases h
  | none =>
    simp only [hfound] at h
    split at h
    · cases h
      exact ⟨rfl, rfl⟩
    · cases h

/-- An upsert that has created a record changes this record when it is repeated, or is refused; it
does not create another one.  The field must not be one that the organisation sets itself, and the
body must not give it another text. -/
theorem repeated_upsert_updates {o o' : Org} {object field text id : String} {body : Json}
    (hfield : field ∉ systemFields)
    (hbody : ∀ sent v, bodyFields body = .ok sent → (field, v) ∈ sent.fields →
      v.coerceText = text)
    (hcreate : o.upsertRecord object field text body = .ok (.created id, o')) (millis : Nat) :
    ∃ c r, o.store.collection object = .ok c ∧ o'.store.collection object = .ok (c.push r) ∧
      r.id? = some id ∧
      ((∃ last r', (o'.atTime millis).upsertRecord object field text body = .ok (.updated, last) ∧
          last.store.collection object = .ok (c.push r') ∧ r'.id? = some id) ∨
        ∃ found, found ≠ [] ∧
          (o'.atTime millis).upsertRecord object field text body = .error (.violations found)) := by
  rcases upsertRecord_created hcreate with ⟨s, c, sent, hschema, hc, hsent, hnone, rfl⟩
  have htext := hasText_created hfield (hbody sent · hsent) id o.supply.now
  generalize hr : Record.created id o.supply.now _ = r at htext
  have hid : r.id? = some id := hr ▸ Record.id?_created id _ _
  generalize hlater : (o.putRowState object ⟨c.push r, _⟩).atTime millis = later
  -- the catalog is the same, and the new record is the only one with the text
  have hc' : Store.lookup object later.store.collections = some (c.push r) := by
    rw [← hlater]
    exact Store.lookup_replace hc _
  have hschema' : later.catalog.find? object = some s := hlater ▸ hschema
  have hfound := Collection.findByText?_push hnone htext
  refine ⟨c, r, collection_eq_ok.mpr hc, collection_putRowState hc _, hid, ?_⟩
  rw [upsertRecord_eq hschema' hc' hsent]
  cases s.violations .update sent with
  | nil =>
    refine .inl ⟨_, r.updated later.supply.now sent, by simp only [hfound]; rfl, ?_, ?_⟩
    · rw [collection_putRowState hc', Collection.updateByText_push hnone htext]
    · rw [Record.id?_updated, hid]
  | cons first more => exact .inr ⟨first :: more, List.cons_ne_nil _ _, by simp only [hfound]⟩

/-- A body that gives an external id as a number. -/
def eight : Json := .obj [("Name", .str "c"), ("Code", .int 8)]

/-- The second upsert changes the record that the first one has created. -/
theorem repeated_eight_updates : ∃ (id : String) (o' last : Org) (c : Collection) (r r' : Record),
    withCoded.upsertRecord "Account" "Code" "8" eight = .ok (.created id, o') ∧
      o'.store.collection "Account" = .ok (c.push r) ∧ r.id? = some id ∧
      (o'.atTime 5).upsertRecord "Account" "Code" "8" eight = .ok (.updated, last) ∧
      last.store.collection "Account" = .ok (c.push r') ∧ r'.id? = some id := by
  have hbody : ∀ sent v, bodyFields eight = .ok sent → ("Code", v) ∈ sent.fields →
      v.coerceText = "8" := by
    intro sent v hsent hv
    cases hsent
    have hv : ("Code", v) ∈ [("Name", Value.text "c"), ("Code", .integer 8)] := hv
    obtain rfl : v = .integer 8 := by simpa using hv
    rfl
  have hcreate : ∃ id o', withCoded.upsertRecord "Account" "Code" "8" eight =
      .ok (.created id, o') := ⟨_, _, rfl⟩
  rcases hcreate with ⟨id, o', hcreate⟩
  rcases repeated_upsert_updates (by decide) hbody hcreate 5 with
    ⟨c, r, -, hc', hid, hupdated | ⟨found, -, hrefused⟩⟩
  · rcases hupdated with ⟨last, r', hagain, hlast, hid'⟩
    exact ⟨id, o', last, c, r, r', hcreate, hc', hid, hagain, hlast, hid'⟩
  · cases hcreate
    cases hrefused

/-- An id is not taken from the address, so an upsert by an id that no record has creates a record
each time it is made. -/
theorem repeated_upsert_by_id_creates : ∃ (id₁ id₂ : String) (o₁ o₂ : Org) (c₁ c₂ : Collection),
    withCoded.upsertRecord "Account" "Id" "001X" eight = .ok (.created id₁, o₁) ∧
      o₁.upsertRecord "Account" "Id" "001X" eight = .ok (.created id₂, o₂) ∧
      o₁.store.collection "Account" = .ok c₁ ∧ o₂.store.collection "Account" = .ok c₂ ∧
      c₂.size = c₁.size + 1 :=
  ⟨_, _, _, _, _, _, rfl, rfl, rfl, rfl, rfl⟩

end Org

end CrmEmulator
