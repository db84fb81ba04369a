import CrmEmulator.Proofs.Org.Run
import CrmEmulator.Proofs.Schema.Validation
import CrmEmulator.Proofs.Store.Change

/-!
# CrmEmulator.Proofs.Org.ReadOnly — fields that updates may not write

1. Every way to change a stored record updates one record with fields that were accepted.
2. All that is accepted for a field that updates may not write is null, and only if the field is
   optional: where nothing is required, null passes by every rule, that of access among them.
3. So an update keeps such a field, unless null was sent for it; then the field is cleared.
-/

namespace CrmEmulator

/-! ## Rows that change a record -/

namespace RowProcessor

/-- A revision that succeeds edits one record. -/
theorem Revised.edited_of_success {s : Schema} {sent : Record} {st : RowState}
    {outcome : RowResult × RowState} (h : Revised s sent st outcome)
    (hsuccess : outcome.1.isSuccess) :
    Edited s st.supply.now sent st.collection outcome.2.collection := by
  cases h with
  | refused herrors => exact (herrors (List.isEmpty_iff.mp hsuccess)).elim
  | edited h => exact h

/-- An inserted row has created a record if it has not failed. -/
theorem created_insert (p : RowProcessor) (st : RowState) (row : Record) :
    (p.insert st row).1.created = (p.insert st row).1.isSuccess := by
  simp only [insert]
  cases p.schema.violations .create (without "Id" row) <;> rfl

/-- An upsert that creates nothing and succeeds edits one record, without the field that it finds it
by. -/
theorem upsert_edited {p : RowProcessor} {st : RowState} {row : Record}
    (h : (p.upsert st row).1.isSuccess) (hcreated : (p.upsert st row).1.created = false) :
    Edited p.schema st.supply.now (without (p.externalId.getD "Id") row) st.collection
      (p.upsert st row).2.collection := by
  rcases p.upsert_cases st row with ⟨hinsert, -⟩ | hrevised
  · rw [hinsert] at h hcreated
    cases hcreated.symm.trans ((created_insert p st row).trans h)
  · exact hrevised.edited_of_success h

end RowProcessor

/-! ## What updates make of a field -/

namespace Schema

/-- For a field that updates may not write, nothing is accepted but null where it is optional. -/
theorem null_of_violations_eq_nil {s : Schema} {sent : Record}
    (hvalid : s.violations .update sent = []) {name : String} {d : FieldDef}
    (hd : s.field? name = some d) (hreadOnly : d.updateable = false) {value : Value}
    (hsent : (name, value) ∈ sent.fields) : value = .null ∧ d.required = false := by
  rcases (violations_eq_nil.mp hvalid).2 name value hsent d hd with hnull | ⟨hwritable, -⟩
  · exact hnull
  · cases hreadOnly.symm.trans hwritable

end Schema

/-- Of two collections the second has another record in one place.  A field of this record has the
same value in both, or null was sent for it, which is not required, and it holds null now. -/
def KeptOrCleared (name : String) (d : FieldDef) (sent : Record) (before after : Collection) :
    Prop :=
  ∃ front r r' back, before.records = front ++ r :: back ∧ after.records = front ++ r' :: back ∧
    (r'.get? name = r.get? name ∨
      ((name, .null) ∈ sent.fields ∧ d.required = false ∧ r'.get? name = some .null))

/-- An edit keeps a field that may not be updated, or clears it where null was sent. -/
theorem Edited.keptOrCleared {s : Schema} {now : String} {sent : Record} {before after : Collection}
    (h : Edited s now sent before after) {name : String} {d : FieldDef}
    (hd : s.field? name = some d) (hreadOnly : d.updateable = false)
    (hstamp : name ∉ ["LastModifiedDate", "SystemModstamp"]) :
    KeptOrCleared name d sent before after := by
  cases h with
  | mk front back r hvalid =>
    refine ⟨front, r, _, back, rfl, rfl, ?_⟩
    by_cases hid : name = "Id"
    · -- the id is not taken from what is sent, whatever its definition says
      subst hid
      exact .inl (Record.get?_id_updated r now sent)
    have hopen : name ∉ Record.protectedFields := by
      rw [Record.protectedFields, List.mem_cons, not_or]
      exact ⟨hid, hstamp⟩
    rw [Record.get?_updated hopen]
    cases hsent : sent.last? name with
    | none => exact .inl rfl
    | some value =>
      have hmem : (name, value) ∈ sent.fields :=
        List.mem_reverse.mp (Record.mem_of_lookup hsent)
      rcases Schema.null_of_violations_eq_nil hvalid hd hreadOnly hmem with ⟨rfl, hoptional⟩
      exact .inr ⟨hmem, hoptional, rfl⟩

/-- What holds without some field of the row holds with it. -/
theorem KeptOrCleared.without {name field : String} {d : FieldDef} {row : Record}
    {before after : Collection}
    (h : KeptOrCleared name d (RowProcessor.without field row) before after) :
    KeptOrCleared name d row before after := by
  rcases h with ⟨front, r, r', back, hbefore, hafter, hkept | ⟨hnull, hoptional, hcleared⟩⟩
  · exact ⟨front, r, r', back, hbefore, hafter, .inl hkept⟩
  · exact ⟨front, r, r', back, hbefore, hafter,
      .inr ⟨(List.mem_filter.mp hnull).1, hoptional, hcleared⟩⟩

namespace Org

/-- A field that updates may not write keeps its value in every record that a request or a row
changes, unless null is sent for it while it is optional. -/
theorem changes_keep_or_clear {o : Org} {object : String} {s : Schema} {c : Collection}
    (hschema : o.catalog.find? object = some s)
    (hc : Store.lookup object o.store.collections = some c) {name : String} {d : FieldDef}
    (hd : s.field? name = some d) (hreadOnly : d.updateable = false)
    (hstamp : name ∉ ["LastModifiedDate", "SystemModstamp"]) :
    (∀ id body o', o.updateRecord object id body = .ok o' →
      ∃ sent c', bodyFields body = .ok sent ∧ o'.store.collection object = .ok c' ∧
        KeptOrCleared name d sent c c') ∧
    (∀ field text body o', o.upsertRecord object field text body = .ok (.updated, o') →
      ∃ sent c', bodyFields body = .ok sent ∧ o'.store.collection object = .ok c' ∧
        KeptOrCleared name d sent c c') ∧
    (∀ externalId supply row result st,
      (RowProcessor.mk s .update externalId).process ⟨c, supply⟩ row = (result, st) →
        result.isSuccess → KeptOrCleared name d row c st.collection) ∧
    (∀ externalId supply row result st,
      (RowProcessor.mk s .upsert externalId).process ⟨c, supply⟩ row = (result, st) →
        result.isSuccess → result.created = false → KeptOrCleared name d row c st.collection) := by
  have hput (st : RowState) :
      (o.putRowState object st).store.collection object = .ok st.collection :=
    collection_eq_ok.mpr (Store.lookup_replace hc st.collection)
  -- each of the four ways is an edit of one record
  refine ⟨?_, ?_, ?_, ?_⟩
  · intro id body o' h
    rcases updateRecord_ok h with ⟨s', c', sent, r, hs, hc', hsent, hfound, hvalid, rfl⟩
    obtain rfl : s = s' := Option.some.inj (hschema.symm.trans hs)
    obtain rfl : c = c' := Option.some.inj (hc.symm.trans hc')
    have hedited := Collection.edited_update hfound hvalid o.supply.now
    exact ⟨sent, _, hsent, hput _, hedited.keptOrCleared hd hreadOnly hstamp⟩
  · intro field text body o' h
    rcases upsertRecord_ok h with ⟨s', c', sent, hs, hc', hsent, hupdated | ⟨id, hwhat, -⟩⟩
    · rcases hupdated with ⟨r, hfound, hvalid, -, rfl⟩
      obtain rfl : s = s' := Option.some.inj (hschema.symm.trans hs)
      obtain rfl : c = c' := Option.some.inj (hc.symm.trans hc')
      have hedited := Collection.edited_updateByText hfound hvalid o.supply.now
      exact ⟨sent, _, hsent, hput _, hedited.keptOrCleared hd hreadOnly hstamp⟩
    · cases hwhat
  · intro externalId supply row result st hrow hsuccess
    rcases Prod.ext_iff.mp hrow with ⟨rfl, rfl⟩
    have hrevised := RowProcessor.update_revised ⟨s, .update, externalId⟩ ⟨c, supply⟩ row
    exact ((hrevised.edited_of_success hsuccess).keptOrCleared hd hreadOnly hstamp).without
  · intro externalId supply row result st hrow hsuccess hfound
    rcases Prod.ext_iff.mp hrow with ⟨rfl, rfl⟩
    exact ((RowProcessor.upsert_edited hsuccess hfound).keptOrCleared hd hreadOnly hstamp).without

/-- An object with a number that is set once and for all. -/
def numbered : Schema where
  name := "Account"
  idPrefix := "001"
  fields := [("AccountNumber", { updateable := false })]

/-- One record of this object. -/
def numberedAccount : Collection :=
  ⟨[⟨[("Id", .text "001A"), ("AccountNumber", .text "A-1")]⟩]⟩

/-- An organisation with this record. -/
def withNumbered : Org :=
  { ofCatalog ⟨[numbered]⟩ {} ⟨0, 0⟩ with store := ⟨[("Account", numberedAccount)]⟩ }

/-- A new name is accepted, and the number stays. -/
theorem renamed_account_keeps_number : ∃ o' sent c',
    withNumbered.updateRecord "Account" "001A" (.obj [("Name", .str "b")]) = .ok o' ∧
      bodyFields (.obj [("Name", .str "b")]) = .ok sent ∧
        o'.store.collection "Account" = .ok c' ∧
          (c'.find? "001A").map (·.get? "AccountNumber") = some (some (.text "A-1")) ∧
            KeptOrCleared "AccountNumber" { updateable := false } sent numberedAccount c' := by
  have hschema : withNumbered.catalog.find? "Account" = some numbered := rfl
  have hc : Store.lookup "Account" withNumbered.store.collections = some numberedAccount := rfl
  have hd : numbered.field? "AccountNumber" = some { updateable := false } := rfl
  have h := changes_keep_or_clear hschema hc hd rfl (by decide)
  rcases h.1 "001A" (.obj [("Name", .str "b")]) _ rfl with ⟨sent, c', hsent, hc', hkept⟩
  refine ⟨_, sent, c', rfl, hsent, hc', ?_, hkept⟩
  cases hc'
  decide

/-- Null is accepted for the number, in a body and as the cell that stands for null, and the number
is lost. -/
theorem null_clears_number :
    ((withNumbered.updateRecord "Account" "001A" (.obj [("AccountNumber", .null)])).toOption.map
      fun o' => o'.store.collections.map fun entry =>
        entry.2.records.map (·.get? "AccountNumber")) = some [[some .null]] ∧
    let outcome := (RowProcessor.mk numbered .update none).processRaw ⟨numberedAccount, ⟨0, 0⟩⟩
      [⟨[("Id", .text "001A"), ("AccountNumber", .text "#N/A")]⟩]
    outcome.1.map (·.isSuccess) = [true] ∧
      numberedAccount.records.map (·.get? "AccountNumber") = [some (.text "A-1")] ∧
        outcome.2.collection.records.map (·.get? "AccountNumber") = [some .null] := by
  decide +kernel

end Org

end CrmEmulator
