import CrmEmulator.Bulk.Row
import CrmEmulator.Proofs.Store.Collection
import CrmEmulator.Store.Basic

/-!
# CrmEmulator.Proofs.Store.Write — what one write does to a collection

1. `Write`: all that one request for a single record or one row of a batch can do to a collection
   and to the supply.  Every invariant of stored records is proved from it.
2. Each row of a batch is a write.  A row that is to change a record is refused or updates one
   record (`Revised`); an upsert is such a row, or it inserts (`upsert_cases`).
3. The ids that are drawn from a supply between two moments.
4. A collection stays one of stored records with distinct ids, as long as no id is drawn twice.
-/

namespace CrmEmulator

/-! ## Writes -/

/-- Nothing happens, valid fields make a new record at the end, valid fields are set on one record,
or one record is removed. -/
inductive Write (s : Schema) : RowState → RowState → Prop
  | kept (st : RowState) : Write s st st
  | appended (c : Collection) (supply : Supply) {sent : Record}
      (hvalid : s.violations .create sent = []) :
      Write s ⟨c, supply⟩
        ⟨c.push (.created (supply.freshId s.idPrefix).1 supply.now sent),
          (supply.freshId s.idPrefix).2⟩
  | edited (front back : List Record) (r : Record) (supply : Supply) {sent : Record}
      (hvalid : s.violations .update sent = []) :
      Write s ⟨⟨front ++ r :: back⟩, supply⟩ ⟨⟨front ++ r.updated supply.now sent :: back⟩, supply⟩
  | removed (front back : List Record) (r : Record) (supply : Supply) :
      Write s ⟨⟨front ++ r :: back⟩, supply⟩ ⟨⟨front ++ back⟩, supply⟩

/-- Several writes, one after the other. -/
inductive Writes (s : Schema) : RowState → RowState → Prop
  | nil (st : RowState) : Writes s st st
  | cons {st mid last : RowState} (h : Write s st mid) (hs : Writes s mid last) : Writes s st last

theorem Write.single {s : Schema} {st st' : RowState} (h : Write s st st') : Writes s st st' :=
  .cons h (.nil st')

/-- One record was updated with accepted fields. -/
inductive Edited (s : Schema) (now : String) (sent : Record) : Collection → Collection → Prop
  | mk (front back : List Record) (r : Record) (hvalid : s.violations .update sent = []) :
      Edited s now sent ⟨front ++ r :: back⟩ ⟨front ++ r.updated now sent :: back⟩

/-- An edit is a write that draws no id. -/
theorem Edited.write {s : Schema} {supply : Supply} {sent : Record} {c c' : Collection}
    (h : Edited s supply.now sent c c') : Write s ⟨c, supply⟩ ⟨c', supply⟩ := by
  cases h with
  | mk front back r hvalid => exact .edited front back r supply hvalid

namespace Collection

/-- Updating the record with an id edits one record. -/
theorem edited_update {s : Schema} {c : Collection} {id : String} {r sent : Record}
    (hfound : c.find? id = some r) (hvalid : s.violations .update sent = []) (now : String) :
    Edited s now sent c (c.update id now sent) := by
  rcases c with ⟨records⟩
  rcases split_of_find? hfound with ⟨front, back, rfl, hmodify, -⟩
  rw [update, hmodify]
  exact .mk front back r hvalid

/-- Updating the record with a text edits one record. -/
theorem edited_updateByText {s : Schema} {c : Collection} {field text : String} {r sent : Record}
    (hfound : c.findByText? field text = some r) (hvalid : s.violations .update sent = [])
    (now : String) : Edited s now sent c (c.updateByText field text now sent) := by
  rcases c with ⟨records⟩
  rcases split_of_find? hfound with ⟨front, back, rfl, hmodify, -⟩
  rw [updateByText, hmodify]
  exact .mk front back r hvalid

/-- Removing a record that is there is a write. -/
theorem write_remove (s : Schema) {c : Collection} {id : String} {r : Record}
    (hfound : c.find? id = some r) (supply : Supply) :
    Write s ⟨c, supply⟩ ⟨c.remove id, supply⟩ := by
  rcases c with ⟨records⟩
  rcases split_of_find? hfound with ⟨front, back, rfl, -, hremove⟩
  simp only [remove, hremove]
  exact .removed front back r supply

end Collection

/-! ## Rows -/

namespace Record

/-- The text of an external id, unless it is missing or blank. -/
def keyText? (value : Option Value) : Option String :=
  (value.filter fun v => !v.isBlank).map Value.coerceText

/-- The external id of a record by a field. -/
def key? (field : String) (r : Record) : Option String := keyText? (r.get? field)

end Record

namespace RowProcessor

/-- A row that is inserted is a write: of one new record, or of nothing. -/
theorem insert_write (p : RowProcessor) (st : RowState) (input : Record) :
    Write p.schema st (p.insert st input).2 := by
  simp only [insert]
  cases hvalid : p.schema.violations .create (without "Id" input) with
  | nil => exact .appended st.collection st.supply hvalid
  | cons => exact .kept st

/-- What becomes of a row that is to change a record: it is refused, or one record is updated. -/
inductive Revised (s : Schema) (sent : Record) (st : RowState) : RowResult × RowState → Prop
  | refused {id : Option String} {errors : List Violation} {input : Record} (h : errors ≠ []) :
      Revised s sent st (.failure id errors input, st)
  | edited {id : String} {input : Record} {c : Collection}
      (h : Edited s st.supply.now sent st.collection c) :
      Revised s sent st (.success id false input, { st with collection := c })

/-- A revision is a write. -/
theorem Revised.write {s : Schema} {sent : Record} {st : RowState} {outcome : RowResult × RowState}
    (h : Revised s sent st outcome) : Write s st outcome.2 := by
  cases h with
  | refused => exact .kept st
  | edited h => exact h.write

/-- A row that updates is a revision. -/
theorem update_revised (p : RowProcessor) (st : RowState) (input : Record) :
    Revised p.schema (without "Id" input) st (p.update st input) := by
  unfold update
  split
  · exact .refused (List.cons_ne_nil _ _)
  split
  · exact .refused (List.cons_ne_nil _ _)
  next hfound =>
    simp only
    split
    · next hvalid => exact .edited (Collection.edited_update hfound hvalid st.supply.now)
    · next hinvalid => exact .refused hinvalid

/-- An upsert inserts a row, unless a record has its external id; then it changes this record. -/
theorem upsert_cases (p : RowProcessor) (st : RowState) (input : Record) :
    let external := p.externalId.getD "Id"
    (p.upsert st input = p.insert st input ∧
      ∀ key, input.key? external = some key → st.collection.findByText? external key = none) ∨
    Revised p.schema (without external input) st (p.upsert st input) := by
  intro external
  unfold upsert
  simp only
  split
  · next hkey =>
    -- the row has no key
    refine .inl ⟨rfl, fun key hkey' => ?_⟩
    cases hkey.symm.trans hkey'
  · next key hkey =>
    split
    · next hnone =>
      -- no record has it
      refine .inl ⟨rfl, fun key' hkey' => ?_⟩
      obtain rfl : key = key' := Option.some.inj (hkey.symm.trans hkey')
      exact hnone
    · next hfound =>
      refine .inr ?_
      split
      · next hvalid => exact .edited (Collection.edited_updateByText hfound hvalid st.supply.now)
      · next hinvalid => exact .refused hinvalid

/-- A row of an upsert is a write, whether it inserts or revises. -/
theorem upsert_write (p : RowProcessor) (st : RowState) (input : Record) :
    Write p.schema st (p.upsert st input).2 := by
  rcases p.upsert_cases st input with ⟨hinsert, -⟩ | hrevised
  · rw [hinsert]
    exact insert_write p st input
  · exact hrevised.write

/-- A row that deletes is a write. -/
theorem delete_write (s : Schema) (st : RowState) (input : Record) :
    Write s st (delete st input).2 := by
  unfold delete
  split
  · exact .kept st
  split
  · exact .kept st
  next hfound => exact Collection.write_remove s hfound st.supply

/-- A row is a write, whatever the operation. -/
theorem process_write (p : RowProcessor) (st : RowState) (input : Record) :
    Write p.schema st (p.process st input).2 := by
  unfold process
  split
  · exact insert_write p st input
  · exact (update_revised p st input).write
  · exact upsert_write p st input
  · exact delete_write p.schema st input
  all_goals exact .kept st

/-- Rows are writes, one after the other. -/
theorem processAll_writes (p : RowProcessor) (st : RowState) (rows : List Record) :
    Writes p.schema st (p.processAll st rows).2 := by
  induction rows generalizing st with
  | nil => exact .nil st
  | cons row rows ih => exact .cons (process_write p st row) (ih _)

/-- Rows are processed one after the other, so they may be cut in two anywhere. -/
theorem processAll_append (p : RowProcessor) (st : RowState) (rows more : List Record) :
    (p.processAll st (rows ++ more)).2 =
      (p.processAll (p.processAll st rows).2 more).2 := by
  induction rows generalizing st with
  | nil => rfl
  | cons row rows ih => exact ih _

end RowProcessor

/-! ## Ids drawn from a supply -/

namespace Supply

/-- The ids with a prefix for all serial numbers that are used up between two moments. -/
def drawn (idPrefix : String) (before after : Supply) : List String :=
  (List.range' before.serial (after.serial - before.serial)).map (idText idPrefix)

@[simp] theorem drawn_self (idPrefix : String) (supply : Supply) :
    drawn idPrefix supply supply = [] := by
  simp [drawn]

@[simp] theorem drawn_freshId (idPrefix : String) (supply : Supply) :
    drawn idPrefix supply (supply.freshId idPrefix).2 = [(supply.freshId idPrefix).1] := by
  simp [drawn, freshId]

/-- Ids that are drawn one after the other are drawn together. -/
theorem drawn_append (idPrefix : String) {first mid last : Supply}
    (hmid : first.serial ≤ mid.serial) (hlast : mid.serial ≤ last.serial) :
    drawn idPrefix first mid ++ drawn idPrefix mid last = drawn idPrefix first last := by
  have hstart : first.serial + (mid.serial - first.serial) = mid.serial := by omega
  have hcount : mid.serial - first.serial + (last.serial - mid.serial) =
      last.serial - first.serial := by omega
  have hrange := List.range'_append_1 (s := first.serial) (m := mid.serial - first.serial)
    (n := last.serial - mid.serial)
  rw [hstart, hcount] at hrange
  rw [drawn, drawn, drawn, ← List.map_append, hrange]

end Supply

/-- A write never takes back an id. -/
theorem Write.serial_le {s : Schema} {st st' : RowState} (h : Write s st st') :
    st.supply.serial ≤ st'.supply.serial := by
  cases h with
  | appended => exact Nat.le_succ _
  | _ => exact Nat.le_refl _

/-- Several writes never take back an id. -/
theorem Writes.serial_le {s : Schema} {st st' : RowState} (h : Writes s st st') :
    st.supply.serial ≤ st'.supply.serial := by
  induction h with
  | nil => exact Nat.le_refl _
  | cons h _ ih => exact Nat.le_trans h.serial_le ih

/-! ## Integrity -/

/-- A write keeps a collection in order if the id that it draws is new. -/
theorem Write.known {s : Schema} {st st' : RowState} (h : Write s st st') {ids : List String}
    (hfresh : (ids ++ Supply.drawn s.idPrefix st.supply st'.supply).Nodup)
    (hknown : st.collection.Known ids) :
    st'.collection.Known (ids ++ Supply.drawn s.idPrefix st.supply st'.supply) := by
  cases h with
  | kept => simpa using hknown
  | appended c supply =>
    rw [Supply.drawn_freshId] at hfresh ⊢
    rw [List.nodup_append] at hfresh
    have hnew : (supply.freshId s.idPrefix).1 ∉ ids := by
      intro hmem
      exact hfresh.2.2 _ hmem _ (by simp) rfl
    exact hknown.push hnew _ _
  | edited => simpa using hknown.update _ _
  | removed => simpa using hknown.remove

/-- Writes that draw new ids keep a collection in order. -/
theorem Writes.known {s : Schema} {st st' : RowState} (h : Writes s st st') {ids : List String}
    (hfresh : (ids ++ Supply.drawn s.idPrefix st.supply st'.supply).Nodup)
    (hknown : st.collection.Known ids) :
    st'.collection.Known (ids ++ Supply.drawn s.idPrefix st.supply st'.supply) := by
  induction h generalizing ids with
  | nil => simpa using hknown
  | cons h hs ih =>
    -- the first write draws the first of the ids, the others draw the rest
    rw [← Supply.drawn_append _ h.serial_le hs.serial_le, ← List.append_assoc] at hfresh ⊢
    exact ih hfresh (h.known (List.nodup_append.mp hfresh).1 hknown)

end CrmEmulator
