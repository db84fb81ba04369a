import CrmEmulator.Proofs.Org.Run
import CrmEmulator.Proofs.Store.Change

/-!
# CrmEmulator.Proofs.Org.Invariant — what holds of every stored record

1. A property of single records, which may depend on the schema of their object, holds in every
   organisation that is reached from an empty one as soon as it is true of records when they are
   created and kept when they are updated (`run_everywhere`).
2. What only certain operations can bring about was there at first, or one of them has brought it
   about (`sometime_of_run`).
-/

namespace CrmEmulator

/-- Every record of a collection has a property. -/
def Collection.All (P : Record → Prop) (c : Collection) : Prop := ∀ r ∈ c.records, P r

/-- A property of the records of an object that no write can break. -/
structure Kept (P : Schema → Record → Prop) : Prop where
  created : ∀ s (supply : Supply) sent, s.violations .create sent = [] →
    P s (.created (supply.freshId s.idPrefix).1 supply.now sent)
  updated : ∀ s r now sent, s.violations .update sent = [] → P s r → P s (r.updated now sent)

variable {P : Schema → Record → Prop}

/-- A write keeps a property of all records, if creating and updating do. -/
theorem Write.all {s : Schema} {st st' : RowState} (h : Write s st st') (hkept : Kept P)
    (hall : st.collection.All (P s)) : st'.collection.All (P s) := by
  cases h with
  | kept => exact hall
  | appended c supply hvalid =>
    intro r hr
    rcases List.mem_append.mp hr with hr | hr
    · exact hall r hr
    · rw [List.mem_singleton.mp hr]
      exact hkept.created s supply _ hvalid
  | edited front back old supply hvalid =>
    intro r hr
    rcases List.mem_append.mp hr with hr | hr
    · exact hall r (List.mem_append_left _ hr)
    -- the record that was updated is the only one that differs
    rcases List.mem_cons.mp hr with rfl | hr
    · exact hkept.updated s old _ _ hvalid (hall old (by simp))
    · exact hall r (by simp [hr])
  | removed front back old supply =>
    intro r hr
    refine hall r ?_
    simp only [List.mem_append, List.mem_cons] at hr ⊢
    exact hr.imp_right .inr

/-- Several writes keep a property of all records, if creating and updating do. -/
theorem Writes.all {s : Schema} {st st' : RowState} (h : Writes s st st') (hkept : Kept P)
    (hall : st.collection.All (P s)) : st'.collection.All (P s) := by
  induction h with
  | nil => exact hall
  | cons h _ ih => exact ih (h.all hkept hall)

namespace Org

/-- Every record of every object that is defined has a property. -/
def Everywhere (P : Schema → Record → Prop) (o : Org) : Prop :=
  ∀ object c s, (object, c) ∈ o.store.collections → o.catalog.find? object = some s →
    c.All (P s)

/-- Every property holds of all records of an empty organisation. -/
theorem everywhere_ofCatalog (P : Schema → Record → Prop) (c : Catalog) (settings : Settings)
    (supply : Supply) : Everywhere P (ofCatalog c settings supply) := by
  intro object collection s hmem _
  rcases List.mem_map.mp hmem with ⟨name, -, heq⟩
  cases heq
  nofun

/-- An effect keeps a property of all records, too. -/
theorem Effect.everywhere {o : Org} {op : Op} {store : Store} (h : Effect o op store)
    (hkept : Kept P) (hall : Everywhere P o) : Everywhere P { o with store } := by
  cases h with
  | kept => exact hall
  | cleared =>
    intro object c s hmem _
    rcases List.mem_map.mp hmem with ⟨old, -, heq⟩
    cases heq
    nofun
  | @written target s' st st' hschema hc hwrites hids =>
    intro object c s hmem hs
    rcases Store.mem_setCollection hc hmem with heq | hbefore
    · -- the schema is the one under which the rows were written
      cases heq
      obtain rfl : s' = s := Option.some.inj (hschema.symm.trans hs)
      exact hwrites.all hkept (hall target _ s' (Store.mem_of_lookup hc) hschema)
    · exact hall object c s hbefore hs

/-- A property that no write can break is one of every record at all times. -/
theorem run_everywhere (hkept : Kept P) (c : Catalog) (settings : Settings) (supply : Supply)
    (ops : List Op) : Everywhere P ((ofCatalog c settings supply).run ops) := by
  have hrun (o : Org) (hall : Everywhere P o) : Everywhere P (o.run ops) := by
    induction ops generalizing o with
    | nil => exact hall
    | cons op ops ih =>
      rcases step_effect o op with ⟨heffect, hcatalog⟩
      refine ih _ ?_
      -- no request changes the catalog, so records are judged by the same schemas as before
      have hstep := heffect.everywhere hkept hall
      unfold Everywhere at hstep ⊢
      rwa [hcatalog]
  exact hrun _ (everywhere_ofCatalog P c settings supply)

/-! ## Causes -/

/-- Some operation of a run has a property in the organisation that it meets. -/
inductive Sometime (P : Org → Op → Prop) : Org → List Op → Prop
  | now {o : Org} {op : Op} {ops : List Op} (h : P o op) : Sometime P o (op :: ops)
  | later {o : Org} {op : Op} {ops : List Op} (h : Sometime P (o.step op) ops) :
      Sometime P o (op :: ops)

/-- What is the case after a run was so before it, or an operation that can cause it is in the
run. -/
theorem sometime_of_run {Q : Org → Prop} {P : Org → Op → Prop}
    (hstep : ∀ o op, Q (o.step op) → Q o ∨ P o op) {o : Org} {ops : List Op} (h : Q (o.run ops)) :
    Q o ∨ Sometime P o ops := by
  induction ops generalizing o with
  | nil => exact .inl h
  | cons op ops ih =>
    rcases ih h with hnext | hlater
    · rcases hstep o op hnext with hbefore | hcause
      · exact .inl hbefore
      · exact .inr (.now hcause)
    · exact .inr (.later hlater)

/-- An organisation holds a record of an object. -/
def Stores (o : Org) (object : String) (r : Record) : Prop :=
  ∃ c, (object, c) ∈ o.store.collections ∧ r ∈ c.records

/-- An empty organisation stores nothing. -/
theorem not_stores_ofCatalog (c : Catalog) (settings : Settings) (supply : Supply)
    (object : String) (r : Record) : ¬ (ofCatalog c settings supply).Stores object r := by
  rintro ⟨collection, hmem, hr⟩
  rcases List.mem_map.mp hmem with ⟨name, -, heq⟩
  cases heq
  cases hr

theorem Stores.of_store_eq {o o' : Org} {object : String} {r : Record} (h : o'.Stores object r)
    (hstore : o'.store = o.store) : o.Stores object r := by
  rcases h with ⟨c, hmem, hr⟩
  exact ⟨c, hstore ▸ hmem, hr⟩

/-- A record that is stored after a collection is replaced was stored before, or is in the new
collection. -/
theorem Stores.of_setCollection {o o' : Org} {target object : String} {c new : Collection}
    {r : Record} (h : o'.Stores object r) (hstore : o'.store = o.store.setCollection target new)
    (hc : Store.lookup target o.store.collections = some c) :
    o.Stores object r ∨ (object = target ∧ r ∈ new.records) := by
  rcases h with ⟨collection, hmem, hr⟩
  rw [hstore] at hmem
  rcases Store.mem_setCollection hc hmem with heq | hbefore
  · cases heq
    exact .inr ⟨rfl, hr⟩
  · exact .inl ⟨collection, hbefore, hr⟩

/-- A record that is stored after an operation was stored before, or the operation is a call or a
batch of rows for its object. -/
theorem Outcome.stores {o o' : Org} {op : Op} (h : Outcome o op o') {object : String} {r : Record}
    (hr : o'.Stores object r) : o.Stores object r ∨
      (∃ call, op = .call call ∧ o.perform call = .ok o' ∧ object = call.object) ∨
        ∃ b, o.rowBatch? op = some b ∧ o.Processed b o' ∧ object = b.object ∧
          r ∈ b.after.collection.records := by
  cases h with
  | aside hstore => exact .inl (hr.of_store_eq hstore)
  | call hcall =>
    rcases perform_written hcall with ⟨hstore, -⟩ | ⟨-, hc, -⟩
    · exact .inl (hr.of_store_eq hstore)
    · refine (hr.of_setCollection rfl hc).imp_right fun ⟨hobject, _⟩ => ?_
      exact .inl ⟨_, rfl, hcall, hobject⟩
  | rows hb hprocessed =>
    have hrows := hr.of_setCollection hprocessed.store hprocessed.collection
    refine hrows.imp_right fun ⟨hobject, hmem⟩ => ?_
    exact .inr ⟨_, hb, hprocessed, hobject, hmem⟩
  | cleared =>
    rcases hr with ⟨c, hmem, hr⟩
    rcases List.mem_map.mp hmem with ⟨old, -, heq⟩
    cases heq
    cases hr

end Org

end CrmEmulator
