import CrmEmulator.Proofs.Org.Run
import CrmEmulator.Proofs.Store.Change

/-!
# CrmEmulator.Proofs.Org.Integrity — the records of a reachable organisation

1. `Store.Known`: every collection is one of stored records with distinct ids, all of which were
   drawn before.  It is kept by every effect that draws new ids only.
2. `RowBatch.Leads`: the rows of a batch go from store to store, each by one change.
3. `Orderly`: what holds of every organisation that is reached from an empty one.
-/

namespace CrmEmulator

namespace Store

/-! ## Known ids -/

/-- Every collection is in order, and holds no ids but those that were drawn. -/
def Known (ids : List String) (s : Store) : Prop := ∀ entry ∈ s.collections, entry.2.Known ids

/-- In an empty store there are no ids. -/
theorem known_ofCatalog (ids : List String) (c : Catalog) : (ofCatalog c).Known ids := by
  intro entry hentry
  rcases List.mem_map.mp hentry with ⟨name, -, rfl⟩
  exact .empty ids

/-- Clearing leaves no ids. -/
theorem known_cleared (ids : List String) (s : Store) : s.cleared.2.Known ids := by
  intro entry hentry
  rcases List.mem_map.mp hentry with ⟨old, -, rfl⟩
  exact .empty ids

theorem Known.mono {ids more : List String} {s : Store} (h : s.Known ids) (hids : ids ⊆ more) :
    s.Known more :=
  fun entry hentry => (h entry hentry).mono hids

/-- Replacing one collection by one of known records keeps all records known. -/
theorem Known.setCollection {ids : List String} {s : Store} (h : s.Known ids) {object : String}
    {c new : Collection} (hc : lookup object s.collections = some c) (hnew : new.Known ids) :
    (s.setCollection object new).Known ids := by
  intro entry hentry
  rcases mem_setCollection hc hentry with rfl | hbefore
  · exact hnew
  · exact h entry hbefore

end Store

namespace Org

/-- An effect that draws new ids keeps all records known. -/
theorem Effect.known {o : Org} {op : Op} {store : Store} (h : Effect o op store)
    {ids : List String} (hfresh : (ids ++ o.idsOf op).Nodup) (hknown : o.store.Known ids) :
    store.Known (ids ++ o.idsOf op) := by
  cases h with
  | kept => exact hknown.mono (List.subset_append_left _ _)
  | cleared => exact Store.known_cleared _ _
  | written hschema hc hwrites hids =>
    rw [hids] at hfresh ⊢
    have hcollection := hknown _ (Store.mem_of_lookup hc)
    exact (hknown.mono (List.subset_append_left _ _)).setCollection hc
      (hwrites.known hfresh hcollection)

/-- No id is drawn twice, so all records are in order all the time. -/
theorem run_known {o : Org} {ops : List Op} {ids : List String}
    (hfresh : (ids ++ issued o ops).Nodup) (hknown : o.store.Known ids) :
    (o.run ops).store.Known (ids ++ issued o ops) := by
  induction ops generalizing o ids with
  | nil => simpa [issued] using hknown
  | cons op ops ih =>
    -- what the first operation draws joins the ids that were known
    rw [issued, ← List.append_assoc] at hfresh ⊢
    have hfirst := (List.nodup_append.mp hfresh).1
    exact ih hfresh ((step_effect o op).1.known hfirst hknown)

/-! ## Calls -/

/-- A request for a single record is a change of exactly one kind. -/
theorem step_call_change (o : Org) (call : Call) :
    ∃! k, Change.Relates o.store (o.step (.call call)).store k := by
  have hsame : Change.Relates o.store o.store .kept := rfl
  have hkept : ∃! k, Change.Relates o.store o.store k :=
    ⟨.kept, hsame, fun _ hk => hk.unique hsame⟩
  cases h : o.perform call with
  | error e =>
    have hstep : o.step (.call call) = o := by simp [step, attempt, h]
    rwa [hstep]
  | ok o' =>
    have hstep : o.step (.call call) = o' := step_of_ok h
    rw [hstep]
    rcases perform_written h with ⟨hstore, -⟩ | ⟨-, hc, hwrite⟩
    · rwa [hstore]
    · exact hwrite.change hc

end Org

/-! ## Batches -/

namespace RowBatch

/-- The rows of a batch lead from one store to another: each is processed in the state that the rows
before it leave, and is a change of exactly one kind. -/
structure Leads (b : RowBatch) (before after : Store) : Prop where
  first : b.storeAfter before 0 = before
  last : b.storeAfter before b.rows.length = after
  row : ∀ n (h : n < b.rows.length),
    b.stateAfter (n + 1) = (b.processor.process (b.stateAfter n) b.rows[n]).2 ∧
      ∃! k, Change.Relates (b.storeAfter before n) (b.storeAfter before (n + 1)) k

variable {b : RowBatch} {s : Store}

/-- The rows lead from the store that they find to the one with the collection that they leave. -/
theorem leads (hc : Store.lookup b.object s.collections = some b.before.collection) :
    b.Leads s (s.setCollection b.object b.after.collection) where
  first := Store.setCollection_self hc
  last := by rw [storeAfter, stateAfter_length]
  row n h := by
    refine ⟨b.stateAfter_succ h, ?_⟩
    have hwrite := b.processor.process_write (b.stateAfter n) b.rows[n]
    rw [← b.stateAfter_succ h] at hwrite
    have hfound : Store.lookup b.object (b.storeAfter s n).collections =
        some (b.stateAfter n).collection := Store.lookup_replace hc _
    have hnext : (b.storeAfter s n).setCollection b.object (b.stateAfter (n + 1)).collection =
        b.storeAfter s (n + 1) := by
      simp only [storeAfter, Store.setCollection, Store.replace_replace]
    exact hnext ▸ hwrite.change hfound

/-- Between two rows all collections are in order, as long as no id was drawn twice. -/
theorem known_storeAfter (hc : Store.lookup b.object s.collections = some b.before.collection)
    {ids : List String}
    (hfresh : (ids ++ Supply.drawn b.processor.schema.idPrefix b.before.supply
      b.after.supply).Nodup) (hknown : s.Known ids) (n : Nat) :
    (b.storeAfter s n).Known (ids ++ Supply.drawn b.processor.schema.idPrefix b.before.supply
      (b.stateAfter n).supply) := by
  rcases b.writes_stateAfter n with ⟨hfirst, hothers⟩
  rw [← Supply.drawn_append _ hfirst.serial_le hothers.serial_le, ← List.append_assoc] at hfresh
  have hcollection := hfirst.known (List.nodup_append.mp hfresh).1 (hknown _ (Store.mem_of_lookup hc))
  exact (hknown.mono (List.subset_append_left _ _)).setCollection hc hcollection

end RowBatch

namespace Org

/-- The rows of an operation find the collection that is stored. -/
theorem lookup_of_rowBatch {o : Org} {op : Op} {b : RowBatch} (hb : o.rowBatch? op = some b) :
    Store.lookup b.object o.store.collections = some b.before.collection := by
  rcases exists_rowsFor hb with ⟨j, supply, rows, hrows⟩
  rcases rowsFor?_eq_some.mp hrows with ⟨s, c, -, hc, rfl⟩
  exact hc

/-- The rows of an operation lead from the records before it to those after it. -/
theorem step_batch_leads {o : Org} {op : Op} {b : RowBatch} (hb : o.rowBatch? op = some b) :
    b.Leads o.store (o.step op).store := by
  have hleads := RowBatch.leads (lookup_of_rowBatch hb)
  rcases processed_or_none hb with hprocessed | ⟨hstep, hnone⟩
  · rwa [hprocessed.store]
  · -- there are no rows, and the operation fails
    have hlast := hleads.last
    rw [hnone, List.length_nil, hleads.first] at hlast
    rw [← hlast] at hleads
    rwa [hstep]

/-- Between two rows of an operation all collections are in order. -/
theorem step_batch_known {o : Org} {op : Op} {b : RowBatch} (hb : o.rowBatch? op = some b)
    {ids : List String} (hfresh : (ids ++ o.idsOf op).Nodup) (hknown : o.store.Known ids)
    (n : Nat) : ∃ more, (b.storeAfter o.store n).Known more := by
  have hc := lookup_of_rowBatch hb
  rcases processed_or_none hb with hprocessed | ⟨-, hnone⟩
  · rw [idsOf_of_rowBatch hb hprocessed, hprocessed.supply] at hfresh
    exact ⟨_, RowBatch.known_storeAfter hc hfresh hknown n⟩
  · have hstate : b.stateAfter n = b.before := by simp [RowBatch.stateAfter, hnone]; rfl
    rw [RowBatch.storeAfter, hstate, Store.setCollection_self hc]
    exact ⟨ids, hknown⟩

/-! ## Reachable organisations -/

/-- What holds of an organisation after operations, and of whatever operation comes next. -/
structure Orderly (o₀ : Org) (ops : List Op) : Prop where
  /-- Records have distinct names, the id first and equal stamps; ids are distinct. -/
  integral : ∀ object c, (object, c) ∈ (o₀.run ops).store.collections → c.Integral
  /-- A request for a single record is a change of exactly one kind. -/
  call : ∀ call, ∃! k, Change.Relates (o₀.run ops).store ((o₀.run ops).step (.call call)).store k
  /-- So is every row of a batch, from the records before the batch to those after it. -/
  batch : ∀ op b, (o₀.run ops).rowBatch? op = some b →
    b.Leads (o₀.run ops).store ((o₀.run ops).step op).store
  /-- The records are in order between two rows, too. -/
  between : ∀ op b, (o₀.run ops).rowBatch? op = some b → (issued o₀ (ops ++ [op])).Nodup →
    ∀ n object c, (object, c) ∈ (b.storeAfter (o₀.run ops).store n).collections → c.Integral
  /-- Any other operation but a reset leaves the records alone. -/
  aside : ∀ op, (∀ call, op ≠ .call call) → (o₀.run ops).rowBatch? op = none → op ≠ .reset →
    ((o₀.run ops).step op).store = (o₀.run ops).store

/-- Whatever requests an organisation has answered since it was empty: its records are in order as
long as no id was drawn twice, and every write, be it a request or a row of a batch, changes one
record at most. -/
theorem run_orderly {c : Catalog} {settings : Settings} {supply : Supply} {ops : List Op}
    (hfresh : (issued (ofCatalog c settings supply) ops).Nodup) :
    Orderly (ofCatalog c settings supply) ops := by
  have hempty : (ofCatalog c settings supply).store.Known [] := Store.known_ofCatalog [] c
  have hknown := run_known (by simpa using hfresh) hempty
  rw [List.nil_append] at hknown
  constructor
  case integral => exact fun object collection hmem => (hknown _ hmem).toIntegral
  case call => exact step_call_change _
  case batch => exact fun op b hb => step_batch_leads hb
  case between =>
    intro op b hb hnext n object collection hmem
    rw [issued_concat] at hnext
    obtain ⟨more, hbetween⟩ := step_batch_known hb hnext hknown n
    exact (hbetween _ hmem).toIntegral
  case aside => exact fun op hcall hrows hreset => store_of_no_rows hcall hrows hreset

/-- An organisation with one object. -/
def withAccounts : Org := ofCatalog ⟨[⟨"Account", "001", "Account", none, []⟩]⟩ {} ⟨0, 0⟩

/-- A record, a reset, and an upload whose third row is about the record of the first. -/
def opening : List Op := [
  .call (.create "Account" (.obj [("Name", .str "a"), ("Id", .str "mine")])),
  .reset,
  .createIngest ⟨some "Account", some "upsert", some "Name", none, none, none⟩,
  .upload "750AAAAAAAAAAAAAAB" "Name,Id\na,mine\nb,mine\na,other\n",
  .closeIngest "750AAAAAAAAAAAAAAB"]

/-- The upload is processed, and then single records are changed. -/
def visit : List Op := opening ++ [
  .processIngest "750AAAAAAAAAAAAAAB",
  .call (.update "Account" "001AAAAAAAAAAAAAAC" (.obj [("SystemModstamp", .str "never")])),
  .call (.delete "Account" "001AAAAAAAAAAAAAAD"),
  .call (.upsert "Account" "Name" "c" .null)]

/-- Two rows of the upload insert records, and the third changes one of them. -/
theorem run_visit_orderly : (issued withAccounts visit).Nodup ∧
    (withAccounts.run visit).store.total = 2 ∧ Orderly withAccounts visit ∧
    ∃ b, (withAccounts.run opening).rowBatch? (.processIngest "750AAAAAAAAAAAAAAB") = some b ∧
      b.Leads (withAccounts.run opening).store
        (withAccounts.run (opening ++ [.processIngest "750AAAAAAAAAAAAAAB"])).store ∧
      [0, 1, 2, 3].map (fun n => (b.storeAfter (withAccounts.run opening).store n).total) =
        [0, 1, 2, 2] := by
  have hfresh : (issued withAccounts visit).Nodup := by decide +kernel
  have hopening : (issued withAccounts opening).Nodup := by decide +kernel
  have htotals : ((withAccounts.run opening).rowBatch? (.processIngest "750AAAAAAAAAAAAAAB")).map
      (fun b => [0, 1, 2, 3].map fun n =>
        (b.storeAfter (withAccounts.run opening).store n).total) = some [0, 1, 2, 2] := by
    decide +kernel
  obtain ⟨b, hb, htotals⟩ := Option.map_eq_some_iff.mp htotals
  have hleads := (run_orderly hopening).batch _ b hb
  rw [run_append]
  exact ⟨hfresh, by decide +kernel, run_orderly hfresh, b, hb, hleads, htotals⟩

end Org

end CrmEmulator
