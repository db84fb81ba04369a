import CrmEmulator.Proofs.Analytics.Overflow
import CrmEmulator.Proofs.Record

/-!
# CrmEmulator.Proofs.Analytics.Aggregates — the columns that show aggregates

1. `SumsFit`: columns none of which adds up integers beyond the 64-bit range.  What a `foreach`
   makes of rows exists exactly if its columns fit.
2. `Outputs`: the column that a name stands for in the output.  What a `foreach` shows for a group
   of rows, and for all rows if there is no `group`.
-/

namespace CrmEmulator

open Saql

/-! ## Columns that fit -/

/-- A column does not add up integers, or their sum stays in the range. -/
def Saql.Column.SumsFit (rows : List Record) : Column → Prop
  | .aggregate .sum (some name) =>
    WithoutDoubles name rows → StaysInRange (integersOf name rows)
  | _ => True

/-- No column of a `foreach` adds up integers beyond the range. -/
def SumsFit (items : List Item) (rows : List Record) : Prop :=
  ∀ item ∈ items, item.column.SumsFit rows

/-- Sums that do not fit are those of a field without doubles whose integers leave the range. -/
theorem not_sumsFit_iff {items : List Item} {rows : List Record} :
    ¬SumsFit items rows ↔ ∃ item ∈ items, ∃ name, item.column = .aggregate .sum (some name) ∧
      WithoutDoubles name rows ∧ ¬StaysInRange (integersOf name rows) := by
  constructor
  · intro h
    simp only [SumsFit, not_forall] at h
    obtain ⟨item, hitem, hnot⟩ := h
    unfold Column.SumsFit at hnot
    split at hnot
    · next name hcolumn => exact ⟨item, hitem, name, hcolumn, Classical.not_imp.mp hnot⟩
    · exact (hnot trivial).elim
  · rintro ⟨item, hitem, name, hcolumn, hdoubles, hrange⟩ h
    have hfits := h item hitem
    rw [hcolumn] at hfits
    exact hrange (hfits hdoubles)

/-- Only a sum of integers can break the work off. -/
theorem yieldsIf_sum (field : String) (rows : List Record) :
    YieldsIf (WithoutDoubles field rows → StaysInRange (integersOf field rows))
      (Aggregate.sum.apply (some field) rows) := by
  by_cases hdoubles : WithoutDoubles field rows
  · refine ⟨fun hrange => ⟨_, sum_of_staysInRange hdoubles (hrange hdoubles)⟩, fun hnot => ?_⟩
    exact sum_of_not_staysInRange hdoubles fun hrange => hnot fun _ => hrange
  · obtain ⟨x, hx⟩ := sum_of_double hdoubles
    exact ⟨fun _ => ⟨_, hx⟩, fun hnot => (hnot fun h => (hdoubles h).elim).elim⟩

/-- A column of an item is broken off exactly if its sums do not fit. -/
theorem yieldsIf_value? (key : Record) (rows : List Record) (column : Column) :
    YieldsIf (column.SumsFit rows) (column.value? key rows) := by
  cases column with
  | field name => exact .of_ok trivial _
  | aggregate function source =>
    refine YieldsIf.map ?_ some
    cases function with
    | sum =>
      cases source with
      | none => exact .of_ok trivial _
      | some field => exact yieldsIf_sum field rows
    | count | avg | min | max => exact .of_ok trivial _

/-- The output row of a group exists exactly if the columns fit its rows. -/
theorem yieldsIf_projectGroup (items : List Item) (key : Record) (rows : List Record) :
    YieldsIf (SumsFit items rows) (projectGroup items key rows) := by
  have hfields : YieldsIf (SumsFit items rows) (items.mapM (·.field? key rows)) :=
    .mapM fun item _ => (yieldsIf_value? key rows item.column).map _
  exact hfields.map fun fields => Record.ofFields (fields.filterMap id)

/-! ## Outputs -/

/-- The column that a name stands for in the output: the last one with that name. -/
def Outputs (items : List Item) (name : String) (column : Column) : Prop :=
  ∃ before after, items = before ++ ⟨column, name⟩ :: after ∧ ∀ item ∈ after, item.name ≠ name

/-- The column that a name stands for is one of the columns. -/
theorem Outputs.mem {items : List Item} {name : String} {column : Column}
    (h : Outputs items name column) : ⟨column, name⟩ ∈ items := by
  obtain ⟨before, after, rfl, -⟩ := h
  exact List.mem_append_right _ List.mem_cons_self

/-- An item adds no field of any name but its own. -/
theorem name_of_field? {key : Record} {rows : List Record} {item : Item} {field : String × Value}
    (h : item.field? key rows = .ok (some field)) : field.1 = item.name := by
  obtain ⟨v, -, hfield⟩ := map_eq_ok.mp h
  obtain ⟨x, -, rfl⟩ := Option.map_eq_some_iff.mp hfield
  rfl

/-- The last item with a name decides what the output row holds under that name. -/
theorem get?_projectGroup {items : List Item} {name : String} {function : Aggregate}
    {source : Option String} (h : Outputs items name (.aggregate function source)) {key : Record}
    {rows : List Record} {out : Record} (hout : projectGroup items key rows = .ok out) {v : Value}
    (hv : function.apply source rows = .ok v) : out.get? name = some v := by
  obtain ⟨before, after, rfl, hafter⟩ := h
  rw [projectGroup, bind_eq_ok] at hout
  obtain ⟨fields, hfields, hout⟩ := hout
  cases hout
  have hitem : (⟨.aggregate function source, name⟩ : Item).field? key rows =
      .ok (some (name, v)) := by
    simp only [Item.field?, Column.value?, hv]
    rfl
  rw [List.mapM_append, List.mapM_cons, hitem] at hfields
  simp only [bind_eq_ok, ok_bind] at hfields
  obtain ⟨first, -, rest, ⟨others, hothers, hrest⟩, hall⟩ := hfields
  cases hrest
  cases hall
  -- no item behind this one sets the name again
  have hnone : Record.lookup name (others.filterMap id).reverse = none := by
    simp only [Record.lookup_eq_none, List.map_reverse, List.mem_reverse, List.mem_map,
      List.mem_filterMap, id]
    rintro ⟨field, ⟨_, hmem, rfl⟩, hname⟩
    obtain ⟨item, hitem, hfield⟩ := exists_of_mem_mapM hothers hmem
    exact hafter item hitem ((name_of_field? hfield).symm.trans hname)
  have hfields : (first ++ some (name, v) :: others).filterMap id =
      first.filterMap id ++ (name, v) :: others.filterMap id := by
    rw [List.filterMap_append, List.filterMap_cons]
    rfl
  rw [hfields, Record.ofFields, Record.get?_setAll, List.reverse_append, List.reverse_cons,
    List.append_assoc, Record.lookup_append, hnone]
  simp [Record.lookup]

/-! ## Runs -/

/-- The rows of a stream that one step makes. -/
theorem rows_toRows (x : Except Halt (List Record)) (stepName : String) :
    (do (← Stream.rows <$> x).toRows stepName) = x := by
  cases x with
  | error halt => rfl
  | ok rows => rfl

/-- A grouping that is generated from is one record for each group, in the order of the groups. -/
theorem run_group_generate (fields : List String) (items : List Item) (rows : List Record) :
    runSteps [.group fields, .generate items] rows =
      (groupRows fields rows).mapM fun g => projectGroup items g.key g.rows := by
  simp only [runSteps, List.foldlM_cons, List.foldlM_nil, bind_pure]
  exact rows_toRows _ "the query result"

/-- A `foreach` after a `group` has a result exactly if its columns fit every group. -/
theorem yieldsIf_run_group_generate (fields : List String) (items : List Item)
    (rows : List Record) :
    YieldsIf (∀ g ∈ groupRows fields rows, SumsFit items g.rows)
      (runSteps [.group fields, .generate items] rows) := by
  rw [run_group_generate]
  exact .mapM fun g _ => yieldsIf_projectGroup items g.key g.rows

theorem any_isAggregate_of_outputs {items : List Item} {name : String} {function : Aggregate}
    {source : Option String} (h : Outputs items name (.aggregate function source)) :
    items.any (·.column.isAggregate) :=
  List.any_eq_true.mpr ⟨_, h.mem, rfl⟩

/-- An aggregate without a group makes one row of all rows. -/
theorem run_generate_of_outputs {items : List Item} {name : String} {function : Aggregate}
    {source : Option String} (h : Outputs items name (.aggregate function source))
    (rows : List Record) :
    runSteps [.generate items] rows = ([·]) <$> projectGroup items .empty rows := by
  simp only [runSteps, List.foldlM_cons, List.foldlM_nil, bind_pure, Step.apply, projectRows,
    if_pos (any_isAggregate_of_outputs h)]
  exact rows_toRows _ "the query result"

end CrmEmulator
