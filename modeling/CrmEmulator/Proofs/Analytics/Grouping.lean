import CrmEmulator.Analytics.Dataset
import CrmEmulator.Proofs.Analytics.Aggregates
import CrmEmulator.Proofs.Analytics.Keys
import Mathlib.Algebra.BigOperators.Group.List.Basic

/-!
# CrmEmulator.Proofs.Analytics.Grouping — groups of rows

1. `Part`: a group whose rows carry the numbers of their input.  `IsGrouping` says what it is for
   parts to group rows: every row is in one of them, each keeps the order of the input, and a row is
   in the first one whose key equals its own.
2. Adding a row keeps that, whether it joins a part (`IsGrouping.join`) or begins one
   (`IsGrouping.begin`), so it holds of all rows in the end (`exists_parts`).
3. What is added up over the rows can be added up over the parts, so the counts and the sums of
   integers that a `foreach` shows after a `group` add up to those of all rows.
-/

namespace CrmEmulator

open Saql

/-! ## Parts -/

/-- A group whose rows carry the numbers of their input: the row that began it, and those that
joined it later. -/
structure Part where
  first : Record × Nat
  later : List (Record × Nat)

namespace Part

def members (p : Part) : List (Record × Nat) := p.first :: p.later

def rows (p : Part) : List Record := p.members.map (·.1)

/-- The key of the row that began the part. -/
def key (fields : List String) (p : Part) : Record := keyOf fields p.first.1

def toGroup (fields : List String) (p : Part) : RowGroup := ⟨p.key fields, p.rows⟩

/-- The part with one more row. -/
def push (p : Part) (row : Record × Nat) : Part := { p with later := p.later ++ [row] }

theorem members_push (p : Part) (row : Record × Nat) : (p.push row).members = p.members ++ [row] :=
  rfl

theorem key_push (fields : List String) (p : Part) (row : Record × Nat) :
    (p.push row).key fields = p.key fields := rfl

theorem toGroup_push (fields : List String) (p : Part) (row : Record × Nat) :
    (p.push row).toGroup fields = ⟨p.key fields, p.rows ++ [row.1]⟩ := by
  simp [toGroup, rows, members_push, key_push]

end Part

/-- Parts that group rows by the values of fields. -/
structure IsGrouping (fields : List String) (rows : List (Record × Nat)) (parts : List Part) :
    Prop where
  /-- Every row is in one part. -/
  covers : (parts.flatMap Part.members).Perm rows
  /-- A part keeps the order of the rows. -/
  inOrder : ∀ p ∈ parts, p.members.Sublist rows
  /-- The parts stand in the order of their first rows. -/
  byFirst : (parts.map (·.first)).Sublist rows
  /-- The key of a part equals those of the rows that joined it. -/
  alike : ∀ p ∈ parts, ∀ row ∈ p.later, (p.key fields).same (keyOf fields row.1)
  /-- The key of a part equals that of no row of a later part. -/
  apart : parts.Pairwise fun p q =>
    ∀ row ∈ q.members, (p.key fields).same (keyOf fields row.1) = false

/-! ## Adding a row -/

/-- A row joins the first group with its key, or begins a group if there is none. -/
theorem addToGroup_cases (key row : Record) (groups : List RowGroup) :
    (∃ before g after, groups = before ++ g :: after ∧ (∀ h ∈ before, h.key.same key = false) ∧
        g.key.same key ∧ addToGroup key row groups =
          before ++ { g with rows := g.rows ++ [row] } :: after) ∨
      ((∀ g ∈ groups, g.key.same key = false) ∧
        addToGroup key row groups = groups ++ [⟨key, [row]⟩]) := by
  induction groups with
  | nil => exact .inr ⟨List.forall_mem_nil _, rfl⟩
  | cons first groups ih =>
    by_cases hfirst : first.key.same key
    · exact .inl ⟨[], first, groups, rfl, List.forall_mem_nil _, hfirst,
        by simp [addToGroup, hfirst]⟩
    · have hstep : addToGroup key row (first :: groups) = first :: addToGroup key row groups := by
        simp [addToGroup, hfirst]
      rw [Bool.not_eq_true] at hfirst
      rw [hstep]
      rcases ih with ⟨before, g, after, rfl, hbefore, hsame, hadd⟩ | ⟨hnone, hadd⟩
      · exact .inl ⟨first :: before, g, after, rfl, List.forall_mem_cons.mpr ⟨hfirst, hbefore⟩,
          hsame, by rw [hadd]; rfl⟩
      · exact .inr ⟨List.forall_mem_cons.mpr ⟨hfirst, hnone⟩, by rw [hadd]; rfl⟩

namespace IsGrouping

variable {fields : List String} {rows : List (Record × Nat)}

/-- No rows make no parts. -/
theorem nil : IsGrouping fields [] [] where
  covers := .nil
  inOrder := List.forall_mem_nil _
  byFirst := .slnil
  alike := List.forall_mem_nil _
  apart := .nil

/-- A row whose key equals that of no part begins a part. -/
theorem begin {parts : List Part} (h : IsGrouping fields rows parts) (row : Record × Nat)
    (hnone : ∀ p ∈ parts, (p.key fields).same (keyOf fields row.1) = false) :
    IsGrouping fields (rows ++ [row]) (parts ++ [⟨row, []⟩]) where
  covers := by
    rw [List.flatMap_append]
    exact h.covers.append_right [row]
  inOrder := by
    refine List.forall_mem_append.mpr ⟨fun p hp => ?_, ?_⟩
    · exact (h.inOrder p hp).trans (List.sublist_append_left _ _)
    · rw [List.forall_mem_singleton]
      exact List.sublist_append_right _ _
  byFirst := by
    rw [List.map_append]
    exact h.byFirst.append_right [row]
  alike := by
    refine List.forall_mem_append.mpr ⟨h.alike, ?_⟩
    rw [List.forall_mem_singleton]
    exact List.forall_mem_nil _
  apart := by
    refine List.pairwise_append.mpr ⟨h.apart, List.pairwise_singleton _ _, fun p hp q hq => ?_⟩
    rw [List.mem_singleton.mp hq]
    exact List.forall_mem_singleton.mpr (hnone p hp)

/-- A row joins a part whose key equals its own if the key of no earlier part does. -/
theorem join {before after : List Part} {p : Part}
    (h : IsGrouping fields rows (before ++ p :: after)) (row : Record × Nat)
    (hbefore : ∀ q ∈ before, (q.key fields).same (keyOf fields row.1) = false)
    (hsame : (p.key fields).same (keyOf fields row.1)) :
    IsGrouping fields (rows ++ [row]) (before ++ p.push row :: after) := by
  obtain ⟨hcovers, hinOrder, hbyFirst, halike, hapart⟩ := h
  rw [List.forall_mem_append, List.forall_mem_cons] at hinOrder halike
  rw [List.pairwise_append, List.pairwise_cons] at hapart
  have hgrow {l : List (Record × Nat)} (hl : l.Sublist rows) : l.Sublist (rows ++ [row]) :=
    hl.trans (List.sublist_append_left _ _)
  refine ⟨?_, ?_, ?_, ?_, ?_⟩
  · -- the row moves behind the members of the parts that come after
    rw [List.flatMap_append, List.flatMap_cons, Part.members_push, List.append_assoc]
    rw [List.flatMap_append, List.flatMap_cons] at hcovers
    refine List.Perm.trans ?_ (hcovers.append_right [row])
    rw [List.append_assoc, List.append_assoc]
    exact (List.perm_append_comm.append_left _).append_left _
  · rw [List.forall_mem_append, List.forall_mem_cons]
    exact ⟨fun q hq => hgrow (hinOrder.1 q hq), hinOrder.2.1.append_right [row],
      fun q hq => hgrow (hinOrder.2.2 q hq)⟩
  · rw [List.map_append, List.map_cons] at hbyFirst ⊢
    exact hgrow hbyFirst
  · rw [List.forall_mem_append, List.forall_mem_cons]
    refine ⟨halike.1, ?_, halike.2.2⟩
    exact List.forall_mem_append.mpr ⟨halike.2.1, List.forall_mem_singleton.mpr hsame⟩
  · rw [List.pairwise_append, List.pairwise_cons]
    refine ⟨hapart.1, hapart.2.1, fun q hq => ?_⟩
    rw [List.forall_mem_cons]
    refine ⟨?_, fun q' hq' => hapart.2.2 q hq q' (List.mem_cons_of_mem _ hq')⟩
    rw [Part.members_push, List.forall_mem_append]
    exact ⟨hapart.2.2 q hq p List.mem_cons_self, List.forall_mem_singleton.mpr (hbefore q hq)⟩

/-- Adding a row to the groups of parts gives the groups of parts again. -/
theorem add {parts : List Part} (h : IsGrouping fields rows parts) (row : Record × Nat) :
    ∃ parts', addToGroup (keyOf fields row.1) row.1 (parts.map (·.toGroup fields)) =
        parts'.map (·.toGroup fields) ∧ IsGrouping fields (rows ++ [row]) parts' := by
  rcases addToGroup_cases (keyOf fields row.1) row.1 (parts.map (·.toGroup fields)) with
    ⟨before, g, after, hgroups, hbefore, hsame, hadd⟩ | ⟨hnone, hadd⟩
  · obtain ⟨ps, qs, rfl, rfl, hqs⟩ := List.map_eq_append_iff.mp hgroups
    obtain ⟨p, qs, rfl, rfl, rfl⟩ := List.map_eq_cons_iff.mp hqs
    rw [List.forall_mem_map] at hbefore
    refine ⟨ps ++ p.push row :: qs, ?_, h.join row hbefore hsame⟩
    rw [hadd, List.map_append, List.map_cons, Part.toGroup_push]
    rfl
  · rw [List.forall_mem_map] at hnone
    refine ⟨parts ++ [⟨row, []⟩], ?_, h.begin row hnone⟩
    rw [hadd, List.map_append]
    rfl

end IsGrouping

/-! ## All rows -/

/-- The loop over the rows keeps a grouping: it takes parts of the rows so far to parts of all of
them. -/
theorem exists_parts_from (fields : List String) {done : List (Record × Nat)} {parts : List Part}
    (h : IsGrouping fields done parts) (rows : List (Record × Nat)) :
    ∃ parts', rows.foldl (fun groups row => addToGroup (keyOf fields row.1) row.1 groups)
        (parts.map (·.toGroup fields)) = parts'.map (·.toGroup fields) ∧
      IsGrouping fields (done ++ rows) parts' := by
  induction rows generalizing done parts with
  | nil => exact ⟨parts, rfl, by rwa [List.append_nil]⟩
  | cons row rows ih =>
    obtain ⟨next, hnext, hgrouping⟩ := h.add row
    obtain ⟨parts', hparts, hgrouping'⟩ := ih hgrouping
    refine ⟨parts', ?_, ?_⟩
    · rw [List.foldl_cons, hnext, hparts]
    · rwa [List.append_assoc] at hgrouping'

/-- The groups of rows are parts that group them. -/
theorem exists_parts (fields : List String) {rows : List Record} (h : rows ≠ []) :
    ∃ parts : List Part, groupRows fields rows = parts.map (·.toGroup fields) ∧
      IsGrouping fields rows.zipIdx parts := by
  obtain ⟨parts, hparts, hgrouping⟩ := exists_parts_from fields .nil rows.zipIdx
  rw [List.nil_append] at hgrouping
  refine ⟨parts, ?_, hgrouping⟩
  have hfold : rows.foldl (fun groups row => addToGroup (keyOf fields row) row groups) [] =
      parts.map (·.toGroup fields) := by
    conv_lhs => rw [← List.zipIdx_map_fst 0 rows, List.foldl_map]
    exact hparts
  have hsome : parts ≠ [] := by
    rintro rfl
    have hnil := hgrouping.covers.nil_eq
    exact h (List.zipIdx_eq_nil_iff.mp hnil.symm)
  simp [groupRows, hfold, hsome]

/-! ## Totals -/

theorem IsGrouping.rows_perm {fields : List String} {rows : List Record} {parts : List Part}
    (h : IsGrouping fields rows.zipIdx parts) : (parts.flatMap Part.rows).Perm rows := by
  have hperm := h.covers.map Prod.fst
  rwa [List.map_flatMap, List.zipIdx_map_fst] at hperm

/-- What the integers add up to over the parts is what they add up to over the rows. -/
theorem IsGrouping.sum_integersOf {fields : List String} {rows : List Record} {parts : List Part}
    (h : IsGrouping fields rows.zipIdx parts) (field : String) :
    (parts.map fun p => (integersOf field p.rows).sum).sum = (integersOf field rows).sum := by
  have hperm := h.rows_perm.filterMap fun row =>
    (row.get? field).bind fun v => v.integer?.map Int64.toInt
  rw [List.filterMap_flatMap] at hperm
  rw [integersOf_eq field rows, ← hperm.sum_eq, List.flatMap_def, List.sum_flatten, List.map_map]
  simp only [integersOf_eq, Function.comp_def]

theorem IsGrouping.sum_length {fields : List String} {rows : List Record} {parts : List Part}
    (h : IsGrouping fields rows.zipIdx parts) :
    (parts.map fun p => p.rows.length).sum = rows.length := by
  rw [← List.length_flatMap, h.rows_perm.length_eq]

section Totals

variable {fields : List String} {rows : List Record} {parts : List Part} {items : List Item}
variable {name field : String} {source : Option String}

/-- What an aggregate shows for every group. -/
theorem map_get?_generate {function : Aggregate} {value : Part → Value}
    (hparts : groupRows fields rows = parts.map (·.toGroup fields))
    (hitems : Outputs items name (.aggregate function source))
    (hvalue : ∀ p ∈ parts, function.apply source p.rows = .ok (value p)) {out : List Record}
    (hout : runSteps [.group fields, .generate items] rows = .ok out) :
    out.map (·.get? name) = parts.map fun p => some (value p) := by
  rw [run_group_generate, hparts, List.mapM_map] at hout
  exact map_of_mapM (fun p hp row hrow => get?_projectGroup hitems hrow (hvalue p hp)) hout

/-- Counts over a grouping add up to the number of rows, unless another item of the groups is a sum
that leaves the range. -/
theorem counts_add_up (hparts : groupRows fields rows = parts.map (·.toGroup fields))
    (h : IsGrouping fields rows.zipIdx parts)
    (hitems : Outputs items name (.aggregate .count source)) :
    (∃ (out : List Record) (counts : List Nat),
      runSteps [.group fields, .generate items] rows = .ok out ∧
        out.map (·.get? name) = counts.map (fun n => some (.integer (Int64.ofNat n))) ∧
        counts.sum = rows.length) ∨
    (runSteps [.group fields, .generate items] rows = .error .overflow ∧
      ∃ g ∈ groupRows fields rows, ∃ item ∈ items, ∃ field,
        item.column = .aggregate .sum (some field) ∧ WithoutDoubles field g.rows ∧
          ¬StaysInRange (integersOf field g.rows)) := by
  have hrun := yieldsIf_run_group_generate fields items rows
  by_cases hfit : ∀ g ∈ groupRows fields rows, SumsFit items g.rows
  · obtain ⟨out, hout⟩ := hrun.ok hfit
    refine .inl ⟨out, parts.map fun p => p.rows.length, hout, ?_, h.sum_length⟩
    rw [map_get?_generate hparts hitems (fun p _ => rfl) hout, List.map_map]
    rfl
  · refine .inr ⟨hrun.overflow hfit, ?_⟩
    simp only [not_forall] at hfit
    obtain ⟨g, hg, hnot⟩ := hfit
    exact ⟨g, hg, not_sumsFit_iff.mp hnot⟩

/-- Sums over a grouping add up to the ungrouped sum, if all of them stay in the range. -/
theorem sums_add_up (hparts : groupRows fields rows = parts.map (·.toGroup fields))
    (h : IsGrouping fields rows.zipIdx parts)
    (hitems : Outputs items name (.aggregate .sum (some field)))
    (hdoubles : WithoutDoubles field rows)
    (hgroups : ∀ g ∈ groupRows fields rows, SumsFit items g.rows) (hall : SumsFit items rows) :
    ∃ (out : List Record) (whole : Record) (sums : List Int64) (total : Int64),
      runSteps [.group fields, .generate items] rows = .ok out ∧
        runSteps [.generate items] rows = .ok [whole] ∧
        out.map (·.get? name) = sums.map (fun n => some (.integer n)) ∧
        whole.get? name = some (.integer total) ∧ (sums.map Int64.toInt).sum = total.toInt := by
  obtain ⟨out, hout⟩ := (yieldsIf_run_group_generate fields items rows).ok hgroups
  obtain ⟨whole, hwhole⟩ := (yieldsIf_projectGroup items .empty rows).ok hall
  -- the sum that the name stands for is one of those that fit
  have hrange : StaysInRange (integersOf field rows) := hall _ hitems.mem hdoubles
  rw [hparts, List.forall_mem_map] at hgroups
  have hpart {p : Part} (hp : p ∈ parts) :
      WithoutDoubles field p.rows ∧ StaysInRange (integersOf field p.rows) := by
    have hmember : WithoutDoubles field p.rows := fun row hrow =>
      hdoubles row (h.rows_perm.subset (List.mem_flatMap.mpr ⟨p, hp, hrow⟩))
    exact ⟨hmember, hgroups p hp _ hitems.mem hmember⟩
  have hsum (p : Part) (hp : p ∈ parts) := sum_of_staysInRange (hpart hp).1 (hpart hp).2
  refine ⟨out, whole, parts.map fun p => Int64.ofInt (integersOf field p.rows).sum, _, hout, ?_,
    ?_, get?_projectGroup hitems hwhole (sum_of_staysInRange hdoubles hrange), ?_⟩
  · rw [run_generate_of_outputs hitems, hwhole]
    rfl
  · rw [map_get?_generate hparts hitems hsum hout, List.map_map]
    rfl
  · rw [toInt_ofInt hrange.sum, ← h.sum_integersOf, List.map_map]
    exact congrArg List.sum (List.map_congr_left fun p hp => toInt_ofInt (hpart hp).2.sum)

end Totals

/-- No two parts have equal keys, in whichever order the keys are compared. -/
theorem IsGrouping.keys_differ {fields : List String} {rows : List Record} {parts : List Part}
    (h : IsGrouping fields rows.zipIdx parts) (hrows : ∀ row ∈ rows, row.Proper) :
    parts.Pairwise fun p q =>
      (p.key fields).same (q.key fields) = false ∧ (q.key fields).same (p.key fields) = false := by
  have hproper {p : Part} (hp : p ∈ parts) : p.first.1.Proper :=
    hrows _ (h.rows_perm.subset (List.mem_flatMap.mpr ⟨p, hp, List.mem_cons_self⟩))
  refine h.apart.imp_of_mem fun {p q} hp hq hapart => ?_
  have hkeys := hapart q.first List.mem_cons_self
  exact ⟨hkeys, (keyOf_same_comm fields (hproper hq) (hproper hp)).trans hkeys⟩

/-- Grouping loses and duplicates nothing: the groups are parts that group the rows, and no key of
one equals that of another.  So the counts of a `foreach` after the `group` add up to the number of
rows, unless another of its columns is a sum that breaks the work off; and its sums of a field
without doubles add up to the sum without a `group`, as long as no sum leaves the 64-bit range. -/
theorem grouping_partitions_rows (fields : List String) {rows : List Record} (h : rows ≠ []) :
    (∃ parts : List Part, groupRows fields rows = parts.map (·.toGroup fields) ∧
      IsGrouping fields rows.zipIdx parts) ∧
    ((∀ row ∈ rows, row.Proper) → (groupRows fields rows).Pairwise fun g g' =>
      g.key.same g'.key = false ∧ g'.key.same g.key = false) ∧
    (∀ {items : List Item} {name : String} {source : Option String},
      Outputs items name (.aggregate .count source) →
        (∃ (out : List Record) (counts : List Nat),
          runSteps [.group fields, .generate items] rows = .ok out ∧
          out.map (·.get? name) = counts.map (fun n => some (.integer (Int64.ofNat n))) ∧
          counts.sum = rows.length) ∨
        (runSteps [.group fields, .generate items] rows = .error .overflow ∧
          ∃ g ∈ groupRows fields rows, ∃ item ∈ items, ∃ field,
            item.column = .aggregate .sum (some field) ∧ WithoutDoubles field g.rows ∧
            ¬StaysInRange (integersOf field g.rows))) ∧
    ∀ {items : List Item} {name field : String},
      Outputs items name (.aggregate .sum (some field)) → WithoutDoubles field rows →
      (∀ g ∈ groupRows fields rows, SumsFit items g.rows) → SumsFit items rows →
        ∃ (out : List Record) (whole : Record) (sums : List Int64) (total : Int64),
          runSteps [.group fields, .generate items] rows = .ok out ∧
          runSteps [.generate items] rows = .ok [whole] ∧
          out.map (·.get? name) = sums.map (fun n => some (.integer n)) ∧
          whole.get? name = some (.integer total) ∧
          (sums.map Int64.toInt).sum = total.toInt := by
  obtain ⟨parts, hparts, hgrouping⟩ := exists_parts fields h
  refine ⟨⟨parts, hparts, hgrouping⟩, fun hrows => ?_, counts_add_up hparts hgrouping,
    sums_add_up hparts hgrouping⟩
  rw [hparts, List.pairwise_map]
  exact hgrouping.keys_differ hrows

theorem proper_salesPipeline : ∀ row ∈ Dataset.salesPipeline.rows, row.Proper := by
  simp [Dataset.salesPipeline, Dataset.ofRows, Dataset.deal, Value.Proper]

/-- The stage of a group, the number of its deals, and what they amount to. -/
def dealColumns : List Item :=
  [⟨.field "Stage", "Stage"⟩, ⟨.aggregate .count none, "n"⟩,
   ⟨.aggregate .sum (some "Amount"), "total"⟩]

/-- The stages of the deals in the order in which they come up, each with its deals and amounts. -/
def dealsByStage : List Record := [
  ⟨[("Stage", .text "Closed Won"), ("n", .integer 2), ("total", .integer 170000)]⟩,
  ⟨[("Stage", .text "Negotiation"), ("n", .integer 2), ("total", .integer 170000)]⟩,
  ⟨[("Stage", .text "Prospecting"), ("n", .integer 1), ("total", .integer 30000)]⟩]

/-- All deals as one group. -/
def dealsTogether : Record :=
  ⟨[("Stage", .text "Closed Won"), ("n", .integer 5), ("total", .integer 370000)]⟩

/-- The amounts of a list of deals stay in the range on the way to their sum. -/
theorem sumsFit_dealColumns {rows : List Record} (h : StaysInRange (integersOf "Amount" rows)) :
    SumsFit dealColumns rows := by
  simp only [SumsFit, dealColumns, List.forall_mem_cons]
  exact ⟨trivial, trivial, fun _ => h, List.forall_mem_nil _⟩

/-- The deals fall into three groups, and their counts and amounts add up to those of all deals. -/
theorem deals_grouped_by_stage :
    (∃ parts : List Part,
      groupRows ["Stage"] Dataset.salesPipeline.rows = parts.map (·.toGroup ["Stage"]) ∧
      IsGrouping ["Stage"] Dataset.salesPipeline.rows.zipIdx parts) ∧
    ((groupRows ["Stage"] Dataset.salesPipeline.rows).Pairwise fun g g' =>
      g.key.same g'.key = false ∧ g'.key.same g.key = false) ∧
    (groupRows ["Stage"] Dataset.salesPipeline.rows).map (·.key) =
      ["Closed Won", "Negotiation", "Prospecting"].map (fun stage => ⟨[("Stage", .text stage)]⟩) ∧
    runSteps [.group ["Stage"], .generate dealColumns] Dataset.salesPipeline.rows =
      .ok dealsByStage ∧
    runSteps [.generate dealColumns] Dataset.salesPipeline.rows = .ok [dealsTogether] ∧
    (∃ counts : List Nat, counts.sum = 5 ∧
      dealsByStage.map (·.get? "n") = counts.map fun n => some (.integer (Int64.ofNat n))) ∧
    ∃ (sums : List Int64) (total : Int64), (sums.map Int64.toInt).sum = total.toInt ∧
      dealsByStage.map (·.get? "total") = sums.map (fun n => some (.integer n)) ∧
      dealsTogether.get? "total" = some (.integer total) := by
  have hrows : Dataset.salesPipeline.rows ≠ [] := by decide
  have hdoubles : WithoutDoubles "Amount" Dataset.salesPipeline.rows := by
    simp [WithoutDoubles, Dataset.salesPipeline, Dataset.ofRows, Dataset.deal, Record.get?,
      Record.lookup]
  have hgroups : ∀ g ∈ groupRows ["Stage"] Dataset.salesPipeline.rows,
      SumsFit dealColumns g.rows := by
    have hranges : ∀ g ∈ groupRows ["Stage"] Dataset.salesPipeline.rows,
        StaysInRange (integersOf "Amount" g.rows) := by decide +kernel
    exact fun g hg => sumsFit_dealColumns (hranges g hg)
  have hall : SumsFit dealColumns Dataset.salesPipeline.rows :=
    sumsFit_dealColumns (by decide +kernel)
  have hcount : Outputs dealColumns "n" (.aggregate .count none) := ⟨[_], [_], rfl, by decide⟩
  have hsum : Outputs dealColumns "total" (.aggregate .sum (some "Amount")) :=
    ⟨[_, _], [], rfl, List.forall_mem_nil _⟩
  -- the theorem gives sums that exist; that they are these is computed
  obtain ⟨hparts, hkeys, hcounts, hsums⟩ := grouping_partitions_rows ["Stage"] hrows
  have hgrouped : runSteps [.group ["Stage"], .generate dealColumns] Dataset.salesPipeline.rows =
      .ok dealsByStage := by decide +kernel
  have htogether : runSteps [.generate dealColumns] Dataset.salesPipeline.rows =
      .ok [dealsTogether] := by decide +kernel
  refine ⟨hparts, hkeys proper_salesPipeline, by decide +kernel, hgrouped, htogether, ?_, ?_⟩
  · rcases hcounts hcount with ⟨out, counts, hout, hshown, htotal⟩ | ⟨hbroken, -⟩
    · cases hgrouped.symm.trans hout
      exact ⟨counts, htotal, hshown⟩
    · cases hgrouped.symm.trans hbroken
  · obtain ⟨out, whole, sums, total, hout, hwhole, hshown, htotal, hadd⟩ :=
      hsums hsum hdoubles hgroups hall
    cases hgrouped.symm.trans hout
    cases htogether.symm.trans hwhole
    exact ⟨sums, total, hadd, hshown, htotal⟩

end CrmEmulator
