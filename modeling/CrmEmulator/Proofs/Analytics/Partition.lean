import CrmEmulator.Proofs.Analytics.Grouping
import Mathlib.Data.List.Pairwise

/-!
# CrmEmulator.Proofs.Analytics.Partition — how far groups are a partition by key

1. A row is in the first group whose key equals its own, so two rows with identical values in all
   key fields are in one group.  An infinite double equals not even itself and is the exception.
2. `IsClear`: no value in a key field is infinite and no chain of equal values goes wrong.  Then two
   rows are in one group exactly if their keys are equal, and the groups are the same in whatever
   order the rows come.  Fields without doubles are clear.
3. Rows whose values drift are grouped by the order in which they come.
-/

namespace CrmEmulator

/-! ## Rows in one group -/

/-- Are two numbered rows in one part? -/
def Together (parts : List Part) (x y : Record × Nat) : Prop :=
  ∃ p ∈ parts, x ∈ p.members ∧ y ∈ p.members

namespace IsGrouping

variable {fields : List String} {rows : List (Record × Nat)} {parts : List Part}
variable {p q : Part} {x y : Record × Nat}

theorem exists_part (h : IsGrouping fields rows parts) (hx : x ∈ rows) :
    ∃ p ∈ parts, x ∈ p.members :=
  List.mem_flatMap.mp (h.covers.symm.subset hx)

theorem mem_rows (h : IsGrouping fields rows parts) (hp : p ∈ parts) (hx : x ∈ p.members) :
    x ∈ rows :=
  h.covers.subset (List.mem_flatMap.mpr ⟨p, hp, hx⟩)

/-- The key of a part equals that of a row in it, if that equals itself. -/
theorem key_same (h : IsGrouping fields rows parts) (hp : p ∈ parts) (hx : x ∈ p.members)
    (hself : (keyOf fields x.1).same (keyOf fields x.1)) :
    (p.key fields).same (keyOf fields x.1) := by
  rcases List.mem_cons.mp hx with rfl | hlater
  · exact hself
  · exact h.alike p hp x hlater

/-- A row is in the first part whose key equals its own.  So if the key of each of two parts equals
that of a row in the other, they are one. -/
theorem part_eq (h : IsGrouping fields rows parts) (hp : p ∈ parts) (hq : q ∈ parts)
    (hx : x ∈ p.members) (hy : y ∈ q.members) (hpy : (p.key fields).same (keyOf fields y.1))
    (hqx : (q.key fields).same (keyOf fields x.1)) : p = q := by
  refine Classical.byContradiction fun hne => ?_
  let Apart (p q : Part) : Prop :=
    (∀ row ∈ q.members, (p.key fields).same (keyOf fields row.1) = false) ∨
      ∀ row ∈ p.members, (q.key fields).same (keyOf fields row.1) = false
  have hsymm : Std.Symm Apart := ⟨fun _ _ => Or.symm⟩
  have hapart : parts.Pairwise Apart := h.apart.imp fun hlater => .inl hlater
  rcases hapart.forall hp hq hne with hlater | hlater
  · rw [hlater y hy] at hpy
    cases hpy
  · rw [hlater x hx] at hqx
    cases hqx

end IsGrouping

/-! ## Identical values -/

/-- Two rows with identical values in all fields, none of them infinite. -/
def Identical (fields : List String) (r s : Record) : Prop :=
  ∀ field ∈ fields, r.getOrNull field = s.getOrNull field ∧
    (r.getOrNull field).isInfinite = false

/-- A key without infinite values is equal to itself. -/
theorem keyOf_same_self {fields : List String} {r : Record} (hr : r.Proper)
    (h : ∀ field ∈ fields, (r.getOrNull field).isInfinite = false) :
    (keyOf fields r).same (keyOf fields r) := by
  refine (keyOf_same_iff fields r r).mpr fun field hfield => ?_
  rw [Value.same_self (hr.getOrNull field), h field hfield]
  rfl

theorem Identical.keyOf_eq {fields : List String} {r s : Record} (h : Identical fields r s) :
    keyOf fields r = keyOf fields s := by
  refine congrArg Record.ofFields (List.map_congr_left fun field hfield => ?_)
  rw [(h field hfield).1]

/-- Identical rows always end up in the same part. -/
theorem IsGrouping.together_of_identical {fields : List String} {rows : List (Record × Nat)}
    {parts : List Part} (h : IsGrouping fields rows parts) {x y : Record × Nat} (hx : x ∈ rows)
    (hy : y ∈ rows) (hproper : x.1.Proper) (hidentical : Identical fields x.1 y.1) :
    Together parts x y := by
  obtain ⟨p, hp, hxp⟩ := h.exists_part hx
  obtain ⟨q, hq, hyq⟩ := h.exists_part hy
  have hself := keyOf_same_self hproper fun field hfield => (hidentical field hfield).2
  -- identical values make one key, so the key of each part equals that of the row in the other
  have hkeys := hidentical.keyOf_eq
  have hpy : (p.key fields).same (keyOf fields y.1) := hkeys ▸ h.key_same hp hxp hself
  have hqx : (q.key fields).same (keyOf fields x.1) :=
    hkeys ▸ h.key_same hq hyq (hkeys ▸ hself)
  obtain rfl := h.part_eq hp hq hxp hyq hpy hqx
  exact ⟨p, hp, hxp, hyq⟩

/-! ## Clear fields -/

/-- Rows whose values in the fields are not infinite and make no chain that goes wrong. -/
structure IsClear (fields : List String) (rows : List Record) : Prop where
  proper : ∀ row ∈ rows, row.Proper
  finite : ∀ field ∈ fields, ∀ row ∈ rows, (row.getOrNull field).isInfinite = false
  merges : ∀ field ∈ fields, ∀ r ∈ rows, ∀ s ∈ rows, ∀ t ∈ rows,
    ¬Value.Merges (r.getOrNull field) (s.getOrNull field) (t.getOrNull field)
  drifts : ∀ field ∈ fields, ∀ r ∈ rows, ∀ s ∈ rows, ∀ t ∈ rows,
    ¬Value.Drifts (r.getOrNull field) (s.getOrNull field) (t.getOrNull field)

namespace IsClear

variable {fields : List String} {rows rows' : List Record} {r s t : Record}

/-- Some of the rows of a clear list are clear. -/
theorem of_subset (h : IsClear fields rows) (hrows : rows' ⊆ rows) : IsClear fields rows' where
  proper row hrow := h.proper row (hrows hrow)
  finite field hfield row hrow := h.finite field hfield row (hrows hrow)
  merges field hfield r hr s hs t ht :=
    h.merges field hfield r (hrows hr) s (hrows hs) t (hrows ht)
  drifts field hfield r hr s hs t ht :=
    h.drifts field hfield r (hrows hr) s (hrows hs) t (hrows ht)

theorem self (h : IsClear fields rows) (hr : r ∈ rows) :
    (keyOf fields r).same (keyOf fields r) :=
  keyOf_same_self (h.proper r hr) fun field hfield => h.finite field hfield r hr

theorem symm (h : IsClear fields rows) (hr : r ∈ rows) (hs : s ∈ rows)
    (hrs : (keyOf fields r).same (keyOf fields s)) : (keyOf fields s).same (keyOf fields r) := by
  rwa [keyOf_same_comm fields (h.proper s hs) (h.proper r hr)]

/-- In a clear list equality of keys is transitive. -/
theorem trans (h : IsClear fields rows) (hr : r ∈ rows) (hs : s ∈ rows) (ht : t ∈ rows)
    (hrs : (keyOf fields r).same (keyOf fields s)) (hst : (keyOf fields s).same (keyOf fields t)) :
    (keyOf fields r).same (keyOf fields t) := by
  rw [keyOf_same_iff] at hrs hst ⊢
  exact fun field hfield => Value.same_trans ((h.proper r hr).getOrNull field)
    (h.merges field hfield r hr s hs t ht) (h.drifts field hfield r hr s hs t ht)
    (hrs field hfield) (hst field hfield)

end IsClear

/-- Without doubles, no value is infinite and equal values are identical or documents. -/
theorem isClear_of_withoutDoubles {fields : List String} {rows : List Record}
    (hproper : ∀ row ∈ rows, row.Proper)
    (hdoubles : ∀ field ∈ fields, WithoutDoubles field rows) : IsClear fields rows := by
  have hdouble {field : String} (hfield : field ∈ fields) {row : Record} (hrow : row ∈ rows)
      (x : Double) : row.getOrNull field ≠ .double x := by
    intro hvalue
    refine hdoubles field hfield row hrow x ?_
    cases hget : row.get? field with
    | none => simp [Record.getOrNull, hget] at hvalue
    | some v => simpa [Record.getOrNull, hget] using hvalue
  refine ⟨hproper, fun field hfield row hrow => ?_, fun field hfield r hr s hs t ht h => ?_,
    fun field hfield r hr s hs t ht h => ?_⟩
  · cases hvalue : row.getOrNull field with
    | double x => exact absurd hvalue (hdouble hfield hrow x)
    | null | integer | text | boolean | json => rfl
  · obtain ⟨x, hx⟩ := h.double_between
    exact hdouble hfield hs x hx
  · obtain ⟨x, hx | hx | hx⟩ := h.exists_double
    · exact hdouble hfield hr x hx
    · exact hdouble hfield hs x hx
    · exact hdouble hfield ht x hx

/-! ## Groups of clear fields -/

/-- Numbered rows are all different. -/
theorem nodup_zipIdx (rows : List Record) : rows.zipIdx.Nodup := by
  have hnumbers : (rows.zipIdx.map Prod.snd).Nodup := by
    rw [List.zipIdx_map_snd]
    exact List.nodup_range'
  exact (List.pairwise_map.mp hnumbers).imp fun hne heq => hne (congrArg Prod.snd heq)

theorem exists_mem_zipIdx {row : Record} {rows : List Record} (h : row ∈ rows) :
    ∃ x ∈ rows.zipIdx, x.1 = row := by
  rw [← List.zipIdx_map_fst 0 rows] at h
  exact List.mem_map.mp h

namespace IsGrouping

variable {fields : List String} {rows : List Record} {parts : List Part} {p : Part}
variable {x y : Record × Nat}

theorem first_mem (h : IsGrouping fields rows.zipIdx parts) (hp : p ∈ parts) : p.first.1 ∈ rows :=
  List.fst_mem_of_mem_zipIdx (h.mem_rows hp List.mem_cons_self)

/-- A part of clear fields holds the rows whose keys equal its own. -/
theorem mem_members_iff (h : IsGrouping fields rows.zipIdx parts) (hclear : IsClear fields rows)
    (hp : p ∈ parts) (hx : x ∈ rows.zipIdx) :
    x ∈ p.members ↔ (p.key fields).same (keyOf fields x.1) := by
  have hrow : x.1 ∈ rows := List.fst_mem_of_mem_zipIdx hx
  refine ⟨fun hxp => h.key_same hp hxp (hclear.self hrow), fun hkey => ?_⟩
  obtain ⟨q, hq, hxq⟩ := h.exists_part hx
  -- the row stands between the first rows of the two parts, whose keys are therefore equal
  have hfirst := h.first_mem hp
  have hqx := h.key_same hq hxq (hclear.self hrow)
  have hqp := hclear.trans (h.first_mem hq) hrow hfirst hqx (hclear.symm hfirst hrow hkey)
  obtain rfl := h.part_eq hp hq List.mem_cons_self hxq hkey hqp
  exact hxq

/-- Two rows of a clear list are together exactly if their keys are equal. -/
theorem together_iff (h : IsGrouping fields rows.zipIdx parts) (hclear : IsClear fields rows)
    (hx : x ∈ rows.zipIdx) (hy : y ∈ rows.zipIdx) :
    Together parts x y ↔ (keyOf fields x.1).same (keyOf fields y.1) := by
  have hrow : x.1 ∈ rows := List.fst_mem_of_mem_zipIdx hx
  have hrow' : y.1 ∈ rows := List.fst_mem_of_mem_zipIdx hy
  constructor
  · rintro ⟨p, hp, hxp, hyp⟩
    have hfirst := h.first_mem hp
    have hpx := (h.mem_members_iff hclear hp hx).mp hxp
    have hpy := (h.mem_members_iff hclear hp hy).mp hyp
    exact hclear.trans hrow hfirst hrow' (hclear.symm hfirst hrow hpx) hpy
  · intro hxy
    obtain ⟨p, hp, hxp⟩ := h.exists_part hx
    have hpx := (h.mem_members_iff hclear hp hx).mp hxp
    have hpy := hclear.trans (h.first_mem hp) hrow hrow' hpx hxy
    exact ⟨p, hp, hxp, (h.mem_members_iff hclear hp hy).mpr hpy⟩

/-- So but for their order, its rows are those with an equal key. -/
theorem rows_perm_filter (h : IsGrouping fields rows.zipIdx parts) (hclear : IsClear fields rows)
    (hp : p ∈ parts) :
    p.rows.Perm (rows.filter fun row => (p.key fields).same (keyOf fields row)) := by
  have hnodup := nodup_zipIdx rows
  have hmembers : p.members.Perm
      (rows.zipIdx.filter fun x => (p.key fields).same (keyOf fields x.1)) := by
    refine (List.perm_ext_iff_of_nodup ((h.inOrder p hp).nodup hnodup) (hnodup.filter _)).mpr
      fun x => ?_
    rw [List.mem_filter]
    constructor
    · intro hx
      have hrow := h.mem_rows hp hx
      exact ⟨hrow, (h.mem_members_iff hclear hp hrow).mp hx⟩
    · rintro ⟨hrow, hkey⟩
      exact (h.mem_members_iff hclear hp hrow).mpr hkey
  have hrows := hmembers.map Prod.fst
  have hfilter : (rows.zipIdx.filter fun x => (p.key fields).same (keyOf fields x.1)).map
      Prod.fst = rows.filter fun row => (p.key fields).same (keyOf fields row) := by
    conv_rhs => rw [← List.zipIdx_map_fst 0 rows, List.filter_map]
    rfl
  rwa [hfilter] at hrows

end IsGrouping

/-- The groups of clear fields do not depend on the order of the rows. -/
theorem groups_of_perm {fields : List String} {rows rows' : List Record}
    (hclear : IsClear fields rows) (hperm : rows.Perm rows') :
    ∀ g ∈ groupRows fields rows, ∃ g' ∈ groupRows fields rows', g.rows.Perm g'.rows := by
  intro g hg
  by_cases hnil : rows = []
  · subst hnil
    rw [← hperm.nil_eq]
    exact ⟨g, hg, .refl _⟩
  have hclear' : IsClear fields rows' := hclear.of_subset hperm.symm.subset
  have hnil' : rows' ≠ [] := fun heq => hnil (hperm.trans (.of_eq heq)).eq_nil
  obtain ⟨parts, hparts, h⟩ := exists_parts fields hnil
  obtain ⟨parts', hparts', h'⟩ := exists_parts fields hnil'
  rw [hparts] at hg
  obtain ⟨p, hp, rfl⟩ := List.mem_map.mp hg
  -- the part that holds the first row of this one
  have hfirst : p.first.1 ∈ rows' := hperm.subset (h.first_mem hp)
  obtain ⟨x, hx, hrow⟩ := exists_mem_zipIdx hfirst
  obtain ⟨q, hq, hmem⟩ := h'.exists_part hx
  have hkeys : (q.key fields).same (p.key fields) := by
    have hqx := (h'.mem_members_iff hclear' hq hx).mp hmem
    rwa [hrow] at hqx
  refine ⟨q.toGroup fields, hparts' ▸ List.mem_map_of_mem hq, ?_⟩
  have hsame : ∀ row ∈ rows', (p.key fields).same (keyOf fields row) =
      (q.key fields).same (keyOf fields row) := by
    intro row hrow
    have hqfirst := h'.first_mem hq
    rw [Bool.eq_iff_iff]
    exact ⟨hclear'.trans hqfirst hfirst hrow hkeys,
      hclear'.trans hfirst hqfirst hrow (hclear'.symm hqfirst hfirst hkeys)⟩
  have hfilter := hperm.filter fun row => (p.key fields).same (keyOf fields row)
  rw [List.filter_congr hsame] at hfilter
  exact ((h.rows_perm_filter hclear hp).trans hfilter).trans (h'.rows_perm_filter hclear' hq).symm

/-! ## Equality and groups -/

/-- Equality of values is symmetric, it is reflexive but for the infinite doubles, and a chain of
equal values goes wrong only at a double between two integers that are both rounded to it, of which
one is beyond `2 ^ 53`, or at three numbers from minus one to one that drift.  So two rows with
identical values are in one group; and where the key fields are clear, two rows are in one group
exactly if their keys are equal, in whatever order the rows come. -/
theorem equality_partitions_but_for_rounding :
    (∀ a : Value, a.Proper → a.isInfinite = false → a.same a) ∧
    (∀ a b : Value, a.Proper → b.Proper → a.same b → b.same a) ∧
    (∀ a b c : Value, a.Proper →
      ((a.same b ∧ b.same c ∧ a.same c = false) ↔ Value.Merges a b c ∨ Value.Drifts a b c)) ∧
    (∀ (m n : Int64) (b : Value), Value.Merges (.integer m) b (.integer n) →
      Double.exactBound < m.toInt.natAbs ∨ Double.exactBound < n.toInt.natAbs) ∧
    (∀ (fields : List String) (rows : List Record), rows ≠ [] → (∀ row ∈ rows, row.Proper) →
      ∃ parts : List Part, groupRows fields rows = parts.map (·.toGroup fields) ∧
        IsGrouping fields rows.zipIdx parts ∧
        (∀ x ∈ rows.zipIdx, ∀ y ∈ rows.zipIdx, Identical fields x.1 y.1 → Together parts x y) ∧
        (IsClear fields rows → ∀ x ∈ rows.zipIdx, ∀ y ∈ rows.zipIdx,
          (Together parts x y ↔ (keyOf fields x.1).same (keyOf fields y.1)))) ∧
    (∀ (fields : List String) (rows rows' : List Record), IsClear fields rows →
      rows.Perm rows' → ∀ g ∈ groupRows fields rows, ∃ g' ∈ groupRows fields rows',
        g.rows.Perm g'.rows) ∧
    (∀ (fields : List String) (rows : List Record), (∀ row ∈ rows, row.Proper) →
      (∀ field ∈ fields, WithoutDoubles field rows) → IsClear fields rows) := by
  refine ⟨fun a ha hfinite => ?_, fun a b ha hb hab => ?_, fun a b c ha => Value.chain_iff ha,
    fun m n b h => h.beyond, fun fields rows hrows hproper => ?_,
    fun fields rows rows' hclear hperm => groups_of_perm hclear hperm,
    fun fields rows hproper hdoubles => isClear_of_withoutDoubles hproper hdoubles⟩
  · rw [Value.same_self ha, hfinite]
    rfl
  · rwa [Value.same_comm hb ha]
  · obtain ⟨parts, hparts, h⟩ := exists_parts fields hrows
    refine ⟨parts, hparts, h, fun x hx y hy hidentical => ?_, fun hclear x hx y hy =>
      h.together_iff hclear hx hy⟩
    exact h.together_of_identical hx hy (hproper _ (List.fst_mem_of_mem_zipIdx hx)) hidentical

/-- No deal has a double in these fields, so the groups have the same deals in whatever order the
deals come. -/
theorem deals_grouped_in_any_order :
    (Value.double (Double.zero true)).same (.double (Double.zero true)) ∧
      IsClear ["Stage", "Region"] Dataset.salesPipeline.rows ∧
      ∀ g ∈ groupRows ["Stage", "Region"] Dataset.salesPipeline.rows,
        ∃ g' ∈ groupRows ["Stage", "Region"] Dataset.salesPipeline.rows.reverse,
          g.rows.Perm g'.rows := by
  obtain ⟨hrefl, -, -, -, -, hperm, hdoubles⟩ := equality_partitions_but_for_rounding
  have hclear : IsClear ["Stage", "Region"] Dataset.salesPipeline.rows := by
    refine hdoubles _ _ proper_salesPipeline ?_
    simp [WithoutDoubles, Dataset.salesPipeline, Dataset.ofRows, Dataset.deal, Record.get?,
      Record.lookup]
  exact ⟨hrefl _ trivial rfl, hclear, hperm _ _ _ hclear (List.reverse_perm _).symm⟩

/-- Zero, half of epsilon, and epsilon. -/
def driftingValues : List Value :=
  [.double (Double.zero false), .double (Double.nearest false (Nat.pow 2 1021) 1),
    .double Double.epsilon]

/-- A row with one value. -/
def valueRow (v : Value) : Record := ⟨[("X", v)]⟩

/-- Each of the three values equals the next, but the first does not equal the last.  In this order
their rows make two groups; with the middle one first, they make one. -/
theorem drifting_values_part :
    driftingValues[0].same driftingValues[1] ∧ driftingValues[1].same driftingValues[2] ∧
      driftingValues[0].same driftingValues[2] = false ∧
      (groupRows ["X"] (driftingValues.map valueRow)).length = 2 ∧
      (groupRows ["X"] ([driftingValues[1], driftingValues[0], driftingValues[2]].map
        valueRow)).length = 1 := by
  decide +kernel

end CrmEmulator
