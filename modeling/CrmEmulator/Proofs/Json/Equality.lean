import CrmEmulator.Proofs.Double.Order
import CrmEmulator.Proofs.Json.Reading
import Mathlib.Data.List.Perm.Subperm

/-!
# CrmEmulator.Proofs.Json.Equality — equality of documents up to the order of members

1. `Proper`: documents whose objects have distinct names and whose doubles are numbers.  Every
   document that is read from a text is one (`proper_of_parse?`).
2. What the equality of lists and of objects says of their parts.
3. On proper documents the equality is reflexive, symmetric and transitive, each by induction over
   the first document.
-/

namespace CrmEmulator

namespace Json

/-! ## Proper documents -/

/-- A document whose objects have distinct names and whose doubles are numbers. -/
inductive Proper : Json → Prop
  | null : Proper .null
  | bool (b : Bool) : Proper (.bool b)
  | int (n : Int) : Proper (.int n)
  | double {x : Double} (h : x.isNaN = false) : Proper (.double x)
  | str (s : String) : Proper (.str s)
  | arr {items : List Json} (h : ∀ item ∈ items, Proper item) : Proper (.arr items)
  | obj {members : List (String × Json)} (names : (members.map (·.1)).Nodup)
      (h : ∀ member ∈ members, Proper member.2) : Proper (.obj members)

/-! ## Documents that are read -/

theorem IsNumber.proper {doc : Json} (h : IsNumber doc) : doc.Proper := by
  cases h with
  | int => exact .int _
  | double hfinite => exact .double (Double.isNaN_of_isFinite hfinite)

theorem IsNumber.settle_eq {doc : Json} (h : IsNumber doc) : settle doc = doc := by
  cases h <;> simp [settle]

/-- Members that are settled one after the other make a proper object. -/
theorem proper_settleMembers {done members : List (String × Json)} (hdone : (obj done).Proper)
    (hmembers : ∀ member ∈ members, (settle member.2).Proper) :
    (obj (settleMembers done members)).Proper := by
  induction members generalizing done with
  | nil => simpa [settleMembers] using hdone
  | cons member members ih =>
    rw [List.forall_mem_cons] at hmembers
    cases hdone with
    | obj names hdone =>
      have hset : (obj (setMember member.1 (settle member.2) done)).Proper := by
        refine .obj (nodup_setMember names _ _) fun other hother => ?_
        rcases mem_setMember hother with rfl | hold
        · exact hmembers.1
        · exact hdone other hold
      rw [settleMembers]
      exact ih hset hmembers.2

/-- What is read becomes proper when its members are settled. -/
theorem proper_settle (fuel : Nat) :
    (∀ depth cs doc rest, value? fuel depth cs = some (doc, rest) → (settle doc).Proper) ∧
    (∀ depth cs items rest, items? fuel depth cs = some (items, rest) →
      ∀ item ∈ settleItems items, item.Proper) ∧
    ∀ depth cs members rest, members? fuel depth cs = some (members, rest) →
      ∀ member ∈ members, (settle member.2).Proper := by
  -- the readers of values, items and members call each other with less fuel
  induction fuel with
  | zero => refine ⟨?_, ?_, ?_⟩ <;> intro _ _ _ _ h <;> cases h
  | succ fuel ih =>
    obtain ⟨hvalue, hitems, hmembers⟩ := ih
    have hnone : (obj []).Proper := .obj List.nodup_nil (List.forall_mem_nil _)
    refine ⟨fun depth cs doc rest h => ?_, fun depth cs items rest h => ?_,
      fun depth cs members rest h => ?_⟩
    · cases value?_reads h with
      | null => simpa [settle] using Proper.null
      | bool b => simpa [settle] using Proper.bool b
      | str s => simpa [settle] using Proper.str s
      | number hnumber =>
        rw [hnumber.settle_eq]
        exact hnumber.proper
      | noItems =>
        rw [settle, settleItems]
        exact .arr (List.forall_mem_nil _)
      | arr hread =>
        rw [settle]
        exact .arr (hitems _ _ _ _ hread)
      | noMembers =>
        rw [settle]
        exact proper_settleMembers hnone (List.forall_mem_nil _)
      | obj hread =>
        rw [settle]
        exact proper_settleMembers hnone (hmembers _ _ _ _ hread)
    · obtain ⟨item, others, rfl, ⟨_, _, hitem⟩, hothers⟩ := items?_reads h
      rw [settleItems]
      refine List.forall_mem_cons.mpr ⟨hvalue _ _ _ _ hitem, ?_⟩
      rcases hothers with rfl | ⟨_, _, hothers⟩
      · exact List.forall_mem_nil _
      · exact hitems _ _ _ _ hothers
    · obtain ⟨key, value, others, rfl, ⟨_, _, hread⟩, hothers⟩ := members?_reads h
      refine List.forall_mem_cons.mpr ⟨hvalue _ _ _ _ hread, ?_⟩
      rcases hothers with rfl | ⟨_, _, hothers⟩
      · exact List.forall_mem_nil _
      · exact hmembers _ _ _ _ hothers

/-- A document that is read from a text is proper. -/
theorem proper_of_parse? {cs : List Char} {doc : Json} (h : parse? cs = some doc) :
    doc.Proper := by
  obtain ⟨written, hread, rfl⟩ := Option.map_eq_some_iff.mp h
  obtain ⟨⟨written', rest⟩, hvalue, hend⟩ := Option.bind_eq_some_iff.mp hread
  simp only at hend
  split at hend
  · cases hend
    exact (proper_settle _).1 _ _ _ _ hvalue
  · cases hend

/-! ## Members -/

/-- What is found among members is one of them. -/
theorem mem_of_lookup {name : String} {members : List (String × Json)} {doc : Json}
    (h : lookup name members = some doc) : (name, doc) ∈ members := by
  induction members with
  | nil => cases h
  | cons member members ih =>
    unfold lookup at h
    split at h
    · next hname =>
      cases h
      exact hname ▸ List.mem_cons_self
    · exact List.mem_cons_of_mem _ (ih h)

/-- Among distinct names every member is found. -/
theorem lookup_of_mem {members : List (String × Json)} (hnames : (members.map (·.1)).Nodup)
    {member : String × Json} (h : member ∈ members) :
    lookup member.1 members = some member.2 := by
  induction members with
  | nil => cases h
  | cons first members ih =>
    rw [List.map_cons, List.nodup_cons] at hnames
    rcases List.mem_cons.mp h with rfl | hrest
    · simp [lookup]
    · have hne : first.1 ≠ member.1 := by
        intro heq
        exact hnames.1 (heq ▸ List.mem_map_of_mem hrest)
      rw [lookup, if_neg hne, ih hnames.2 hrest]

/-- Every member has an equal one of its name in the other object. -/
theorem sameMembers_iff {members other : List (String × Json)} :
    sameMembers members other ↔
      ∀ member ∈ members, ∃ doc, lookup member.1 other = some doc ∧ member.2.same doc := by
  induction members with
  | nil => simp [sameMembers]
  | cons member members ih =>
    rw [sameMembers, Bool.and_eq_true, ih, List.forall_mem_cons]
    refine and_congr_left' ?_
    cases lookup member.1 other <;> simp

theorem same_obj_iff {members other : List (String × Json)} :
    (obj members).same (.obj other) ↔ members.length = other.length ∧
      ∀ member ∈ members, ∃ doc, lookup member.1 other = some doc ∧ member.2.same doc := by
  rw [same, Bool.and_eq_true, beq_iff_eq, sameMembers_iff]

/-- Objects of one size have the same names if all names of one are names of the other. -/
theorem names_subset_of_length_eq {members other : List (String × Json)}
    (hnames : (members.map (·.1)).Nodup) (hlength : members.length = other.length)
    (h : members.map (·.1) ⊆ other.map (·.1)) : other.map (·.1) ⊆ members.map (·.1) := by
  have hle : (other.map (·.1)).length ≤ (members.map (·.1)).length :=
    Nat.le_of_eq (by rw [List.length_map, List.length_map, hlength])
  exact ((List.subperm_of_subset hnames h).perm_of_length_le hle).symm.subset

/-! ## Reflexivity -/

/-- Equality of lists is reflexive where that of the items is. -/
theorem sameItems_refl {items : List Json} (h : ∀ item ∈ items, item.same item) :
    sameItems items items := by
  induction items with
  | nil => rfl
  | cons item items ih =>
    rw [List.forall_mem_cons] at h
    rw [sameItems, Bool.and_eq_true]
    exact ⟨h.1, ih h.2⟩

/-- Equality of proper documents is reflexive. -/
theorem same_refl {doc : Json} (h : doc.Proper) : doc.same doc := by
  induction h with
  | null => rfl
  | bool | int | str => exact beq_self_eq_true _
  | double hx => exact (Double.eq_iff hx hx).mpr rfl
  | arr _ ih => exact sameItems_refl ih
  | obj names _ ih =>
    exact same_obj_iff.mpr ⟨rfl, fun member hmember =>
      ⟨member.2, lookup_of_mem names hmember, ih member hmember⟩⟩

/-! ## Symmetry -/

/-- Equality of lists is symmetric where that of the items is. -/
theorem sameItems_symm {items other : List Json} (hother : ∀ item ∈ other, item.Proper)
    (h : ∀ item ∈ items, ∀ {doc : Json}, doc.Proper → item.same doc → doc.same item)
    (hsame : sameItems items other) : sameItems other items := by
  induction items generalizing other with
  | nil =>
    cases other with
    | nil => rfl
    | cons => cases hsame
  | cons item items ih =>
    cases other with
    | nil => cases hsame
    | cons doc other =>
      rw [List.forall_mem_cons] at h hother
      rw [sameItems, Bool.and_eq_true] at hsame ⊢
      exact ⟨h.1 hother.1 hsame.1, ih hother.2 h.2 hsame.2⟩

/-- Equality of proper documents is symmetric. -/
theorem same_symm {a b : Json} (ha : a.Proper) (hb : b.Proper) (h : a.same b) : b.same a := by
  induction ha generalizing b with
  | null =>
    cases b with
    | null => rfl
    | _ => cases h
  | bool | int | str =>
    cases b with
    | bool | int | str => first | cases h | exact beq_iff_eq.mpr (beq_iff_eq.mp h).symm
    | _ => cases h
  | double hx =>
    cases hb with
    | double hy => exact (Double.eq_iff hy hx).mpr ((Double.eq_iff hx hy).mp h).symm
    | _ => cases h
  | arr _ ih =>
    cases hb with
    | arr hother => exact sameItems_symm hother ih h
    | _ => cases h
  | @obj members names _ ih =>
    cases hb with
    | @obj other names' hother =>
      rw [same_obj_iff] at h ⊢
      refine ⟨h.1.symm, fun member hmember => ?_⟩
      -- the names are the same on both sides, so the member was compared with one of the others
      have hsubset : members.map (·.1) ⊆ other.map (·.1) := by
        rintro name hname
        obtain ⟨first, hfirst, rfl⟩ := List.mem_map.mp hname
        obtain ⟨doc, hdoc, -⟩ := h.2 first hfirst
        exact List.mem_map.mpr ⟨_, mem_of_lookup hdoc, rfl⟩
      obtain ⟨first, hfirst, hname⟩ := List.mem_map.mp
        (names_subset_of_length_eq names h.1 hsubset (List.mem_map_of_mem hmember))
      obtain ⟨doc, hdoc, hsame⟩ := h.2 first hfirst
      have hmatch : doc = member.2 := by
        have hlookup := lookup_of_mem names' hmember
        rw [← hname, hdoc] at hlookup
        exact Option.some.inj hlookup
      subst hmatch
      exact ⟨first.2, hname ▸ lookup_of_mem names hfirst,
        ih first hfirst (hother member hmember) hsame⟩
    | _ => cases h

/-! ## Transitivity -/

/-- Equality of lists is transitive where that of the items is. -/
theorem sameItems_trans {items middle other : List Json}
    (h : ∀ item ∈ items, ∀ {b c : Json}, item.same b → b.same c → item.same c)
    (hsame : sameItems items middle) (hsame' : sameItems middle other) :
    sameItems items other := by
  induction items generalizing middle other with
  | nil =>
    cases middle with
    | nil => exact hsame'
    | cons => cases hsame
  | cons item items ih =>
    cases middle with
    | nil => cases hsame
    | cons b middle =>
      cases other with
      | nil => cases hsame'
      | cons c other =>
        rw [List.forall_mem_cons] at h
        rw [sameItems, Bool.and_eq_true] at hsame hsame' ⊢
        exact ⟨h.1 hsame.1 hsame'.1, ih h.2 hsame.2 hsame'.2⟩

/-- Equality of documents is transitive, if the first is proper. -/
theorem same_trans {a b c : Json} (ha : a.Proper) (hab : a.same b) (hbc : b.same c) :
    a.same c := by
  -- on the first document: it has the kind of the second, and so of the third
  induction ha generalizing b c with
  | null | bool | int | str =>
    cases b with
    | null | bool | int | str =>
      first
      | exact hbc
      | cases hab
      | exact beq_iff_eq.mp hab ▸ hbc
    | _ => cases hab
  | double hx =>
    cases b with
    | double y =>
      cases c with
      | double z =>
        have hy := Double.isNaN_of_eq hab
        have hz := Double.isNaN_of_eq hbc
        rw [same, Double.eq_iff hx hy] at hab
        rw [same, Double.eq_iff hy hz] at hbc
        exact (Double.eq_iff hx hz).mpr (hab.trans hbc)
      | _ => cases hbc
    | _ => cases hab
  | arr _ ih =>
    cases b with
    | arr middle =>
      cases c with
      | arr other => exact sameItems_trans (fun item hitem _ _ => ih item hitem) hab hbc
      | _ => cases hbc
    | _ => cases hab
  | obj _ _ ih =>
    cases b with
    | obj middle =>
      cases c with
      | obj other =>
        rw [same_obj_iff] at hab hbc ⊢
        refine ⟨hab.1.trans hbc.1, fun member hmember => ?_⟩
        obtain ⟨doc, hdoc, hsame⟩ := hab.2 member hmember
        obtain ⟨doc', hdoc', hsame'⟩ := hbc.2 _ (mem_of_lookup hdoc)
        exact ⟨doc', hdoc', ih member hmember hsame hsame'⟩
      | _ => cases hbc
    | _ => cases hab

end Json

end CrmEmulator
