import CrmEmulator.Proofs.Store.Write
import Mathlib.Logic.ExistsUnique

/-!
# CrmEmulator.Proofs.Store.Change — what one write leaves alone

1. `Store.Only`: two stores that differ in the records of one object only.
2. `Change`: a write as it looks from outside.  Two kinds of change exclude each other, since they
   differ in the number of records, or else in whether anything happens at all.
3. Every write to a collection of a store is a change of exactly one kind.
-/

namespace CrmEmulator

namespace Store

/-! ## Two stores -/

/-- The stores differ in the records of one object only. -/
def Only (before after : Store) (object : String) (old new : List Record) : Prop :=
  ∃ pre post, before.collections = pre ++ (object, ⟨old⟩) :: post ∧
    after.collections = pre ++ (object, ⟨new⟩) :: post

/-- The records of two lists of collections are counted together. -/
theorem total_append (pre post : List (String × Collection)) :
    total ⟨pre ++ post⟩ = total ⟨pre⟩ + total ⟨post⟩ := by
  induction pre with
  | nil => simp [total]
  | cons entry pre ih =>
    simp only [total, List.cons_append, List.foldr_cons] at ih ⊢
    omega

/-- Where only one object differs, so does the total. -/
theorem Only.total {before after : Store} {object : String} {old new : List Record}
    (h : Only before after object old new) :
    after.total + old.length = before.total + new.length := by
  rcases before with ⟨before⟩
  rcases after with ⟨after⟩
  rcases h with ⟨pre, post, rfl, rfl⟩
  have hcons (records : List Record) :
      Store.total ⟨(object, ⟨records⟩) :: post⟩ = records.length + Store.total ⟨post⟩ := rfl
  rw [total_append, total_append, hcons, hcons]
  omega

/-- The first collection of an object is the one that is replaced. -/
theorem split_of_lookup {object : String} {collections : List (String × Collection)}
    {c : Collection} (h : lookup object collections = some c) :
    ∃ pre post, collections = pre ++ (object, c) :: post ∧
      ∀ new, replace object new collections = pre ++ (object, new) :: post := by
  induction collections with
  | nil => cases h
  | cons entry rest ih =>
    rcases entry with ⟨name, old⟩
    unfold lookup at h
    split at h
    · next hname =>
      cases h
      exact ⟨[], rest, by simp [hname], fun new => by simp [replace, hname]⟩
    · next hname =>
      rcases ih h with ⟨pre, post, hrest, hreplace⟩
      refine ⟨(name, old) :: pre, post, by rw [hrest]; rfl, ?_⟩
      intro new
      simp [replace, hname, hreplace]

theorem mem_of_lookup {object : String} {collections : List (String × Collection)}
    {c : Collection} (h : lookup object collections = some c) : (object, c) ∈ collections := by
  rcases split_of_lookup h with ⟨pre, post, rfl, -⟩
  simp

/-- The collection that replaces another is looked up. -/
theorem lookup_replace {object : String} {collections : List (String × Collection)}
    {c : Collection} (h : lookup object collections = some c) (new : Collection) :
    lookup object (replace object new collections) = some new := by
  induction collections with
  | nil => cases h
  | cons entry rest ih =>
    unfold lookup at h
    unfold replace
    split
    · simp_all [lookup]
    · next hname => simpa [lookup, hname] using ih (by simpa [hname] using h)

/-- The last replacement stands. -/
theorem replace_replace (object : String) (c new : Collection)
    (collections : List (String × Collection)) :
    replace object new (replace object c collections) = replace object new collections := by
  induction collections with
  | nil => rfl
  | cons entry rest ih =>
    by_cases hname : entry.1 = object
    · simp [replace, hname]
    · simp [replace, hname, ih]

/-- Replacing a collection changes the records of its object only. -/
theorem only_setCollection {s : Store} {object : String} {c : Collection}
    (h : lookup object s.collections = some c) (new : Collection) :
    Only s (s.setCollection object new) object c.records new.records := by
  rcases split_of_lookup h with ⟨pre, post, hcollections, hreplace⟩
  exact ⟨pre, post, hcollections, hreplace new⟩

/-- A store with another collection holds that one and what it held before. -/
theorem mem_setCollection {s : Store} {object : String} {c : Collection}
    (h : lookup object s.collections = some c) {new : Collection} {entry : String × Collection}
    (hentry : entry ∈ (s.setCollection object new).collections) :
    entry = (object, new) ∨ entry ∈ s.collections := by
  rcases only_setCollection h new with ⟨pre, post, hold, hnew⟩
  rw [hnew] at hentry
  rw [hold]
  simp only [List.mem_append, List.mem_cons] at hentry ⊢
  rcases hentry with hpre | rfl | hpost
  · exact .inr (.inl hpre)
  · exact .inl rfl
  · exact .inr (.inr (.inr hpost))

/-- Replacing a collection by itself changes nothing. -/
theorem setCollection_self {s : Store} {object : String} {c : Collection}
    (h : lookup object s.collections = some c) : s.setCollection object c = s := by
  rcases split_of_lookup h with ⟨pre, post, hcollections, hreplace⟩
  unfold setCollection
  rw [hreplace, ← hcollections]

/-- Replacing a collection keeps the objects. -/
theorem objects_setCollection (s : Store) (object : String) (new : Collection) :
    (s.setCollection object new).objects = s.objects := by
  rcases s with ⟨collections⟩
  show (replace object new collections).map (·.1) = collections.map (·.1)
  induction collections with
  | nil => rfl
  | cons entry rest ih =>
    unfold replace
    split <;> simp [ih]

theorem objects_cleared (s : Store) : s.cleared.2.objects = s.objects := by
  simp [cleared, objects, Function.comp_def]

/-- Every object that the store knows has a collection. -/
theorem exists_collection {s : Store} {object : String} (h : object ∈ s.objects) :
    ∃ c, lookup object s.collections = some c := by
  rcases s with ⟨collections⟩
  have hnames : object ∈ collections.map (·.1) := h
  show ∃ c, lookup object collections = some c
  clear h
  induction collections with
  | nil => cases hnames
  | cons entry rest ih =>
    unfold lookup
    split
    · exact ⟨_, rfl⟩
    · next hname =>
      rcases List.mem_cons.mp hnames with heq | hrest
      · exact absurd heq.symm hname
      · exact ih hrest

end Store

/-! ## Kinds of change -/

inductive Change
  | kept
  | appended
  | edited
  | removed
deriving Repr, DecidableEq

namespace Change

/-- The store is as it was, has one record more at the end of a collection, has other fields than
the id in one record, or has one record less. -/
def Relates (before after : Store) : Change → Prop
  | kept => after = before
  | appended => ∃ object records r, Store.Only before after object records (records ++ [r])
  | edited => ∃ object front r r' back,
      Store.Only before after object (front ++ r :: back) (front ++ r' :: back) ∧
        r' ≠ r ∧ r'.get? "Id" = r.get? "Id"
  | removed => ∃ object front r back,
      Store.Only before after object (front ++ r :: back) (front ++ back)

variable {before after : Store}

/-- A record that is appended counts one more. -/
theorem total_of_appended (h : Relates before after appended) :
    after.total = before.total + 1 := by
  rcases h with ⟨object, records, r, honly⟩
  have := honly.total
  simp only [List.length_append, List.length_singleton] at this
  omega

/-- An edit keeps the count. -/
theorem total_of_edited (h : Relates before after edited) : after.total = before.total := by
  rcases h with ⟨object, front, r, r', back, honly, -⟩
  have := honly.total
  simp only [List.length_append, List.length_cons] at this
  omega

/-- A record that is removed counts one less. -/
theorem total_of_removed (h : Relates before after removed) :
    after.total + 1 = before.total := by
  rcases h with ⟨object, front, r, back, honly⟩
  have := honly.total
  simp only [List.length_append, List.length_cons] at this
  omega

/-- An edit changes the store. -/
theorem ne_of_edited (h : Relates before after edited) : after ≠ before := by
  rintro rfl
  rcases h with ⟨object, front, r, r', back, ⟨pre, post, hold, hnew⟩, hne, -⟩
  rw [hold] at hnew
  simp only [List.append_cancel_left_eq, List.cons.injEq, Prod.mk.injEq, Collection.mk.injEq,
    true_and, and_true] at hnew
  exact hne hnew.symm

/-- Two stores are related by one kind of change at most. -/
theorem Relates.unique {k k' : Change} (h : Relates before after k)
    (h' : Relates before after k') : k = k' := by
  -- the number of records tells all kinds apart but keeping and editing
  have hkept (h : Relates before after kept) : after = before := h
  have happended := @total_of_appended before after
  have hedited := @total_of_edited before after
  have hremoved := @total_of_removed before after
  have hne := @ne_of_edited before after
  cases k <;> cases k' <;> grind

end Change

/-! ## Writes to a store -/

/-- A write to a collection of a store is a change of exactly one kind. -/
theorem Write.change {s : Schema} {st st' : RowState} (h : Write s st st') {store : Store}
    {object : String} (hc : Store.lookup object store.collections = some st.collection) :
    ∃! k, Change.Relates store (store.setCollection object st'.collection) k := by
  have honly := Store.only_setCollection hc st'.collection
  have hsome : ∃ k, Change.Relates store (store.setCollection object st'.collection) k := by
    cases h with
    | kept => exact ⟨.kept, Store.setCollection_self hc⟩
    | appended c supply => exact ⟨.appended, object, c.records, _, honly⟩
    | @edited front back r supply sent hvalid =>
      by_cases hsame : r.updated supply.now sent = r
      · -- the values that were sent are those that are there, under the same stamps
        rw [hsame]
        exact ⟨.kept, Store.setCollection_self hc⟩
      · exact ⟨.edited, object, front, r, _, back, honly, hsame, Record.get?_id_updated ..⟩
    | removed front back r supply => exact ⟨.removed, object, front, r, back, honly⟩
  rcases hsome with ⟨k, hk⟩
  exact ⟨k, hk, fun _ hk' => hk'.unique hk⟩

end CrmEmulator
