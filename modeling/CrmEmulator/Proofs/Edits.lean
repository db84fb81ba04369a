import Mathlib.Data.Finmap
import Mathlib.Data.List.Induction

/-!
# CrmEmulator.Proofs.Edits — what a series of edits leaves

Things are put under names and dropped again.

1. `contents`: the finite map that edits leave; the last edit of a name stands.  `PutsOnce`: edits
   that never put a name again.
2. `Arrives`: the edit that brought a name which has been there ever since.  Each name that is
   there arrived once, so the names can be told in the order of their arrival.
3. `Keeps`: names in order, and what is looked up under each, agree with the edits.  One lemma for
   each kind of edit says what has to become of the names: one that is there keeps its place, a
   new one comes last, and one that is dropped leaves a gap that closes.
-/

namespace CrmEmulator

/-- A change of what is held under names. -/
inductive Edit (α : Type)
  | put (name : String) (x : α)
  | drop (name : String)
  | clear

namespace Edit

variable {α : Type} {edits : List (Edit α)} {name : String} {e : Edit α}

/-! ## Contents -/

/-- What is held after one more edit. -/
def apply (held : Finmap fun _ : String => α) : Edit α → Finmap fun _ : String => α
  | put name x => held.insert name x
  | drop name => held.erase name
  | clear => ∅

/-- What is held after edits, one after the other. -/
def contents (edits : List (Edit α)) : Finmap fun _ : String => α := edits.foldl apply ∅

/-- The last edit is applied to what the others leave. -/
theorem contents_concat (edits : List (Edit α)) (e : Edit α) :
    contents (edits ++ [e]) = apply (contents edits) e := by
  unfold contents
  rw [List.foldl_append]
  rfl

theorem contents_nil : contents ([] : List (Edit α)) = ∅ := rfl

theorem contents_clear (edits : List (Edit α)) : contents (edits ++ [.clear]) = ∅ :=
  contents_concat edits .clear

/-- What is put last under a name is held under it. -/
theorem lookup_insert (held : Finmap fun _ : String => α) (name key : String) (x : α) :
    (held.insert name x).lookup key = if key = name then some x else held.lookup key := by
  split
  · next hkey =>
    subst hkey
    exact Finmap.lookup_insert held
  · next hkey => exact Finmap.lookup_insert_of_ne held hkey

/-- What is dropped is found no more, and nothing else changes. -/
theorem lookup_erase (held : Finmap fun _ : String => α) (name key : String) :
    (held.erase name).lookup key = if key = name then none else held.lookup key := by
  split
  · next hkey =>
    subst hkey
    exact Finmap.lookup_erase key held
  · next hkey => exact Finmap.lookup_erase_ne hkey

/-- The name that an edit puts something under. -/
def putName? : Edit α → Option String
  | put name _ => some name
  | drop _ | clear => none

/-- What is held was put. -/
theorem mem_putNames (h : name ∈ contents edits) : name ∈ edits.filterMap putName? := by
  induction edits using List.reverseRecOn with
  | nil => exact absurd h Finmap.notMem_empty
  | append_singleton edits e ih =>
    rw [contents_concat] at h
    rw [List.filterMap_append, List.mem_append]
    cases e with
    | put key x =>
      rcases Finmap.mem_insert.mp h with rfl | hold
      · exact .inr (List.mem_singleton.mpr rfl)
      · exact .inl (ih hold)
    | drop key => exact .inl (ih (Finmap.mem_erase.mp h).2)
    | clear => exact absurd h Finmap.notMem_empty

/-- No name is put twice, not even after it was dropped. -/
def PutsOnce (edits : List (Edit α)) : Prop := (edits.filterMap putName?).Nodup

theorem PutsOnce.of_concat (h : PutsOnce (edits ++ [e])) : PutsOnce edits := by
  unfold PutsOnce at h
  rw [List.filterMap_append] at h
  exact (List.nodup_append.mp h).1

/-- A name that is put last is not there yet if no name is put twice. -/
theorem PutsOnce.not_mem {x : α} (h : PutsOnce (edits ++ [.put name x])) :
    name ∉ contents edits := by
  intro hmem
  unfold PutsOnce at h
  rw [List.filterMap_append] at h
  have happart := (List.nodup_append.mp h).2.2
  exact happart name (mem_putNames hmem) name (List.mem_singleton.mpr rfl) rfl

/-! ## Arrivals -/

/-- The edit at a place brought a name that was not there, and it has been there ever since. -/
structure Arrives (edits : List (Edit α)) (name : String) (i : Nat) : Prop where
  lt : i < edits.length
  absent : name ∉ contents (edits.take i)
  stays : ∀ j, i < j → j ≤ edits.length → name ∈ contents (edits.take j)

/-- A name that is there arrived once. -/
theorem Arrives.unique {i j : Nat} (hi : Arrives edits name i) (hj : Arrives edits name j) :
    i = j := by
  rcases Nat.lt_trichotomy i j with hlt | heq | hgt
  · exact absurd (hi.stays j hlt (Nat.le_of_lt hj.lt)) hj.absent
  · exact heq
  · exact absurd (hj.stays i hgt (Nat.le_of_lt hi.lt)) hi.absent

/-- A name that is still there arrived when it did. -/
theorem Arrives.concat {i : Nat} (h : Arrives edits name i)
    (hmem : name ∈ contents (edits ++ [e])) : Arrives (edits ++ [e]) name i := by
  have hlt := h.lt
  have hlength : (edits ++ [e]).length = edits.length + 1 := List.length_append
  refine ⟨by omega, ?_, ?_⟩
  · rw [List.take_append_of_le_length (Nat.le_of_lt hlt)]
    exact h.absent
  · intro j hij hj
    by_cases hlast : j ≤ edits.length
    · rw [List.take_append_of_le_length hlast]
      exact h.stays j hij hlast
    · have hall : j = (edits ++ [e]).length := by omega
      rw [hall, List.take_length]
      exact hmem

/-- A name that was not there arrives with the last edit. -/
theorem arrives_last (habsent : name ∉ contents edits)
    (hmem : name ∈ contents (edits ++ [e])) : Arrives (edits ++ [e]) name edits.length := by
  have hlength : (edits ++ [e]).length = edits.length + 1 := List.length_append
  refine ⟨by omega, ?_, ?_⟩
  · rw [List.take_append_of_le_length (Nat.le_refl _), List.take_length]
    exact habsent
  · intro j hij hj
    have hall : j = (edits ++ [e]).length := by omega
    rw [hall, List.take_length]
    exact hmem

/-- Every name that is there has arrived. -/
theorem exists_arrival (h : name ∈ contents edits) : ∃ i, Arrives edits name i := by
  induction edits using List.reverseRecOn with
  | nil => exact absurd h Finmap.notMem_empty
  | append_singleton edits e ih =>
    by_cases hbefore : name ∈ contents edits
    · obtain ⟨i, hi⟩ := ih hbefore
      exact ⟨i, hi.concat h⟩
    · exact ⟨edits.length, arrives_last hbefore h⟩

theorem Arrives.mem {i : Nat} (h : Arrives edits name i) : name ∈ contents edits := by
  have hmem := h.stays edits.length h.lt (Nat.le_refl _)
  rwa [List.take_length] at hmem

/-- One name arrived before another. -/
def Before (edits : List (Edit α)) (a b : String) : Prop :=
  ∃ i j, Arrives edits a i ∧ Arrives edits b j ∧ i < j

/-- Of two names one arrived before the other, not both. -/
theorem Before.asymm {a b : String} (hab : Before edits a b) : ¬Before edits b a := by
  rintro ⟨j', i', hj', hi', hlt'⟩
  obtain ⟨i, j, hi, hj, hlt⟩ := hab
  have hfirst : i = i' := hi.unique hi'
  have hsecond : j = j' := hj.unique hj'
  omega

theorem Before.ne {a b : String} (hab : Before edits a b) : a ≠ b := by
  rintro rfl
  exact hab.asymm hab

/-- One more edit does not change the order of names that are held before and after it. -/
theorem Before.concat {a b : String} (hab : Before edits a b)
    (ha : a ∈ contents (edits ++ [e])) (hb : b ∈ contents (edits ++ [e])) :
    Before (edits ++ [e]) a b := by
  obtain ⟨i, j, hi, hj, hlt⟩ := hab
  exact ⟨i, j, hi.concat ha, hj.concat hb, hlt⟩

/-- A new name arrives after all those that were there. -/
theorem before_last {a : String} (ha : a ∈ contents edits) (hname : name ∉ contents edits)
    (ha' : a ∈ contents (edits ++ [e])) (hname' : name ∈ contents (edits ++ [e])) :
    Before (edits ++ [e]) a name := by
  obtain ⟨i, hi⟩ := exists_arrival ha
  exact ⟨i, edits.length, hi.concat ha', arrives_last hname hname', hi.lt⟩

/-! ## Ordered maps -/

/-- Names in order, and what is looked up under each, are what edits leave: under each name what
is held, and the names in the order of their arrival. -/
structure Keeps (names : List String) (get? : String → Option α) (edits : List (Edit α)) :
    Prop where
  get?_eq : ∀ name, get? name = (contents edits).lookup name
  mem_iff : ∀ name, name ∈ names ↔ name ∈ contents edits
  ordered : names.Pairwise (Before edits)

namespace Keeps

variable {names names' : List String} {get? get?' : String → Option α}

theorem nodup (h : Keeps names get? edits) : names.Nodup :=
  h.ordered.imp Before.ne

theorem toFinset_eq (h : Keeps names get? edits) : names.toFinset = (contents edits).keys := by
  ext name
  rw [List.mem_toFinset, Finmap.mem_keys, h.mem_iff]

/-- There are as many names as there are things held. -/
theorem length_eq (h : Keeps names get? edits) :
    names.length = (contents edits).keys.card := by
  rw [← h.toFinset_eq, List.toFinset_card_of_nodup h.nodup]

/-- The edits leave no choice of the order. -/
theorem names_eq (h : Keeps names get? edits) (h' : Keeps names' get?' edits) :
    names = names' := by
  have hperm : names.Perm names' := by
    refine (List.perm_ext_iff_of_nodup h.nodup h'.nodup).mpr ?_
    intro name
    rw [h.mem_iff, h'.mem_iff]
  refine hperm.eq_of_pairwise ?_ h.ordered h'.ordered
  intro a b _ _ hab hba
  exact absurd hba hab.asymm

theorem empty : Keeps [] (fun _ => none) ([] : List (Edit α)) where
  get?_eq _ := by rw [contents_nil, Finmap.lookup_empty]
  mem_iff _ := iff_of_false List.not_mem_nil Finmap.notMem_empty
  ordered := List.Pairwise.nil

/-- Something is put under a name: what is there is overwritten in its place, and a new name comes
last. -/
theorem put (h : Keeps names get? edits) (x : α)
    (hnames : names' = if name ∈ names then names else names ++ [name])
    (hget? : ∀ key, get?' key = if key = name then some x else get? key) :
    Keeps names' get?' (edits ++ [.put name x]) := by
  have hmem : ∀ key, key ∈ contents (edits ++ [.put name x]) ↔ key = name ∨ key ∈ names := by
    intro key
    rw [contents_concat, h.mem_iff]
    exact Finmap.mem_insert
  -- the names that were there keep their order
  have hkept : names.Pairwise (Before (edits ++ [.put name x])) := by
    refine h.ordered.imp_of_mem ?_
    intro a b ha hb hab
    exact hab.concat ((hmem a).mpr (.inr ha)) ((hmem b).mpr (.inr hb))
  constructor
  case get?_eq =>
    intro key
    rw [hget?, contents_concat, apply, lookup_insert, h.get?_eq]
  case mem_iff =>
    intro key
    rw [hmem, hnames]
    split
    · next hold =>
      constructor
      · exact .inr
      · rintro (rfl | hkey)
        · exact hold
        · exact hkey
    · rw [List.mem_append, List.mem_singleton, or_comm]
  case ordered =>
    rw [hnames]
    split
    · exact hkept
    · next hnew =>
      refine List.pairwise_append.mpr ⟨hkept, List.pairwise_singleton _ _, ?_⟩
      rintro a ha b hb
      rw [List.mem_singleton.mp hb]
      exact before_last ((h.mem_iff a).mp ha) (fun hold => hnew ((h.mem_iff name).mpr hold))
        ((hmem a).mpr (.inr ha)) ((hmem name).mpr (.inl rfl))

/-- What is under a name is dropped, and its name leaves the others as they stand. -/
theorem drop (h : Keeps names get? edits)
    (hnames : names' = names.filter (· ≠ name))
    (hget? : ∀ key, get?' key = if key = name then none else get? key) :
    Keeps names' get?' (edits ++ [.drop name]) := by
  have hmem : ∀ key, key ∈ contents (edits ++ [.drop name]) ↔ key ≠ name ∧ key ∈ names := by
    intro key
    rw [contents_concat, h.mem_iff]
    exact Finmap.mem_erase
  have hmem' : ∀ key, key ∈ names' ↔ key ≠ name ∧ key ∈ names := by
    intro key
    rw [hnames, List.mem_filter, decide_eq_true_eq, and_comm]
  constructor
  case get?_eq =>
    intro key
    rw [hget?, contents_concat, apply, lookup_erase, h.get?_eq]
  case mem_iff =>
    intro key
    rw [hmem, hmem']
  case ordered =>
    -- names that stay have arrived in the order that they had
    have hsub : names'.Pairwise (Before edits) := by
      rw [hnames]
      exact h.ordered.filter _
    refine hsub.imp_of_mem ?_
    intro a b ha hb hab
    exact hab.concat ((hmem a).mpr ((hmem' a).mp ha)) ((hmem b).mpr ((hmem' b).mp hb))

/-- After clearing there are no names. -/
theorem clear (edits : List (Edit α)) : Keeps [] (fun _ => none) (edits ++ [.clear]) where
  get?_eq _ := by rw [contents_clear, Finmap.lookup_empty]
  mem_iff _ := by
    rw [contents_clear]
    exact iff_of_false List.not_mem_nil Finmap.notMem_empty
  ordered := List.Pairwise.nil

end Keeps

end Edit

end CrmEmulator
