import CrmEmulator.Json.Members
import CrmEmulator.Proofs.Json.Writing

/-!
# CrmEmulator.Proofs.Json.Members — the members of documents, written and read

1. The member with a name in a list of members that is put together from parts.
2. Lists of strings and counts are read back, and their texts show them exactly.
3. A member that may be missing is its default or is read from its document.  A member is read back
   whether it is always written or only where it has a value.
4. The members of a document with proper parts are proper, by name and by position.
-/

namespace CrmEmulator

namespace Json

/-- The first list with a member of the name decides. -/
theorem lookup_append (name : String) (members more : List (String × Json)) :
    lookup name (members ++ more) = (lookup name members).or (lookup name more) := by
  induction members with
  | nil => rfl
  | cons member members ih =>
    rw [List.cons_append, lookup, lookup]
    split
    · rfl
    · exact ih

/-! ## Values -/

/-- A member that is there was read from what stands there. -/
theorem readOption?_some {α : Type} {read : Json → Option α} {doc : Json} {x : α}
    (h : readOption? read doc = some (some x)) : read doc = some x := by
  unfold readOption? at h
  split at h
  · cases h
  · obtain ⟨y, hy, heq⟩ := Option.map_eq_some_iff.mp h
    cases heq
    exact hy

/-- A list of strings is read back from its document. -/
theorem readStrings?_ofStrings (items : List String) :
    readStrings? (.ofStrings items) = some items := by
  rw [ofStrings, readStrings?]
  induction items with
  | nil => rfl
  | cons item items ih =>
    rw [List.map_cons, List.mapM_cons, ih]
    rfl

/-- A count that fits its bits is read back. -/
theorem readCount?_ofNat {bits n : Nat} (h : n < Nat.pow 2 bits) :
    readCount? bits (.ofNat n) = some n := by
  have hfits : (0 : Int) ≤ n ∧ (n : Int).toNat < Nat.pow 2 bits := ⟨Int.natCast_nonneg n, h⟩
  rw [ofNat, readCount?, if_pos hfits]
  rfl

/-- A count that is read fits its bits. -/
theorem lt_of_readCount? {bits n : Nat} {doc : Json} (h : readCount? bits doc = some n) :
    n < Nat.pow 2 bits := by
  unfold readCount? at h
  split at h
  · split at h
    · next hfits =>
      cases h
      exact hfits.2
    · cases h
  · cases h

/-- A count of at most 64 bits is shown exactly. -/
theorem exact_ofNat {n bits : Nat} (hbits : bits ≤ 64) (h : n < Nat.pow 2 bits) (depth : Nat) :
    Exact depth (.ofNat n) := by
  have hpow : Nat.pow 2 bits ≤ Nat.pow 2 64 := Nat.pow_le_pow_right (by decide) hbits
  exact .int (inRange_natCast (Nat.lt_of_lt_of_le h hpow))

/-- Documents of strings have no numbers that could change. -/
theorem exact_ofStrings (items : List String) (depth : Nat) :
    Exact (depth + 1) (.ofStrings items) := by
  refine .arr fun item hitem => ?_
  obtain ⟨s, -, rfl⟩ := List.mem_map.mp hitem
  exact .str s

/-! ## Members that may be missing -/

section

variable {α : Type} {members : List (String × Json)} {name : String} {read : Json → Option α}

/-- A member is its default or what is read from its document. -/
theorem readMember?_cases {default x : α} (h : readMember? members name default read = some x) :
    x = default ∨ ∃ doc, (name, doc) ∈ members ∧ read doc = some x := by
  unfold readMember? at h
  split at h
  · next doc hdoc => exact .inr ⟨doc, mem_of_lookup hdoc, h⟩
  · exact .inl (Option.some.inj h).symm

/-- A member that is always written is read back. -/
theorem readMember?_written {default x : α} {doc : Json} (hlookup : lookup name members = some doc)
    (hread : read doc = some x) : readMember? members name default read = some x := by
  rw [readMember?, hlookup]
  exact hread

/-- A member that is written where it has a value is read back. -/
theorem readMember?_option {write : α → Json} {x : Option α}
    (hlookup : lookup name members = x.map write)
    (hread : ∀ y, x = some y → readOption? read (write y) = some (some y)) :
    readMember? members name none (readOption? read) = some x := by
  rw [readMember?, hlookup]
  cases x with
  | none => rfl
  | some y => exact hread y rfl

/-- A list that is written where it has items is read back. -/
theorem readMember?_strings {items : List String}
    (hlookup : lookup name members = if items.isEmpty then none else some (.ofStrings items)) :
    readMember? members name [] readStrings? = some items := by
  cases items with
  | nil =>
    rw [readMember?, hlookup]
    rfl
  | cons item items => exact readMember?_written hlookup (readStrings?_ofStrings (item :: items))

end

/-! ## Proper members -/

/-- The members of a document with proper parts are proper, by name or by position. -/
theorem proper_of_membersByName? {doc : Json} {order : List String}
    {members : List (String × Json)}
    (hdoc : (∃ members, doc = .obj members ∧ ∀ member ∈ members, member.2.Proper) ∨ doc.Proper)
    (h : doc.membersByName? order = some members) : ∀ member ∈ members, member.2.Proper := by
  rcases hdoc with ⟨members, rfl, hproper⟩ | hproper
  · cases h
    exact hproper
  · cases hproper with
    | obj _ hproper =>
      cases h
      exact hproper
    | @arr items hproper =>
      unfold membersByName? at h
      simp only at h
      split at h
      · cases h
        intro member hmember
        exact hproper _ (List.of_mem_zip hmember).2
      · cases h
    | _ => cases h

end Json

end CrmEmulator
