import CrmEmulator.Json.Reader
import CrmEmulator.Proofs.Double.Rounding
import CrmEmulator.Text.Numeral

/-!
# CrmEmulator.Proofs.Json.Reading — what documents are read

1. `inRange`: the numbers that a reader makes.  A whole number has 64 bits, with or without a sign,
   and a double is finite.
2. `Sendable`: an object with distinct names and numbers in range.  Every object that is read from a
   text is one.
-/

namespace CrmEmulator

/-- Can a document be this one?  A whole number is one of 64 bits with or without a sign, and a
double is finite. -/
def Json.inRange : Json → Bool
  | .int n => -Numeral.int64Bound ≤ n && n < 2 * Numeral.int64Bound
  | .double x => x.isFinite
  | _ => true

/-- The members of an object that a request can send: names that differ, and numbers in range. -/
structure Sendable (members : List (String × Json)) : Prop where
  names_nodup : (members.map (·.1)).Nodup
  inRange : ∀ member ∈ members, member.2.inRange

namespace Json

/-! ## Numbers -/

theorem inRange_int {n : Int} (hlow : -Numeral.int64Bound ≤ n) (hhigh : n < 2 * Numeral.int64Bound) :
    (Json.int n).inRange := by
  simp [inRange, hlow, hhigh]

theorem inRange_natCast {n : Nat} (h : n < Nat.pow 2 64) : (Json.int n).inRange := by
  have hsmall : n < 18446744073709551616 := h
  have hbound : Numeral.int64Bound = 9223372036854775808 := rfl
  exact inRange_int (by omega) (by omega)

theorem inRange_neg_natCast {n : Nat} (h : n ≤ Nat.pow 2 63) : (Json.int (-n)).inRange := by
  have hsmall : n ≤ 9223372036854775808 := h
  have hbound : Numeral.int64Bound = 9223372036854775808 := rfl
  exact inRange_int (by omega) (by omega)

/-- Reading digits never makes a significand of more than 64 bits. -/
theorem significand_lt {n : Nat} (h : n < Nat.pow 2 64) (cs : List Char) :
    (significand n cs).1 < Nat.pow 2 64 := by
  induction cs generalizing n with
  | nil => exact h
  | cons c cs ih =>
    unfold significand
    split
    · next hnext => exact ih hnext
    · exact h

/-- A number in range. -/
inductive IsNumber : Json → Prop
  | int {n : Int} (h : (Json.int n).inRange) : IsNumber (.int n)
  | double {x : Double} (h : x.isFinite) : IsNumber (.double x)

theorem IsNumber.inRange {doc : Json} (h : IsNumber doc) : doc.inRange := by
  cases h with
  | int hrange => exact hrange
  | double hfinite => exact hfinite

/-- A number with a fraction or an exponent is read as a finite double. -/
theorem isNumber_scaled {negative : Bool} {digits : Nat} {exponent : Int} {doc : Json}
    (h : (Double.ofScaled? negative digits exponent).map Json.double = some doc)
    (hdigits : digits < Nat.pow 2 64) : IsNumber doc := by
  rcases Option.map_eq_some_iff.mp h with ⟨x, hx, rfl⟩
  exact .double (Double.isFinite_ofScaled? hx hdigits)

/-- Every numeral that has a value is a number. -/
theorem Numeral.isNumber_value? {n : Numeral} {doc : Json} (h : n.value? = some doc) :
    IsNumber doc := by
  have hzero : 0 < Nat.pow 2 64 := Double.pow_two_pos 64
  have hwhole := significand_lt hzero n.whole
  simp only [value?] at h
  generalize significand 0 n.whole = read at h hwhole
  split at h
  · split at h
    · exact isNumber_scaled h hwhole
    · split at h
      · cases h
        exact .int (inRange_natCast hwhole)
      · split at h
        · exact isNumber_scaled h hwhole
        · next hsmall =>
          cases h
          exact .int (inRange_neg_natCast (Nat.le_of_not_lt fun hlarge => hsmall (.inr hlarge)))
  · exact isNumber_scaled h (significand_lt hwhole _)

/-! ## Documents -/

/-- All that a value can be; items and members are read with less fuel. -/
inductive Reads (fuel : Nat) : Json → Prop
  | null : Reads fuel .null
  | bool (b : Bool) : Reads fuel (.bool b)
  | str (s : String) : Reads fuel (.str s)
  | number {doc : Json} (h : IsNumber doc) : Reads fuel doc
  | noItems : Reads fuel (.arr [])
  | arr {depth : Nat} {cs rest : List Char} {items : List Json}
      (h : items? fuel depth cs = some (items, rest)) : Reads fuel (.arr items)
  | noMembers : Reads fuel (.obj [])
  | obj {depth : Nat} {cs rest : List Char} {members : List (String × Json)}
      (h : members? fuel depth cs = some (members, rest)) : Reads fuel (.obj members)

/-- A value that is read is a number, a text or a constant, or was read from its parts with less
fuel. -/
theorem value?_reads {fuel depth : Nat} {cs rest : List Char} {doc : Json}
    (h : value? (fuel + 1) depth cs = some (doc, rest)) : Reads fuel doc := by
  unfold value? at h
  -- by the first character
  split at h
  · rcases Option.map_eq_some_iff.mp h with ⟨read, -, hdoc⟩
    cases hdoc
    exact .str _
  · split at h
    · cases h
    · cases h
      exact .noItems
    · rcases Option.map_eq_some_iff.mp h with ⟨read, hread, hdoc⟩
      cases hdoc
      exact .arr hread
  · split at h
    · cases h
    · cases h
      exact .noMembers
    · rcases Option.map_eq_some_iff.mp h with ⟨read, hread, hdoc⟩
      cases hdoc
      exact .obj hread
  · rcases Option.map_eq_some_iff.mp h with ⟨read, -, hdoc⟩
    cases hdoc
    exact .null
  · rcases Option.map_eq_some_iff.mp h with ⟨read, -, hdoc⟩
    cases hdoc
    exact .bool true
  · rcases Option.map_eq_some_iff.mp h with ⟨read, -, hdoc⟩
    cases hdoc
    exact .bool false
  · rcases Option.bind_eq_some_iff.mp h with ⟨⟨n, after⟩, -, hn⟩
    rcases Option.bind_eq_some_iff.mp hn with ⟨number, hnumber, hdoc⟩
    cases hdoc
    exact .number (Numeral.isNumber_value? hnumber)

/-- All numbers of a document that is read are in range. -/
theorem inRange_of_value? {fuel depth : Nat} {cs rest : List Char} {doc : Json}
    (h : value? fuel depth cs = some (doc, rest)) : doc.inRange := by
  cases fuel with
  | zero => cases h
  | succ fuel =>
    cases value?_reads h with
    | number hnumber => exact hnumber.inRange
    | null | bool | str | noItems | arr | noMembers | obj => rfl

/-- Items are a value and the items after it, if there are any. -/
theorem items?_reads {fuel depth : Nat} {cs rest : List Char} {items : List Json}
    (h : items? (fuel + 1) depth cs = some (items, rest)) :
    ∃ item others, items = item :: others ∧
      (∃ cs rest, value? fuel depth cs = some (item, rest)) ∧
      (others = [] ∨ ∃ cs rest, items? fuel depth cs = some (others, rest)) := by
  unfold items? at h
  rcases Option.bind_eq_some_iff.mp h with ⟨⟨item, afterItem⟩, hitem, h⟩
  simp only at h
  split at h
  · rcases Option.bind_eq_some_iff.mp h with ⟨⟨others, afterOthers⟩, hothers, h⟩
    cases h
    exact ⟨item, others, rfl, ⟨_, _, hitem⟩, .inr ⟨_, _, hothers⟩⟩
  · cases h
    exact ⟨item, [], rfl, ⟨_, _, hitem⟩, .inl rfl⟩
  · cases h

/-- Members are a value with its name and the members after it, if there are any. -/
theorem members?_reads {fuel depth : Nat} {cs rest : List Char} {members : List (String × Json)}
    (h : members? (fuel + 1) depth cs = some (members, rest)) :
    ∃ key value others, members = (key, value) :: others ∧
      (∃ cs rest, value? fuel depth cs = some (value, rest)) ∧
      (others = [] ∨ ∃ cs rest, members? fuel depth cs = some (others, rest)) := by
  unfold members? at h
  split at h
  · rcases Option.bind_eq_some_iff.mp h with ⟨⟨key, afterKey⟩, -, h⟩
    simp only at h
    split at h
    · rcases Option.bind_eq_some_iff.mp h with ⟨⟨value, afterValue⟩, hvalue, h⟩
      simp only at h
      split at h
      · rcases Option.bind_eq_some_iff.mp h with ⟨⟨others, afterOthers⟩, hothers, h⟩
        cases h
        exact ⟨key, value, others, rfl, ⟨_, _, hvalue⟩, .inr ⟨_, _, hothers⟩⟩
      · cases h
        exact ⟨key, value, [], rfl, ⟨_, _, hvalue⟩, .inl rfl⟩
      · cases h
    · cases h
  · cases h

/-- The values of members that are read are in range. -/
theorem inRange_of_members? {fuel depth : Nat} {cs rest : List Char}
    {members : List (String × Json)} (h : members? fuel depth cs = some (members, rest)) :
    ∀ member ∈ members, member.2.inRange := by
  induction fuel generalizing cs rest members with
  | zero => cases h
  | succ fuel ih =>
    obtain ⟨key, value, others, rfl, ⟨_, _, hvalue⟩, hothers⟩ := members?_reads h
    refine List.forall_mem_cons.mpr ⟨inRange_of_value? hvalue, ?_⟩
    rcases hothers with rfl | ⟨_, _, hothers⟩
    · exact List.forall_mem_nil _
    · exact ih hothers

/-- The values of an object that is read are in range. -/
theorem inRange_of_value?_obj {fuel depth : Nat} {cs rest : List Char}
    {members : List (String × Json)} (h : value? fuel depth cs = some (.obj members, rest)) :
    ∀ member ∈ members, member.2.inRange := by
  cases fuel with
  | zero => cases h
  | succ fuel =>
    cases value?_reads h with
    | number hnumber => cases hnumber
    | noMembers => exact List.forall_mem_nil _
    | obj hmembers => exact inRange_of_members? hmembers

theorem inRange_settle (doc : Json) : (settle doc).inRange = doc.inRange := by
  cases doc <;> simp [settle, inRange]

/-- After a member was set, every member is the new one or was there before. -/
theorem mem_setMember {name : String} {doc : Json} {members : List (String × Json)}
    {member : String × Json} (h : member ∈ setMember name doc members) :
    member = (name, doc) ∨ member ∈ members := by
  induction members with
  | nil => exact .inl (List.mem_singleton.mp h)
  | cons first members ih =>
    unfold setMember at h
    split at h
    · next hname =>
      rcases List.mem_cons.mp h with rfl | hrest
      · exact .inl (by rw [hname])
      · exact .inr (List.mem_cons_of_mem _ hrest)
    · rcases List.mem_cons.mp h with rfl | hrest
      · exact .inr List.mem_cons_self
      · exact (ih hrest).imp_right (List.mem_cons_of_mem _)

/-- Setting a member keeps names distinct. -/
theorem nodup_setMember {members : List (String × Json)} (h : (members.map (·.1)).Nodup)
    (name : String) (doc : Json) : ((setMember name doc members).map (·.1)).Nodup := by
  induction members with
  | nil => simp [setMember]
  | cons first members ih =>
    rw [List.map_cons, List.nodup_cons] at h
    unfold setMember
    split
    · exact List.nodup_cons.mpr h
    · next hname =>
      refine List.nodup_cons.mpr ⟨fun hmem => ?_, ih h.2⟩
      rcases List.mem_map.mp hmem with ⟨member, hmember, hfirst⟩
      have hkey : member.1 = first.1 := hfirst
      rcases mem_setMember hmember with rfl | hold
      · exact hname hkey.symm
      · exact h.1 (hkey ▸ List.mem_map_of_mem hold)

/-- Setting a member in range keeps members sendable. -/
theorem sendable_setMember {members : List (String × Json)} (h : Sendable members) (name : String)
    {doc : Json} (hdoc : doc.inRange) : Sendable (setMember name doc members) where
  names_nodup := nodup_setMember h.names_nodup name doc
  inRange := by
    intro member hmember
    rcases mem_setMember hmember with rfl | hold
    · exact hdoc
    · exact h.inRange member hold

/-- Settling members one after the other keeps them sendable. -/
theorem sendable_settleMembers {done members : List (String × Json)} (hdone : Sendable done)
    (hmembers : ∀ member ∈ members, member.2.inRange) : Sendable (settleMembers done members) := by
  induction members generalizing done with
  | nil => simpa [settleMembers] using hdone
  | cons member members ih =>
    rw [List.forall_mem_cons] at hmembers
    unfold settleMembers
    refine ih (sendable_setMember hdone member.1 ?_) hmembers.2
    rw [inRange_settle]
    exact hmembers.1

/-- An object that is read from a text can be sent. -/
theorem sendable_of_parse? {cs : List Char} {members : List (String × Json)}
    (h : parse? cs = some (.obj members)) : Sendable members := by
  rcases Option.map_eq_some_iff.mp h with ⟨doc, hread, hsettle⟩
  cases doc with
  | obj written =>
    have hwritten : ∀ member ∈ written, member.2.inRange := by
      rcases Option.bind_eq_some_iff.mp hread with ⟨⟨doc, rest⟩, hvalue, hend⟩
      simp only at hend
      split at hend
      · cases hend
        exact inRange_of_value?_obj hvalue
      · cases hend
    have hempty : Sendable [] := ⟨List.nodup_nil, List.forall_mem_nil _⟩
    rw [settle, Json.obj.injEq] at hsettle
    exact hsettle ▸ sendable_settleMembers hempty hwritten
  | _ => simp [settle] at hsettle

end Json

end CrmEmulator
