import CrmEmulator.Value

/-!
# CrmEmulator.Proofs.Text.Numeral — numbers are read back from their digits

Counts and 64-bit integers are written as `toString` writes them; `Numeral.count?` and
`Numeral.int64?` read the same number back.
-/

namespace CrmEmulator

namespace Numeral

theorem isDigit_of_mem_toDigits {n : Nat} {c : Char} (h : c ∈ Nat.toDigits 10 n) : c.isDigit :=
  Nat.isDigit_of_mem_toDigits (by decide) (by decide) h

/-- A number is read back from its digits. -/
theorem digits?_toDigits (n : Nat) : digits? (Nat.toDigits 10 n) = some n := by
  have hvalue : digitsValue (Nat.toDigits 10 n) = n := Nat.ofDigitChars_ten_toDigits
  have hdigits : (Nat.toDigits 10 n).all Char.isDigit := by
    rw [List.all_eq_true]
    exact fun _ hc => isDigit_of_mem_toDigits hc
  simp [digits?, hvalue, hdigits, Nat.toDigits_ne_nil]

/-- A number begins with a digit, and with no sign. -/
theorem toDigits_eq_cons (n : Nat) : ∃ c cs, Nat.toDigits 10 n = c :: cs ∧ c.isDigit := by
  rcases List.exists_cons_of_ne_nil (Nat.toDigits_ne_nil (n := n) (b := 10)) with ⟨c, cs, h⟩
  have hmem : c ∈ Nat.toDigits 10 n := h ▸ List.mem_cons_self
  exact ⟨c, cs, h, isDigit_of_mem_toDigits hmem⟩

/-- A count is read back from its text, if it has no more bits than are read. -/
theorem count?_toString {bits n : Nat} (h : n < Nat.pow 2 bits) :
    count? bits (toString n).toList = some n := by
  rcases toDigits_eq_cons n with ⟨c, cs, hcs, hc⟩
  have hread := digits?_toDigits n
  have htext : (toString n).toList = c :: cs := by simpa using hcs
  rw [hcs] at hread
  -- the first digit is no plus sign
  rw [htext, count?]
  · simpa [hread] using h
  · rintro _ ⟨⟩
    cases hc

/-- An integer is read back from its text. -/
theorem int?_repr (n : Int) : int? n.repr.toList = some n := by
  cases n with
  | ofNat n =>
    rcases toDigits_eq_cons n with ⟨c, cs, hcs, hc⟩
    have hread := digits?_toDigits n
    have htext : (Int.ofNat n).repr.toList = c :: cs := by simpa [Int.repr] using hcs
    rw [hcs] at hread
    -- nor is it a minus sign
    rw [htext, int?]
    · simp [hread]
    all_goals
      rintro _ ⟨⟩
      cases hc
  | negSucc n =>
    have htext : (Int.negSucc n).repr.toList = '-' :: Nat.toDigits 10 (n + 1) := by
      simp [Int.repr]
    rw [htext, int?, digits?_toDigits]
    rfl

theorem isDigit_of_mem_toString {n : Nat} {c : Char} (h : c ∈ (toString n).toList) : c.isDigit := by
  have htext : (toString n).toList = Nat.toDigits 10 n := by simp
  rw [htext] at h
  exact isDigit_of_mem_toDigits h

/-- An integer is written in digits and perhaps a sign. -/
theorem sign_or_isDigit_of_mem_repr {n : Int} {c : Char} (h : c ∈ n.repr.toList) :
    c = '-' ∨ c.isDigit := by
  cases n with
  | ofNat n =>
    have hmem : c ∈ Nat.toDigits 10 n := by simpa [Int.repr] using h
    exact .inr (isDigit_of_mem_toDigits hmem)
  | negSucc n =>
    have hmem : c = '-' ∨ c ∈ Nat.toDigits 10 (n + 1) := by simpa [Int.repr] using h
    exact hmem.imp_right isDigit_of_mem_toDigits

/-- There is at least one digit. -/
theorem exists_isDigit_repr (n : Int) : ∃ c ∈ n.repr.toList, c.isDigit := by
  cases n with
  | ofNat n =>
    rcases toDigits_eq_cons n with ⟨c, cs, hcs, hc⟩
    exact ⟨c, by simp [Int.repr, hcs], hc⟩
  | negSucc n =>
    rcases toDigits_eq_cons (n + 1) with ⟨c, cs, hcs, hc⟩
    exact ⟨c, by simp [Int.repr, hcs], hc⟩

/-- A 64-bit integer is read back from its text. -/
theorem int64?_int64Text (n : Int64) : int64? (Value.int64Text n).toList = some n := by
  have hlow := n.le_toInt
  have hhigh := n.toInt_lt
  have hrange : inInt64 n.toInt := by
    rw [inInt64, Bool.and_eq_true, decide_eq_true_iff, decide_eq_true_iff]
    exact ⟨hlow, hhigh⟩
  simp [int64?, Value.int64Text, int?_repr, hrange, Int64.ofInt_toInt]

/-- What is read as digits is some digits. -/
theorem isDigit_of_digits? {cs : List Char} {m : Nat} (h : digits? cs = some m) :
    cs ≠ [] ∧ ∀ c ∈ cs, c.isDigit := by
  unfold digits? at h
  split at h
  · next hall => exact ⟨hall.1, List.all_eq_true.mp hall.2⟩
  · cases h

/-- What is read as an integer is a run of digits, perhaps after a sign. -/
theorem digits_of_int64? {cs : List Char} {n : Int64} (h : int64? cs = some n) :
    ∃ ds, ds ≠ [] ∧ (∀ d ∈ ds, d.isDigit) ∧ (cs = '+' :: ds ∨ cs = '-' :: ds ∨ cs = ds) := by
  rcases Option.bind_eq_some_iff.mp h with ⟨m, hm, -⟩
  unfold int? at hm
  split at hm
  · rcases Option.map_eq_some_iff.mp hm with ⟨_, hds, -⟩
    rcases isDigit_of_digits? hds with ⟨hne, hdigits⟩
    exact ⟨_, hne, hdigits, .inl rfl⟩
  · rcases Option.map_eq_some_iff.mp hm with ⟨_, hread, -⟩
    rcases Option.bind_eq_some_iff.mp hread with ⟨_, hds, -⟩
    rcases isDigit_of_digits? hds with ⟨hne, hdigits⟩
    exact ⟨_, hne, hdigits, .inr (.inl rfl)⟩
  · rcases Option.map_eq_some_iff.mp hm with ⟨_, hds, -⟩
    rcases isDigit_of_digits? hds with ⟨hne, hdigits⟩
    exact ⟨_, hne, hdigits, .inr (.inr rfl)⟩

/-- What is read as an integer consists of digits and a sign. -/
theorem sign_or_isDigit_of_int64? {cs : List Char} {n : Int64} (h : int64? cs = some n) {c : Char}
    (hc : c ∈ cs) : c = '+' ∨ c = '-' ∨ c.isDigit := by
  rcases digits_of_int64? h with ⟨ds, -, hdigits, rfl | rfl | rfl⟩
  · exact (List.mem_cons.mp hc).imp_right fun hmem => .inr (hdigits c hmem)
  · exact .inr ((List.mem_cons.mp hc).imp_right (hdigits c))
  · exact .inr (.inr (hdigits c hc))

/-- A digit is in it. -/
theorem exists_isDigit_of_int64? {cs : List Char} {n : Int64} (h : int64? cs = some n) :
    ∃ c ∈ cs, c.isDigit := by
  rcases digits_of_int64? h with ⟨ds, hne, hdigits, hcs⟩
  rcases List.exists_mem_of_ne_nil ds hne with ⟨d, hd⟩
  refine ⟨d, ?_, hdigits d hd⟩
  rcases hcs with rfl | rfl | rfl
  · exact List.mem_cons_of_mem _ hd
  · exact List.mem_cons_of_mem _ hd
  · exact hd

end Numeral

end CrmEmulator
