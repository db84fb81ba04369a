import CrmEmulator.Text.LetterCase

/-!
# CrmEmulator.Proofs.Text.LetterCase — words in any letter case

Letters are turned into small or capital ones among the ASCII characters only, so what holds of all
of these can be checked one by one.  A word with a digit is never the same as a word without.
Folding moves characters to letters only, so a mark of punctuation agrees with no other character.
-/

namespace CrmEmulator

theorem forall_ascii {P : Char → Prop} (h : ∀ n < 128, P (Char.ofNat n)) {c : Char}
    (hc : c.toNat < 128) : P c := by
  have hn := h c.toNat hc
  rwa [Char.ofNat_toNat] at hn

/-- Letters and digits, in the narrow sense, are ASCII characters. -/
theorem ascii_of_isAlphanum {c : Char} (h : c.isAlphanum) : c.toNat < 128 := by
  have hranges : (decide ('A'.val ≤ c.val ∧ c.val ≤ 'Z'.val) ||
      decide ('a'.val ≤ c.val) && decide (c.val ≤ 'z'.val) ||
        decide ('0'.val ≤ c.val) && decide (c.val ≤ '9'.val)) = true := h
  simp only [Bool.or_eq_true, Bool.and_eq_true, decide_eq_true_eq, UInt32.le_iff_toNat_le]
    at hranges
  rcases hranges with (⟨-, hlast⟩ | ⟨-, hlast⟩) | ⟨-, hlast⟩
  · exact Nat.lt_of_le_of_lt hlast (by decide)
  · exact Nat.lt_of_le_of_lt hlast (by decide)
  · exact Nat.lt_of_le_of_lt hlast (by decide)

theorem ascii_of_isDigit {c : Char} (h : c.isDigit) : c.toNat < 128 :=
  ascii_of_isAlphanum (by simp [Char.isAlphanum, h])

/-! ## Letters -/

/-- Lower case loses nothing but the case. -/
theorem toUpper_toLower (c : Char) : c.toLower.toUpper = c.toUpper := by
  by_cases hascii : c.toNat < 128
  · exact forall_ascii (P := fun c => c.toLower.toUpper = c.toUpper) (by decide) hascii
  · have hlower : c.toLower = c := by
      refine dif_neg ?_
      simp only [ge_iff_le, UInt32.le_iff_toNat_le]
      rintro ⟨-, hz⟩
      exact hascii (Nat.lt_of_le_of_lt hz (by decide))
    rw [hlower]

/-- Digits have no case. -/
theorem toLower_of_isDigit {c : Char} (h : c.isDigit) : c.toLower = c := by
  simp only [Char.isDigit, Bool.and_eq_true, decide_eq_true_eq, ge_iff_le,
    UInt32.le_iff_toNat_le] at h
  refine dif_neg ?_
  simp only [ge_iff_le, UInt32.le_iff_toNat_le]
  rintro ⟨hupper, -⟩
  exact absurd (Nat.le_trans hupper h.2) (by decide)

/-! ## Runs -/

namespace CaseRun

variable {run : CaseRun} {n : Nat}

/-- A run covers every so many characters from its first to its last. -/
theorem covers_iff : run.covers n ↔
    run.first ≤ n ∧ n ≤ run.last ∧ (n - run.first) % run.step = 0 := by
  simp [covers, and_assoc]

/-- Where a run moves a character. -/
def moved (run : CaseRun) (n : Nat) : Nat := (n + run.shift).toNat

/-- The run moves its characters to letters. -/
structure ToLetters (run : CaseRun) : Prop where
  low : 0x41 ≤ run.first + run.shift
  high : run.last + run.shift < 0x110000
  /-- No letter is a surrogate. -/
  gap : run.last + run.shift < 0xd800 ∨ 0xdfff < run.first + run.shift

instance (run : CaseRun) : Decidable run.ToLetters :=
  decidable_of_iff (0x41 ≤ run.first + run.shift ∧ run.last + run.shift < 0x110000 ∧
    (run.last + run.shift < 0xd800 ∨ 0xdfff < run.first + run.shift))
    ⟨fun h => ⟨h.1, h.2.1, h.2.2⟩, fun h => ⟨h.low, h.high, h.gap⟩⟩

/-- A run that moves to letters moves by its shift, without being cut off. -/
theorem ToLetters.cast_moved (h : run.ToLetters) (hn : run.covers n) :
    (run.moved n : Int) = n + run.shift := by
  have hlow := h.low
  have hcovers := covers_iff.mp hn
  unfold moved
  omega

/-- What it moves to is a character. -/
theorem ToLetters.toNat_moved (h : run.ToLetters) (hn : run.covers n) :
    (Char.ofNat (run.moved n)).toNat = run.moved n := by
  have hvalid : (run.moved n).isValidChar := by
    have hlow := h.low
    have hhigh := h.high
    have hgap := h.gap
    have hcovers := covers_iff.mp hn
    have hcast := h.cast_moved hn
    unfold Nat.isValidChar
    omega
  rw [Char.ofNat, dif_pos hvalid]
  rfl

end CaseRun

theorem toLetters_foldingRuns : ∀ run ∈ foldingRuns, run.ToLetters := by decide +kernel

/-! ## Folding -/

/-- A character is folded to itself or to a letter. -/
theorem foldCase_eq_self_or (c : Char) : foldCase c = c ∨ 0x41 ≤ (foldCase c).toNat := by
  unfold foldCase
  split
  · next hascii =>
    exact forall_ascii (P := fun c => c.toLower = c ∨ 0x41 ≤ c.toLower.toNat) (by decide) hascii
  · unfold shiftCase
    split
    · next run hrun =>
      right
      have hcovers := List.find?_some hrun
      have hletters := toLetters_foldingRuns run (List.mem_of_find?_eq_some hrun)
      have hlow := hletters.low
      have hfirst := (CaseRun.covers_iff.mp hcovers).1
      have hcast := hletters.cast_moved hcovers
      show 0x41 ≤ (Char.ofNat (run.moved c.toNat)).toNat
      rw [hletters.toNat_moved hcovers]
      omega
    · exact .inl rfl

/-- What comes before the letters agrees with no other character. -/
theorem sameFolded_iff_of_lt {d : Char} (hd : d.toNat < 0x41) (c : Char) :
    sameFolded d c ↔ c = d := by
  have hself : foldCase d = d := by
    rcases foldCase_eq_self_or d with h | h
    · exact h
    · have hascii : d.toNat < 128 := by omega
      rw [foldCase, if_pos hascii]
      revert hd
      exact forall_ascii (P := fun d => d.toNat < 0x41 → d.toLower = d) (by decide) hascii
  rw [sameFolded, beq_iff_eq, hself]
  refine ⟨?_, fun h => h ▸ hself.symm⟩
  intro h
  rcases foldCase_eq_self_or c with hc | hc
  · rw [← hc, h]
  · rw [← h] at hc
    omega

/-- Among ASCII characters folding is the same as small letters. -/
theorem sameFolded_of_ascii {c d : Char} (hc : c.toNat < 128) (hd : d.toNat < 128) :
    sameFolded c d = (c.toLower == d.toLower) := by
  have hc' : foldCase c = c.toLower := if_pos hc
  have hd' : foldCase d = d.toLower := if_pos hd
  rw [sameFolded, hc', hd']

/-! ## Words -/

theorem sameWord_eq_false {a b c : List Char} (h : sameWord a b) (hne : sameWord b c = false) :
    sameWord a c = false := by
  simp only [sameWord, beq_iff_eq] at h hne ⊢
  rw [h, hne]

/-- A text with a digit is none of the words without digits. -/
theorem sameWord_of_isDigit {cs text : List Char} {c : Char} (hc : c ∈ cs) (hdigit : c.isDigit)
    (htext : text.all fun d => !d.toLower.isDigit) : sameWord cs text = false := by
  rw [sameWord, beq_eq_false_iff_ne]
  intro heq
  have hmem : c.toLower ∈ text.map Char.toLower := heq ▸ List.mem_map_of_mem hc
  rcases List.mem_map.mp hmem with ⟨d, hd, hlower⟩
  have hnot := List.all_eq_true.mp htext d hd
  rw [hlower, toLower_of_isDigit hdigit, hdigit] at hnot
  cases hnot

end CrmEmulator
