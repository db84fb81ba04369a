import CrmEmulator.Text.Basic
import Mathlib.Data.List.DropRight

/-!
# CrmEmulator.Proofs.Text.Trimming — what is left of a trimmed text

Trimming takes away white space only, and from the ends only; a trimmed text stays as it is when it
is trimmed again, and white space that is put around a text does not count.
-/

namespace CrmEmulator

/-! ## Counting -/

/-- A character that is never passed over is still there. -/
theorem count_dropWhile {p : Char → Bool} {c : Char} (h : p c = false) (cs : List Char) :
    (cs.dropWhile p).count c = cs.count c := by
  induction cs with
  | nil => rfl
  | cons d ds ih =>
    by_cases hd : p d
    · have hne : d ≠ c := by
        rintro rfl
        simp [h] at hd
      simp [hd, ih, hne]
    · simp [hd]

theorem count_trim {c : Char} (h : isBlank c = false) (cs : List Char) :
    (trim cs).count c = cs.count c := by
  simp only [trim, List.count_reverse, count_dropWhile h]

/-! ## Trimming twice -/

/-- What begins as a text does after its blanks begins with no blank. -/
theorem dropWhile_of_prefix {p : Char → Bool} {cs beginning : List Char}
    (h : beginning <+: cs.dropWhile p) : beginning.dropWhile p = beginning := by
  cases beginning with
  | nil => rfl
  | cons c beginning =>
    rcases h with ⟨rest, hrest⟩
    have hc : p c = false := by
      have hhead := List.head?_dropWhile_not p cs
      rwa [← hrest] at hhead
    simp [hc]

theorem trim_eq_rdropWhile (cs : List Char) :
    trim cs = (cs.dropWhile isBlank).rdropWhile isBlank := rfl

theorem trim_trim (cs : List Char) : trim (trim cs) = trim cs := by
  have hleft : (trim cs).dropWhile isBlank = trim cs :=
    dropWhile_of_prefix (List.rdropWhile_prefix isBlank (cs.dropWhile isBlank))
  rw [trim_eq_rdropWhile (trim cs), hleft, trim_eq_rdropWhile, List.rdropWhile_idempotent]

/-- A text without white space stays as it is. -/
theorem trim_of_not_isBlank {cs : List Char} (h : ∀ c ∈ cs, isBlank c = false) : trim cs = cs := by
  have hstay {cs : List Char} (h : ∀ c ∈ cs, isBlank c = false) : cs.dropWhile isBlank = cs := by
    cases cs with
    | nil => rfl
    | cons c cs => simp [h c]
  have hreverse : ∀ c ∈ cs.reverse, isBlank c = false := by
    intro c hc
    exact h c (List.mem_reverse.mp hc)
  rw [trim, hstay h, hstay hreverse, List.reverse_reverse]

/-! ## White space around a text -/

theorem trim_blank_append {front : List Char} (h : ∀ c ∈ front, isBlank c) (cs : List Char) :
    trim (front ++ cs) = trim cs := by
  rw [trim, List.dropWhile_append_of_pos h, trim]

/-- White space behind a text is lost. -/
theorem trim_append_blank {back : List Char} (h : ∀ c ∈ back, isBlank c) (cs : List Char) :
    trim (cs ++ back) = trim cs := by
  have hback : back.dropWhile isBlank = [] := List.dropWhile_eq_nil_iff.mpr h
  have hreverse : ∀ c ∈ back.reverse, isBlank c := by
    intro c hc
    exact h c (List.mem_reverse.mp hc)
  rw [trim, trim, List.dropWhile_append]
  split
  · next hnil =>
    -- nothing but white space in either text
    rw [hback, List.isEmpty_iff.mp hnil]
  · rw [List.reverse_append, List.dropWhile_append_of_pos hreverse]

end CrmEmulator
