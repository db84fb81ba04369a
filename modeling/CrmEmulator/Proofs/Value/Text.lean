import CrmEmulator.Proofs.Text.Numeral

/-!
# CrmEmulator.Proofs.Value.Text — which values have the text of null

Equality tests compare texts, so a value passes for null if its text is that of null.

1. The text of a number has a digit in it, or it is one of the words for no number and the
   infinities.
2. A document has the text of null only if it is null.
3. `Value.coerceText_eq_null`: besides null itself, the text of null belongs to that very string
   and to the null document.
-/

namespace CrmEmulator

/-! ## Numbers -/

namespace Double

/-- A number that is written out has a digit. -/
theorem exists_isDigit_positionalText (pointZero : Bool) {c : Char} (hc : c.isDigit)
    (cs : List Char) (exponent : Int) :
    ∃ d ∈ positionalText pointZero (c :: cs) exponent, d.isDigit := by
  unfold positionalText
  split
  · exact ⟨c, by simp, hc⟩
  · dsimp only
    split
    · next hplaces =>
      -- fewer places than digits, so the first digit stands before the point
      obtain ⟨n, hn⟩ := Nat.exists_eq_succ_of_ne_zero (Nat.sub_ne_zero_of_lt hplaces)
      refine ⟨c, ?_, hc⟩
      rw [hn, List.take_succ_cons]
      exact List.mem_append_left _ List.mem_cons_self
    · exact ⟨'0', by simp, rfl⟩

theorem exists_isDigit_scientificText (plusSign : Bool) {c : Char} (hc : c.isDigit)
    (cs : List Char) (leading : Int) :
    ∃ d ∈ scientificText plusSign (c :: cs) leading, d.isDigit :=
  ⟨c, by simp [scientificText], hc⟩

/-- Every number of units is written with a digit. -/
theorem exists_isDigit_unitsText (layout : Layout) (units : Nat) :
    ∃ d ∈ unitsText layout units, d.isDigit := by
  unfold unitsText
  split
  · exact exists_isDigit_positionalText _ rfl _ _
  · dsimp only
    obtain ⟨c, cs, hdigits, hc⟩ := Numeral.toDigits_eq_cons (shortest layout.tie units).1
    rw [natText, hdigits]
    split
    · exact exists_isDigit_positionalText _ hc _ _
    · split
      · exact exists_isDigit_positionalText _ hc _ _
      · exact exists_isDigit_scientificText _ hc _ _

end Double

/-- A text with a digit in it is not the text of null. -/
theorem ne_null_of_isDigit {text : String} (h : ∃ c ∈ text.toList, c.isDigit) : text ≠ "null" := by
  rintro rfl
  have hany : "null".toList.any Char.isDigit := List.any_eq_true.mpr h
  exact absurd hany (by decide)

/-- No double is written as null. -/
theorem Double.format_ne_null (layout : Layout) (x : Double) : x.format layout ≠ "null" := by
  cases x with
  | nan => exact (by decide : "NaN" ≠ "null")
  | infinity negative =>
    cases negative with
    | true => exact (by decide : "-inf" ≠ "null")
    | false => exact (by decide : "inf" ≠ "null")
  | finite negative units =>
    obtain ⟨d, hd, hdigit⟩ := exists_isDigit_unitsText layout units
    refine ne_null_of_isDigit ⟨d, ?_, hdigit⟩
    rw [format, String.toList_ofList]
    exact List.mem_append_right _ hd

theorem toString_ne_null (n : Int) : toString n ≠ "null" :=
  ne_null_of_isDigit (Numeral.exists_isDigit_repr n)

/-! ## Documents and values -/

/-- Only the document null is written as null. -/
theorem Json.compact_eq_null {doc : Json} : doc.compact = "null" ↔ doc = .null := by
  refine ⟨fun h => ?_, fun h => h ▸ rfl⟩
  have htext : doc.text = "null".toList := by
    rw [← h, compact, String.toList_ofList]
  cases doc with
  | null => rfl
  | bool b => cases b <;> cases htext
  | int n => exact absurd (String.toList_inj.mp htext) (toString_ne_null n)
  | double x => exact absurd (String.toList_inj.mp htext) (x.format_ne_null .json)
  | str | arr | obj =>
    -- a quote or a bracket comes first
    exact absurd (congrArg List.head? htext) (by simp [text, quoted])

/-- The values with the text of null: null, that text, and that document. -/
theorem Value.coerceText_eq_null {v : Value} :
    v.coerceText = "null" ↔ v = .null ∨ v = .text "null" ∨ v = .json .null := by
  cases v with
  | null => simp [coerceText]
  | integer n => simpa [coerceText, int64Text] using toString_ne_null n.toInt
  | double x => simpa [coerceText] using x.format_ne_null .coercion
  | text s => simp [coerceText]
  | boolean b => cases b <;> simp [coerceText, boolText]
  | json doc => simp [coerceText, Json.compact_eq_null]

end CrmEmulator
