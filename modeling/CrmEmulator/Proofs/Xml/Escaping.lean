import CrmEmulator.Xml
import CrmEmulator.Proofs.Text.Matching

/-!
# CrmEmulator.Proofs.Xml.Escaping — escaped text is resolved again

1. `escape` writes an entity for each markup character and nothing else with an ampersand, so that
   the five entities can be resolved one kind after the other as long as ampersands come last.
2. Escaped text has no angle brackets and no quotes in it, and its ampersands begin entities.
3. Escaping leaves white space alone, and so it does not matter whether a text is trimmed before or
   after it.
-/

namespace CrmEmulator

namespace Xml

/-! ## Entities -/

/-- The characters that are escaped, in the order in which their entities are resolved. -/
def markup : List Char := ['<', '>', '"', '\'', '&']

theorem escapeChar_of_not_mem {c : Char} (h : c ∉ markup) : escapeChar c = [c] := by
  unfold escapeChar
  split <;> first | rfl | exact absurd (by decide) h

/-- An entity begins with its only ampersand. -/
theorem escapeChar_of_mem {c : Char} (h : c ∈ markup) :
    ∃ name, escapeChar c = '&' :: name ∧ '&' ∉ name := by
  simp only [markup, List.mem_cons, List.not_mem_nil, or_false] at h
  rcases h with rfl | rfl | rfl | rfl | rfl
  · exact ⟨"lt;".toList, rfl, by decide⟩
  · exact ⟨"gt;".toList, rfl, by decide⟩
  · exact ⟨"quot;".toList, rfl, by decide⟩
  · exact ⟨"apos;".toList, rfl, by decide⟩
  · exact ⟨"amp;".toList, rfl, by decide⟩

/-- No entity begins another one. -/
theorem not_prefix_escapeChar {c d : Char} (hc : c ∈ markup) (hd : d ∈ markup) (hne : d ≠ c) :
    ¬escapeChar d <+: escapeChar c := by
  have hall : markup.all fun c => markup.all fun d =>
      d == c || !(escapeChar d).isPrefixOf (escapeChar c) := by decide
  have hpair := List.all_eq_true.mp (List.all_eq_true.mp hall c hc) d hd
  have hnot : (escapeChar d).isPrefixOf (escapeChar c) = false := by simpa [hne] using hpair
  rw [← List.isPrefixOf_iff_prefix, hnot]
  exact Bool.false_ne_true

/-- All escapes begin with an ampersand. -/
theorem opensWith_escapeChar {d : Char} (hd : d ∈ markup) :
    OpensWith (literal (escapeChar d)) '&' := by
  rcases escapeChar_of_mem hd with ⟨name, hname, -⟩
  rw [hname]
  exact literal_opensWith '&' name

/-- An entity is not to be found in another one. -/
theorem passesOver_escapeChar {c d : Char} (hc : c ∈ markup) (hd : d ∈ markup) (hne : d ≠ c) :
    PassesOver (literal (escapeChar d)) (escapeChar c) := by
  rcases escapeChar_of_mem hc with ⟨name, hname, hampersand⟩
  rw [hname]
  refine ⟨?_, passesOver_of_not_mem (opensWith_escapeChar hd) hampersand⟩
  intro rest
  rw [← hname]
  -- neither of two entities that are not the same begins the other, so they part somewhere
  have hnot : ¬escapeChar d <+: escapeChar c ++ rest := by
    intro hprefix
    rcases List.prefix_or_prefix_of_prefix hprefix (List.prefix_append _ rest) with h | h
    · exact not_prefix_escapeChar hc hd hne h
    · exact not_prefix_escapeChar hd hc (Ne.symm hne) h
  simpa [literal, afterBeginning?] using hnot

/-! ## Resolving -/

/-- How a character is written when some entities have been resolved. -/
def escapeUnless (resolved : List Char) (c : Char) : List Char :=
  if c ∈ resolved then [c] else escapeChar c

/-- One kind of entity is resolved, as long as there is no ampersand but those of entities. -/
theorem replaceAll_escapeUnless {d : Char} (hd : d ∈ markup) (resolved : List Char)
    (hampersand : '&' ∉ resolved) (cs : List Char) :
    replaceAll (escapeChar d) [d] (cs.flatMap (escapeUnless resolved)) =
      cs.flatMap (escapeUnless (d :: resolved)) := by
  rcases escapeChar_of_mem hd with ⟨name, hname, -⟩
  -- a character other than an ampersand that stands for itself is passed over
  have hplain (c : Char) (hc : c ≠ '&') : PassesOver (literal (escapeChar d)) [c] :=
    passesOver_of_not_mem (opensWith_escapeChar hd) (by simpa using Ne.symm hc)
  refine replaceAll_flatMap (by simp [hname]) ?_
  intro c _
  by_cases hresolved : c ∈ resolved
  · right
    have hc : c ≠ '&' := by
      rintro rfl
      exact hampersand hresolved
    simpa [escapeUnless, hresolved] using hplain c hc
  by_cases hcd : c = d
  · left
    subst hcd
    simp [escapeUnless, hresolved]
  right
  have hsame : escapeUnless (d :: resolved) c = escapeUnless resolved c := by
    simp [escapeUnless, hcd]
  refine ⟨hsame, ?_⟩
  rw [escapeUnless, if_neg hresolved]
  by_cases hmarkup : c ∈ markup
  · exact passesOver_escapeChar hmarkup hd (Ne.symm hcd)
  · rw [escapeChar_of_not_mem hmarkup]
    refine hplain c ?_
    rintro rfl
    exact hmarkup (by decide)

/-- Resolving the entities gives back the text that was escaped, whatever it holds. -/
theorem unescape_escape (cs : List Char) : unescape (escape cs) = cs := by
  -- each replacement takes back one of the escapes, and the ampersand comes last
  have hlt := replaceAll_escapeUnless (d := '<') (by decide) [] (by decide) cs
  have hgt := replaceAll_escapeUnless (d := '>') (by decide) ['<'] (by decide) cs
  have hquot := replaceAll_escapeUnless (d := '"') (by decide) ['>', '<'] (by decide) cs
  have hapos := replaceAll_escapeUnless (d := '\'') (by decide) ['"', '>', '<'] (by decide) cs
  have hamp := replaceAll_escapeUnless (d := '&') (by decide) ['\'', '"', '>', '<'] (by decide) cs
  have hall : escapeUnless ['&', '\'', '"', '>', '<'] = fun c => [c] := by
    funext c
    unfold escapeUnless
    split
    · rfl
    · next hnot =>
      refine escapeChar_of_not_mem fun hmem => hnot ?_
      exact (List.reverse_perm markup).mem_iff.mpr hmem
  calc unescape (escape cs)
      = replaceAll (escapeChar '&') ['&'] (replaceAll (escapeChar '\'') ['\'']
          (replaceAll (escapeChar '"') ['"'] (replaceAll (escapeChar '>') ['>']
            (replaceAll (escapeChar '<') ['<'] (cs.flatMap (escapeUnless [])))))) := rfl
    _ = cs.flatMap (escapeUnless ['&', '\'', '"', '>', '<']) := by rw [hlt, hgt, hquot, hapos, hamp]
    _ = cs := by rw [hall, List.flatMap_singleton']

/-! ## Escaped text -/

/-- Escaped text has none of the characters that stand for markup, but for the ampersands. -/
theorem not_mem_escape {d : Char} (hd : d ∈ markup) (hne : d ≠ '&') (cs : List Char) :
    d ∉ escape cs := by
  intro hmem
  rcases List.mem_flatMap.mp hmem with ⟨c, -, hpiece⟩
  by_cases hc : c ∈ markup
  · have hall : markup.all fun c => markup.all fun d => d == '&' || !(escapeChar c).contains d := by
      decide
    have hpair := List.all_eq_true.mp (List.all_eq_true.mp hall c hc) d hd
    simp [hne, hpiece] at hpair
  · rw [escapeChar_of_not_mem hc, List.mem_singleton] at hpiece
    exact hc (hpiece ▸ hd)

/-- Where escaped text has an ampersand, an entity begins. -/
theorem exists_entity_of_ampersand {cs before after : List Char}
    (h : escape cs = before ++ '&' :: after) : ∃ d ∈ markup, escapeChar d <+: '&' :: after := by
  induction cs generalizing before with
  | nil => simp [escape] at h
  | cons c cs ih =>
    have hcons : escape (c :: cs) = escapeChar c ++ escape cs := List.flatMap_cons
    rw [hcons] at h
    rcases List.append_eq_append_iff.mp h with ⟨between, -, hrest⟩ | ⟨between, hpiece, hrest⟩
    · -- the ampersand stands behind the piece of the first character
      exact ih hrest
    cases between with
    | nil =>
      have hbegins : escape cs = [] ++ '&' :: after := hrest.symm
      exact ih hbegins
    | cons d between =>
      obtain ⟨rfl, rfl⟩ := List.cons.inj hrest
      by_cases hc : c ∈ markup
      · -- the piece is an entity, which has no ampersand but the first
        rcases escapeChar_of_mem hc with ⟨name, hname, hampersand⟩
        cases before with
        | nil => exact ⟨c, hc, by rw [hpiece]; exact List.prefix_append _ _⟩
        | cons b before =>
          rw [hname] at hpiece
          obtain ⟨-, rfl⟩ := List.cons.inj hpiece
          simp at hampersand
      · rw [escapeChar_of_not_mem hc] at hpiece
        have hmem : '&' ∈ [c] := by simp [hpiece]
        rw [List.mem_singleton] at hmem
        exact absurd (by decide) (hmem ▸ hc)

/-- Resolving the entities of escaped text gives back the text, also where that holds the text of
entities itself.  There are no angle brackets and no quotes in escaped text, and no ampersands but
those of entities. -/
theorem escaping_is_undone (cs : List Char) :
    unescape (escape cs) = cs ∧ (∀ d ∈ ['<', '>', '"', '\''], d ∉ escape cs) ∧
      ∀ before after, escape cs = before ++ '&' :: after →
        ∃ d ∈ markup, escapeChar d <+: '&' :: after := by
  have hall : ['<', '>', '"', '\''].all fun d => markup.contains d && d != '&' := by decide
  refine ⟨unescape_escape cs, fun d hd => ?_, fun _ _ => exists_entity_of_ampersand⟩
  have hclean : d ∈ markup ∧ d ≠ '&' := by simpa using List.all_eq_true.mp hall d hd
  exact not_mem_escape hclean.1 hclean.2 cs

/-- An entity whose ampersand is written as one, and markup after it. -/
theorem entity_text_is_escaped :
    let cs := "&amp;lt;<'".toList
    escape cs = "&amp;amp;lt;&lt;&apos;".toList ∧ unescape (escape cs) = cs ∧ '<' ∉ escape cs ∧
      ∃ d ∈ markup, escapeChar d <+: "&lt;&apos;".toList := by
  intro cs
  obtain ⟨hback, hclean, hentity⟩ := escaping_is_undone cs
  exact ⟨by decide, hback, hclean '<' (by decide),
    hentity "&amp;amp;lt;".toList "lt;&apos;".toList (by decide)⟩

/-- White space is written as it is, and all else without white space. -/
theorem escapeChar_of_isBlank (c : Char) : if isBlank c then escapeChar c = [c]
    else escapeChar c ≠ [] ∧ ∀ d ∈ escapeChar c, isBlank d = false := by
  by_cases hc : c ∈ markup
  · have hall : markup.all fun c => !isBlank c && !(escapeChar c).isEmpty &&
        (escapeChar c).all fun d => !isBlank d := by decide
    have hentity := List.all_eq_true.mp hall c hc
    simp only [Bool.and_eq_true, Bool.not_eq_true', List.isEmpty_eq_false_iff,
      List.all_eq_true] at hentity
    rcases hentity with ⟨⟨hvisible, hfilled⟩, hinside⟩
    simpa [hvisible] using And.intro hfilled hinside
  · rw [escapeChar_of_not_mem hc]
    split
    · rfl
    · next hvisible => simpa using hvisible

/-- Characters may be passed over before each is written as a piece, or after, if those that are
passed over are written as they are and all others without such characters. -/
theorem dropWhile_flatMap {p : Char → Bool} {f : Char → List Char}
    (h : ∀ c, if p c then f c = [c] else f c ≠ [] ∧ ∀ d ∈ f c, p d = false) (cs : List Char) :
    (cs.flatMap f).dropWhile p = (cs.dropWhile p).flatMap f := by
  induction cs with
  | nil => rfl
  | cons c cs ih =>
    have hc := h c
    cases hp : p c with
    | true =>
      have hpiece : f c = [c] := by simpa [hp] using hc
      simp [hpiece, hp, ih]
    | false =>
      have hpiece : f c ≠ [] ∧ ∀ d ∈ f c, p d = false := by simpa [hp] using hc
      rcases hpiece with ⟨hfilled, hstay⟩
      rcases List.exists_cons_of_ne_nil hfilled with ⟨d, ds, hf⟩
      have hd : p d = false := hstay d (by simp [hf])
      simp [hf, hd, hp]

/-- Text may be trimmed before it is escaped, or after. -/
theorem trim_escape (cs : List Char) : trim (escape cs) = escape (trim cs) := by
  have hback (c : Char) : if isBlank c then (escapeChar c).reverse = [c]
      else (escapeChar c).reverse ≠ [] ∧ ∀ d ∈ (escapeChar c).reverse, isBlank d = false := by
    simpa using escapeChar_of_isBlank c
  unfold trim escape
  rw [dropWhile_flatMap escapeChar_of_isBlank, List.reverse_flatMap]
  rw [dropWhile_flatMap (f := List.reverse ∘ escapeChar) hback, List.reverse_flatMap]
  simp [Function.comp_def]

end Xml

end CrmEmulator
