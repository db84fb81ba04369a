import CrmEmulator.Text.Matching

/-!
# CrmEmulator.Proofs.Text.Matching — where a pattern matches, and where it does not

1. `PassesOver`: a pattern matches nowhere in a text, whatever comes after the text.  It passes over
   two texts in a row if it does over either, and over all texts without the character that its
   matches begin with.
2. A search goes on behind a text that is passed over, and behind a match.
3. A word in any letter case is read off character by character.
4. Replacing a part changes nothing in a text that the part is not looked for in.
-/

namespace CrmEmulator

/-! ## Passing over a text -/

section passing
variable {α : Type} {p : Pattern α}

/-- The pattern matches at no place of the text, whatever comes after it. -/
def PassesOver (p : Pattern α) : List Char → Prop
  | [] => True
  | c :: cs => (∀ rest, p (c :: cs ++ rest) = none) ∧ PassesOver p cs

/-- All matches of the pattern begin with a character. -/
def OpensWith (p : Pattern α) (c : Char) : Prop := ∀ d cs, d ≠ c → p (d :: cs) = none

/-- A text is passed over if both of its parts are. -/
theorem PassesOver.append {front back : List Char} (hfront : PassesOver p front)
    (hback : PassesOver p back) : PassesOver p (front ++ back) := by
  induction front with
  | nil => exact hback
  | cons c front ih =>
    rcases hfront with ⟨hhere, hthere⟩
    refine ⟨?_, ih hthere⟩
    intro rest
    -- the second text is part of what comes after the first
    have hsplit : c :: (front ++ back) ++ rest = c :: front ++ (back ++ rest) := by simp
    show p (c :: (front ++ back) ++ rest) = none
    rw [hsplit]
    exact hhere (back ++ rest)

/-- A text without the first character of a pattern is passed over. -/
theorem passesOver_of_not_mem {c : Char} (hp : OpensWith p c) {text : List Char} (h : c ∉ text) :
    PassesOver p text := by
  induction text with
  | nil => trivial
  | cons d text ih =>
    rw [List.mem_cons, not_or] at h
    rcases h with ⟨hd, htext⟩
    refine ⟨?_, ih htext⟩
    intro rest
    exact hp d (text ++ rest) (Ne.symm hd)

/-- Where the character is only the first one, no match begins but there. -/
theorem passesOver_cons {c : Char} (hp : OpensWith p c) {text : List Char} (h : c ∉ text)
    (hhere : ∀ rest, p (c :: (text ++ rest)) = none) : PassesOver p (c :: text) :=
  ⟨hhere, passesOver_of_not_mem hp h⟩

/-- Texts one behind the other are passed over if each is. -/
theorem passesOver_flatMap {β : Type} {f : β → List Char} {xs : List β}
    (h : ∀ x ∈ xs, PassesOver p (f x)) : PassesOver p (xs.flatMap f) := by
  induction xs with
  | nil => trivial
  | cons x xs ih =>
    rw [List.forall_mem_cons] at h
    rw [List.flatMap_cons]
    exact h.1.append (ih h.2)

/-! ## Searching -/

/-- Skipping characters is beginning behind them. -/
theorem findFrom_eq_drop (p : Pattern α) (skip : Nat) (cs : List Char) :
    findFrom p skip cs = findAll p (cs.drop skip) := by
  induction cs generalizing skip with
  | nil => cases skip <;> rfl
  | cons c cs ih =>
    cases skip with
    | zero => rfl
    | succ skip => exact ih skip

@[simp] theorem findAll_nil (p : Pattern α) : findAll p [] = [] := rfl

/-- Where nothing matches, the search goes on behind the next character. -/
theorem findAll_cons_of_none {c : Char} {cs : List Char} (h : p (c :: cs) = none) :
    findAll p (c :: cs) = findAll p cs := by
  show findFrom p 0 (c :: cs) = findFrom p 0 cs
  rw [findFrom]
  simp only [h]

/-- A match that takes something is found, and the search goes on behind it. -/
theorem findAll_match {taken rest : List Char} (htaken : taken ≠ []) {x : α}
    (h : p (taken ++ rest) = some (x, rest)) :
    findAll p (taken ++ rest) = x :: findAll p rest := by
  rcases List.exists_cons_of_ne_nil htaken with ⟨c, cs, rfl⟩
  have hbehind : (cs ++ rest).drop ((cs ++ rest).length - rest.length) = rest := by simp
  rw [List.cons_append] at h ⊢
  show findFrom p 0 (c :: (cs ++ rest)) = x :: findAll p rest
  rw [findFrom]
  simp only [h, findFrom_eq_drop, hbehind]

/-- What is passed over adds no matches. -/
theorem PassesOver.findAll_append {text : List Char} (h : PassesOver p text) (rest : List Char) :
    findAll p (text ++ rest) = findAll p rest := by
  induction text with
  | nil => rfl
  | cons c text ih =>
    rcases h with ⟨hhere, hthere⟩
    have hnone : p (c :: (text ++ rest)) = none := hhere rest
    rw [List.cons_append, findAll_cons_of_none hnone, ih hthere]

/-- Of texts in a row, each with one match, all matches are found. -/
theorem findAll_flatMap {β : Type} {text : β → List Char} {found : β → α} {xs : List β}
    (h : ∀ x ∈ xs, ∀ rest, findAll p (text x ++ rest) = found x :: findAll p rest)
    (rest : List Char) :
    findAll p (xs.flatMap text ++ rest) = xs.map found ++ findAll p rest := by
  induction xs with
  | nil => rfl
  | cons x xs ih =>
    rw [List.forall_mem_cons] at h
    rcases h with ⟨hx, hxs⟩
    rw [List.flatMap_cons, List.append_assoc, hx, ih hxs]
    rfl

/-- What is passed over holds no match. -/
theorem PassesOver.findAll_eq_nil {text : List Char} (h : PassesOver p text) :
    findAll p text = [] := by
  simpa using h.findAll_append []

/-- A text that is passed over stands before the first match behind it. -/
theorem PassesOver.untilMatch?_append {text : List Char} (h : PassesOver p text)
    {x : α} {matched rest : List Char} (hmatch : p matched = some (x, rest))
    (hmatched : matched ≠ []) :
    untilMatch? p (text ++ matched) = some (text, rest) := by
  induction text with
  | nil =>
    rcases List.exists_cons_of_ne_nil hmatched with ⟨c, cs, rfl⟩
    rw [List.nil_append, untilMatch?, hmatch]
  | cons c text ih =>
    rcases h with ⟨hhere, hthere⟩
    have hnone : p (c :: (text ++ matched)) = none := hhere matched
    rw [List.cons_append, untilMatch?, hnone, ih hthere]
    rfl

end passing

/-! ## Words in any letter case -/

/-- Letters are compared one by one, in either case. -/
theorem afterFolded?_cons (a c : Char) (word cs : List Char) :
    afterFolded? (a :: word) (c :: cs) = if sameFolded a c then afterFolded? word cs else none := by
  cases h : sameFolded a c with
  | true =>
    simp only [afterFolded?, List.length_cons, List.zip_cons_cons, List.all_cons, h,
      Bool.true_and, Nat.add_le_add_iff_right, List.drop_succ_cons, if_true]
  | false => simp [afterFolded?, h]

/-- Every text begins with itself. -/
theorem afterFolded?_self (word rest : List Char) : afterFolded? word (word ++ rest) = some rest := by
  induction word with
  | nil => simp [afterFolded?]
  | cons c word ih =>
    have hself : sameFolded c c := by simp [sameFolded]
    rw [List.cons_append, afterFolded?_cons, if_pos hself, ih]

/-! ## Replacing -/

section replacing
variable {part : List Char}

/-- The pattern that matches a part and nothing else. -/
def literal (part : List Char) : Pattern Unit := fun cs => (afterBeginning? part cs).map ((), ·)

theorem not_isPrefixOf_of_literal {cs : List Char} (h : literal part cs = none) :
    ¬part.isPrefixOf cs := by
  simpa [literal, afterBeginning?] using h

theorem literal_opensWith (c : Char) (more : List Char) : OpensWith (literal (c :: more)) c := by
  intro d cs hd
  simp [literal, afterBeginning?, List.isPrefixOf, Ne.symm hd]

/-- Skipping characters is beginning behind them, also where something is replaced. -/
theorem replaceFrom_eq_drop (part replacement : List Char) (skip : Nat) (cs : List Char) :
    replaceFrom part replacement skip cs = replaceAll part replacement (cs.drop skip) := by
  induction cs generalizing skip with
  | nil => cases skip <;> rfl
  | cons c cs ih =>
    cases skip with
    | zero => rfl
    | succ skip => exact ih skip

/-- A part at the beginning is replaced. -/
theorem replaceAll_part (hpart : part ≠ []) (replacement rest : List Char) :
    replaceAll part replacement (part ++ rest) = replacement ++ replaceAll part replacement rest := by
  rcases List.exists_cons_of_ne_nil hpart with ⟨c, cs, rfl⟩
  have hhere : (c :: cs).isPrefixOf (c :: (cs ++ rest)) = true := by simp
  show replaceFrom (c :: cs) replacement 0 (c :: (cs ++ rest)) = _
  rw [replaceFrom, if_pos hhere, replaceFrom_eq_drop]
  simp

/-- What is passed over stays as it is. -/
theorem replaceAll_passedOver {text : List Char} (h : PassesOver (literal part) text)
    (replacement rest : List Char) :
    replaceAll part replacement (text ++ rest) = text ++ replaceAll part replacement rest := by
  induction text with
  | nil => rfl
  | cons c text ih =>
    rcases h with ⟨hhere, hthere⟩
    have hnot : ¬part.isPrefixOf (c :: (text ++ rest)) := not_isPrefixOf_of_literal (hhere rest)
    show replaceFrom part replacement 0 (c :: (text ++ rest)) = _
    rw [replaceFrom, if_neg hnot]
    show c :: replaceAll part replacement (text ++ rest) = _
    rw [ih hthere]
    rfl

/-- In a text of pieces, those that are the part are replaced and the others stay, if the part is
not to be found in any of these. -/
theorem replaceAll_flatMap {f g : Char → List Char} {replacement : List Char} (hpart : part ≠ [])
    {cs : List Char}
    (h : ∀ c ∈ cs, (f c = part ∧ g c = replacement) ∨ (g c = f c ∧ PassesOver (literal part) (f c))) :
    replaceAll part replacement (cs.flatMap f) = cs.flatMap g := by
  induction cs with
  | nil => rfl
  | cons c cs ih =>
    rw [List.forall_mem_cons] at h
    rcases h with ⟨hc, hcs⟩
    rw [List.flatMap_cons, List.flatMap_cons]
    rcases hc with ⟨hf, hg⟩ | ⟨hg, hpass⟩
    · rw [hf, hg, replaceAll_part hpart, ih hcs]
    · rw [hg, replaceAll_passedOver hpass, ih hcs]

end replacing

end CrmEmulator
