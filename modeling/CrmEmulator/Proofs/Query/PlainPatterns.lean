import CrmEmulator.Proofs.Query.Patterns
import CrmEmulator.Proofs.Text.Folding

/-!
# CrmEmulator.Proofs.Query.PlainPatterns — plain patterns beside general ones

1. `Framed`: a text has a part, with more before or after it where a percent sign allows that.  Both
   ways to match come down to it: `plain?_framed` for texts in lower case, `matchesGlobs_framed` for
   folded ones.
2. Percent signs stay where they are in lower case, and no sigma looks past them: `lowercase_cut`.
3. `plain_agrees_with_expression`: which characters the two ways of matching need to differ.
4. `like_fits_ascii`: between ASCII texts there are none of these.
-/

namespace CrmEmulator.Like

/-! ## Parts of texts -/

/-- A percent sign, or nothing. -/
def percent (present : Bool) : List Char := if present then ['%'] else []

/-- The text has the part in it, with something before it or after it only if that is allowed. -/
def Framed (before after : Bool) (part text : List Char) : Prop :=
  ∃ front back, text = front ++ (part ++ back) ∧ (before = false → front = []) ∧
    (after = false → back = [])

/-- What replaces characters by texts keeps parts. -/
theorem Framed.flatMap {before after : Bool} {part text : List Char}
    (h : Framed before after part text) (f : Char → List Char) :
    Framed before after (part.flatMap f) (text.flatMap f) := by
  rcases h with ⟨front, back, rfl, hfront, hback⟩
  refine ⟨front.flatMap f, back.flatMap f, by simp, ?_, ?_⟩
  · intro hbefore
    rw [hfront hbefore, List.flatMap_nil]
  · intro hafter
    rw [hback hafter, List.flatMap_nil]

/-- Converting all characters keeps a part in its frame. -/
theorem Framed.map {before after : Bool} {part text : List Char}
    (h : Framed before after part text) (f : Char → Char) :
    Framed before after (part.map f) (text.map f) := by
  rw [List.map_eq_flatMap, List.map_eq_flatMap]
  exact h.flatMap _

/-- A part occurs in a text if something before it and something behind it make up the text. -/
theorem occursIn_iff {part text : List Char} :
    occursIn part text ↔ ∃ front back, text = front ++ (part ++ back) := by
  induction text with
  | nil => simp [occursIn]
  | cons c cs ih =>
    rw [occursIn, Bool.or_eq_true, ih, List.isPrefixOf_iff_prefix]
    constructor
    · rintro (⟨back, hback⟩ | ⟨front, back, rfl⟩)
      · exact ⟨[], back, hback.symm⟩
      · exact ⟨c :: front, back, rfl⟩
    · rintro ⟨front, back, htext⟩
      cases front with
      | nil =>
        left
        exact ⟨back, htext.symm⟩
      | cons d front =>
        right
        exact ⟨front, back, (List.cons.inj htext).2⟩

section framed
variable {part text : List Char}

/-- Without a percent sign the part is the text. -/
theorem framed_alone : Framed false false part text ↔ text = part := by
  constructor
  · rintro ⟨front, back, rfl, hfront, hback⟩
    rw [hfront rfl, hback rfl, List.nil_append, List.append_nil]
  · rintro rfl
    exact ⟨[], [], by simp, fun _ => rfl, fun _ => rfl⟩

/-- With one behind it the part begins the text. -/
theorem framed_front : Framed false true part text ↔ part.isPrefixOf text := by
  rw [List.isPrefixOf_iff_prefix]
  constructor
  · rintro ⟨front, back, rfl, hfront, -⟩
    rw [hfront rfl]
    exact List.prefix_append part back
  · rintro ⟨back, rfl⟩
    exact ⟨[], back, rfl, fun _ => rfl, nofun⟩

/-- With one before it the part ends the text. -/
theorem framed_back : Framed true false part text ↔ part.isSuffixOf text := by
  rw [List.isSuffixOf_iff_suffix]
  constructor
  · rintro ⟨front, back, rfl, -, hback⟩
    rw [hback rfl, List.append_nil]
    exact List.suffix_append front part
  · rintro ⟨front, rfl⟩
    exact ⟨front, [], by simp, nofun, fun _ => rfl⟩

/-- With both the part is anywhere. -/
theorem framed_anywhere : Framed true true part text ↔ occursIn part text := by
  rw [occursIn_iff]
  constructor
  · rintro ⟨front, back, htext, -, -⟩
    exact ⟨front, back, htext⟩
  · rintro ⟨front, back, htext⟩
    exact ⟨front, back, htext, nofun, nofun⟩

end framed

/-! ## Plain patterns -/

/-- Without the percent sign that it begins with, if it does. -/
theorem eq_percent_append (cs : List Char) :
    cs = percent (cs.head? == some '%') ++ (if cs.head? == some '%' then cs.drop 1 else cs) := by
  cases cs with
  | nil => rfl
  | cons c cs =>
    by_cases hc : c = '%'
    · subst hc
      rfl
    · simp [percent, hc]

/-- Without the percent sign that it ends with, if it does. -/
theorem eq_append_percent {cs : List Char} {ends : Bool} (h : ends → cs.getLast? = some '%') :
    cs = (if ends then cs.dropLast else cs) ++ percent ends := by
  cases ends with
  | false => simp [percent]
  | true =>
    have hlast := h rfl
    rcases List.eq_nil_or_concat cs with rfl | ⟨front, c, rfl⟩
    · cases hlast
    · simpa [percent] using hlast

/-- A last percent sign that is not the first character is still there without that character. -/
theorem getLast?_of_eq_percent_append {cs first : List Char} {before : Bool}
    (hfront : cs = percent before ++ first) (hlength : 1 < cs.length)
    (hlast : cs.getLast? = some '%') : first.getLast? = some '%' := by
  rcases List.eq_nil_or_concat first with rfl | ⟨front, c, rfl⟩
  · -- a lone percent sign is not counted twice
    rw [hfront] at hlength
    revert hlength
    cases before <;> decide
  · rw [hfront, List.concat_eq_append, ← List.append_assoc, List.getLast?_concat] at hlast
    rw [List.concat_eq_append, List.getLast?_concat, hlast]

/-- A plain pattern is a text between percent signs, and it matches what has this text in it. -/
theorem plain?_framed {text pattern : List Char} {b : Bool} (h : plain? text pattern = some b) :
    '_' ∉ pattern ∧ '\\' ∉ pattern ∧ ∃ before after part,
      lowercase pattern = percent before ++ (part ++ percent after) ∧ '%' ∉ part ∧
        (b = true ↔ Framed before after part (lowercase text)) := by
  unfold plain? at h
  split at h
  · cases h
  next hspecial =>
  simp only [List.contains_iff_mem, not_or] at hspecial
  refine ⟨hspecial.1, hspecial.2, ?_⟩
  generalize lowercase text = t at h
  generalize lowercase pattern = p at h ⊢
  dsimp only at h
  -- name what the test looks at: a percent sign at either end, and the part between them
  generalize hbefore : (p.head? == some '%') = before at h
  generalize hafter : (decide (1 < p.length) && p.getLast? == some '%') = after at h
  generalize hfirst : (if before = true then p.drop 1 else p) = first at h
  generalize hpart : (if after = true then first.dropLast else first) = part at h
  split at h
  · cases h
  next hpercent =>
  rw [List.contains_iff_mem] at hpercent
  refine ⟨before, after, part, ?_, hpercent, ?_⟩
  · have hfront := eq_percent_append p
    rw [hbefore, hfirst] at hfront
    have hends : after → first.getLast? = some '%' := by
      rintro rfl
      simp only [Bool.and_eq_true, decide_eq_true_eq, beq_iff_eq] at hafter
      exact getLast?_of_eq_percent_append hfront hafter.1 hafter.2
    have hback := eq_append_percent hends
    rw [hpart] at hback
    rw [← hback]
    exact hfront
  · cases before <;> cases after <;> cases h
    · rw [framed_alone, beq_iff_eq]
    · exact framed_front.symm
    · exact framed_back.symm
    · exact framed_anywhere.symm

/-! ## Percent signs in lower case -/

/-- A percent sign ends a word, as the end of the text does. -/
theorem casedFollows_concat (cs : List Char) : casedFollows (cs ++ ['%']) = casedFollows cs := by
  have hignorable : inRanges caseIgnorableRanges '%' = false := by decide +kernel
  have hcased : inRanges casedRanges '%' = false := by decide
  unfold casedFollows
  rw [List.dropWhile_append]
  cases h : cs.dropWhile (inRanges caseIgnorableRanges) with
  | nil => simp [hignorable, hcased]
  | cons c cs => rfl

/-- A percent sign before a text does not change its lower case: it is no letter. -/
theorem lowerAfter_concat_before (before cs : List Char) :
    lowerAfter (before ++ ['%']) cs = lowerAfter before cs := by
  induction cs generalizing before with
  | nil => rfl
  | cons c cs ih =>
    have hrest := ih (c :: before)
    rw [List.cons_append] at hrest
    simp only [lowerAfter, casedFollows_concat, hrest]

theorem lowerAfter_percent (before cs : List Char) :
    lowerAfter before ('%' :: cs) = '%' :: lowerAfter ('%' :: before) cs := rfl

theorem lowercase_percent (cs : List Char) : lowercase ('%' :: cs) = '%' :: lowercase cs := by
  show '%' :: lowerAfter ([] ++ ['%']) cs = '%' :: lowerAfter [] cs
  rw [lowerAfter_concat_before]

/-- A percent sign at the end is kept by lower case. -/
theorem lowerAfter_concat (before cs : List Char) :
    lowerAfter before (cs ++ ['%']) = lowerAfter before cs ++ ['%'] := by
  induction cs generalizing before with
  | nil => rfl
  | cons c cs ih =>
    simp only [List.cons_append, lowerAfter, casedFollows_concat, ih, List.append_assoc]

/-- Every character becomes something, and nothing but a percent sign becomes one. -/
theorem exists_lowerAfter_cons (before : List Char) (c : Char) (cs : List Char) :
    ∃ lowered, lowerAfter before (c :: cs) = lowered ++ lowerAfter (c :: before) cs ∧
      lowered ≠ [] ∧ ('%' ∈ lowered → c = '%') := by
  by_cases hsigma : c = 'Σ'
  · subst hsigma
    rcases exists_lowerAfter_sigma before cs with ⟨d, hd, heq⟩
    refine ⟨[d], heq, List.cons_ne_nil _ _, ?_⟩
    intro hmem
    rw [List.mem_singleton] at hmem
    subst hmem
    revert hd
    decide
  · refine ⟨lowerChar c, lowerAfter_cons_of_ne hsigma before cs, lowerChar_ne_nil c, ?_⟩
    intro hmem
    rcases mem_lowerChar hmem with heq | hletter
    · exact heq.symm
    · exact absurd hletter (by decide)

/-- Lower case keeps percent signs. -/
theorem percent_mem_lowerAfter {cs : List Char} (h : '%' ∈ cs) (before : List Char) :
    '%' ∈ lowerAfter before cs := by
  induction cs generalizing before with
  | nil => cases h
  | cons c cs ih =>
    rcases List.mem_cons.mp h with rfl | hmem
    · rw [lowerAfter_percent]
      exact List.mem_cons_self
    · rcases exists_lowerAfter_cons before c cs with ⟨lowered, heq, -, -⟩
      rw [heq]
      exact List.mem_append_right _ (ih hmem _)

/-- A text that begins with a percent sign in lower case begins with it. -/
theorem exists_of_lowercase_cons {cs rest : List Char} (h : lowercase cs = '%' :: rest) :
    ∃ more, cs = '%' :: more ∧ lowercase more = rest := by
  cases cs with
  | nil => cases h
  | cons c cs =>
    rcases exists_lowerAfter_cons [] c cs with ⟨lowered, heq, hne, hpercent⟩
    rcases List.exists_cons_of_ne_nil hne with ⟨d, ds, rfl⟩
    have hfirst : d = '%' := by
      have hboth : d :: ds ++ lowerAfter [c] cs = '%' :: rest := heq.symm.trans h
      exact (List.cons.inj hboth).1
    obtain rfl := hpercent (hfirst ▸ List.mem_cons_self)
    rw [lowercase_percent] at h
    exact ⟨cs, rfl, (List.cons.inj h).2⟩

/-- The lower case of a text ends with that of its last character, which is no percent sign unless
it was one. -/
theorem exists_lowerAfter_concat (before cs : List Char) (c : Char) :
    ∃ front lowered, lowerAfter before (cs ++ [c]) = front ++ lowered ∧ lowered ≠ [] ∧
      ('%' ∈ lowered → c = '%') := by
  induction cs generalizing before with
  | nil =>
    rcases exists_lowerAfter_cons before c [] with ⟨lowered, heq, hne, hpercent⟩
    refine ⟨[], lowered, ?_, hne, hpercent⟩
    rw [List.nil_append, heq, lowerAfter, List.append_nil, List.nil_append]
  | cons d cs ih =>
    rcases exists_lowerAfter_cons before d (cs ++ [c]) with ⟨first, heq, -, -⟩
    rcases ih (d :: before) with ⟨front, lowered, heq', hne, hpercent⟩
    refine ⟨first ++ front, lowered, ?_, hne, hpercent⟩
    rw [List.cons_append, heq, heq', List.append_assoc]

/-- A text that ends with a percent sign in lower case ends with it. -/
theorem exists_of_lowercase_concat {cs front : List Char} (h : lowercase cs = front ++ ['%']) :
    ∃ more, cs = more ++ ['%'] ∧ lowercase more = front := by
  rcases List.eq_nil_or_concat cs with rfl | ⟨cs, c, rfl⟩
  · exact absurd h.symm (List.append_ne_nil_of_right_ne_nil _ (List.cons_ne_nil _ _))
  · rw [List.concat_eq_append] at h ⊢
    rcases exists_lowerAfter_concat [] cs c with ⟨others, lowered, heq, hne, hpercent⟩
    have hlast : '%' ∈ lowered := by
      have hboth : others ++ lowered = front ++ ['%'] := heq.symm.trans h
      rcases List.eq_nil_or_concat lowered with rfl | ⟨ds, d, rfl⟩
      · exact absurd rfl hne
      · rw [List.concat_eq_append, ← List.append_assoc] at hboth
        have hends := (List.append_inj' hboth rfl).2
        rw [(List.cons.inj hends).1]
        simp
    obtain rfl := hpercent hlast
    have hcut : lowercase cs ++ ['%'] = front ++ ['%'] := (lowerAfter_concat [] cs).symm.trans h
    exact ⟨cs, rfl, List.append_cancel_right hcut⟩

/-- A pattern is cut at its percent signs alike before and after it is put in lower case. -/
theorem lowercase_cut {pattern part : List Char} {before after : Bool}
    (h : lowercase pattern = percent before ++ (part ++ percent after)) (hpart : '%' ∉ part) :
    ∃ inner, pattern = percent before ++ (inner ++ percent after) ∧ lowercase inner = part ∧
      '%' ∉ inner := by
  have hfront : ∃ rest, pattern = percent before ++ rest ∧
      lowercase rest = part ++ percent after := by
    cases before with
    | false => exact ⟨pattern, rfl, h⟩
    | true => exact exists_of_lowercase_cons h
  rcases hfront with ⟨rest, rfl, hrest⟩
  have hback : ∃ inner, rest = inner ++ percent after ∧ lowercase inner = part := by
    cases after with
    | false =>
      refine ⟨rest, (List.append_nil rest).symm, ?_⟩
      rw [hrest]
      exact List.append_nil part
    | true => exact exists_of_lowercase_concat hrest
  rcases hback with ⟨inner, rfl, rfl⟩
  exact ⟨inner, rfl, rfl, fun hmem => hpart (percent_mem_lowerAfter hmem [])⟩

/-! ## The general matcher on plain patterns -/

/-- Characters that stand for themselves are matched one by one. -/
theorem globs_append {part : List Char} (hpart : ∀ c ∈ part, c ∉ ['%', '_', '\\'])
    (rest : List Char) : globs (part ++ rest) = part.map .char ++ globs rest := by
  induction part with
  | nil => rfl
  | cons c cs ih =>
    rw [List.forall_mem_cons] at hpart
    rw [List.cons_append, globs_cons hpart.1, ih hpart.2]
    rfl

/-- Characters of a pattern match characters that fold alike. -/
theorem matchesGlobs_chars {part text : List Char} {gs : List Glob} :
    matchesGlobs (part.map .char ++ gs) text ↔ ∃ here rest, text = here ++ rest ∧
      here.map foldCase = part.map foldCase ∧ matchesGlobs gs rest := by
  induction part generalizing text with
  | nil =>
    constructor
    · intro h
      exact ⟨[], text, rfl, rfl, h⟩
    · rintro ⟨here, rest, rfl, hhere, h⟩
      obtain rfl := List.map_eq_nil_iff.mp hhere
      exact h
  | cons d part ih =>
    rw [List.map_cons, List.cons_append, matchesGlobs_char]
    constructor
    · rintro ⟨c, others, rfl, hc, hothers⟩
      rcases ih.mp hothers with ⟨here, rest, rfl, hhere, h⟩
      have hfold : foldCase d = foldCase c := eq_of_beq hc
      refine ⟨c :: here, rest, rfl, ?_, h⟩
      rw [List.map_cons, List.map_cons, hhere, hfold]
    · rintro ⟨here, rest, rfl, hhere, h⟩
      cases here with
      | nil => cases hhere
      | cons c here =>
        rcases List.cons.inj hhere with ⟨hfold, hmore⟩
        exact ⟨c, here ++ rest, rfl, beq_iff_eq.mpr hfold.symm, ih.mpr ⟨here, rest, rfl, hmore, h⟩⟩

/-- A percent sign lets anything stand before the rest, and where there is none nothing does. -/
theorem matchesGlobs_percent {present : Bool} {pattern text : List Char} :
    matchesGlobs (globs (percent present ++ pattern)) text ↔ ∃ front rest, text = front ++ rest ∧
      (present = false → front = []) ∧ matchesGlobs (globs pattern) rest := by
  cases present with
  | false =>
    constructor
    · intro h
      exact ⟨[], text, rfl, fun _ => rfl, h⟩
    · rintro ⟨front, rest, rfl, hfront, h⟩
      rw [hfront rfl]
      exact h
  | true =>
    refine matchesGlobs_any.trans ?_
    constructor
    · rintro ⟨front, rest, rfl, h⟩
      exact ⟨front, rest, rfl, nofun, h⟩
    · rintro ⟨front, rest, rfl, -, h⟩
      exact ⟨front, rest, rfl, h⟩

/-- The general matcher finds the text between the percent signs up to letter case. -/
theorem matchesGlobs_framed {before after : Bool} {part text : List Char}
    (hpart : ∀ c ∈ part, c ∉ ['%', '_', '\\']) :
    matchesGlobs (globs (percent before ++ (part ++ percent after))) text ↔
      Framed before after (part.map foldCase) (text.map foldCase) := by
  rw [matchesGlobs_percent, globs_append hpart]
  constructor
  · rintro ⟨front, rest, rfl, hfront, h⟩
    rcases matchesGlobs_chars.mp h with ⟨here, others, rfl, hhere, h⟩
    -- nothing stands behind the last percent sign
    rw [← List.append_nil (percent after)] at h
    rcases matchesGlobs_percent.mp h with ⟨back, last, rfl, hback, h⟩
    obtain rfl := matchesGlobs_nil.mp h
    refine ⟨front.map foldCase, back.map foldCase, by simp [hhere], ?_, ?_⟩
    · intro hbefore
      rw [hfront hbefore, List.map_nil]
    · intro hafter
      rw [hback hafter, List.map_nil]
  · rintro ⟨front, back, htext, hfront, hback⟩
    rcases List.map_eq_append_iff.mp htext with ⟨front, rest, rfl, rfl, hrest⟩
    rcases List.map_eq_append_iff.mp hrest with ⟨here, back, rfl, hhere, rfl⟩
    refine ⟨front, here ++ back, rfl, fun hbefore => List.map_eq_nil_iff.mp (hfront hbefore), ?_⟩
    refine matchesGlobs_chars.mpr ⟨here, back, rfl, hhere, ?_⟩
    rw [← List.append_nil (percent after)]
    refine matchesGlobs_percent.mpr ⟨back, [], (List.append_nil back).symm, ?_, ?_⟩
    · intro hafter
      exact List.map_eq_nil_iff.mp (hback hafter)
    · exact matchesGlobs_nil.mpr rfl

/-! ## Where the two agree -/

section agreement
variable {text pattern : List Char} {b : Bool}

/-- A plain pattern and its answer, cut before it is put in lower case. -/
theorem plain?_cut (h : plain? text pattern = some b) :
    ∃ before after part, pattern = percent before ++ (part ++ percent after) ∧
      (∀ c ∈ part, c ∉ ['%', '_', '\\']) ∧
        (b = true ↔ Framed before after (lowercase part) (lowercase text)) := by
  rcases plain?_framed h with
    ⟨hunderscore, hbackslash, before, after, lowered, hcut, hpart, hanswer⟩
  rcases lowercase_cut hcut hpart with ⟨part, rfl, rfl, hpercent⟩
  refine ⟨before, after, part, rfl, ?_, hanswer⟩
  intro c hc hspecial
  simp only [List.mem_cons, List.not_mem_nil, or_false] at hspecial
  have hmem : c ∈ percent before ++ (part ++ percent after) :=
    List.mem_append_right _ (List.mem_append_left _ hc)
  rcases hspecial with rfl | rfl | rfl
  · exact hpercent hc
  · exact hunderscore hmem
  · exact hbackslash hmem

theorem forall_mem_part {P : Char → Prop} {before after : Bool} {part : List Char}
    (h : ∀ c ∈ percent before ++ (part ++ percent after), P c) : ∀ c ∈ part, P c :=
  fun c hc => h c (List.mem_append_right _ (List.mem_append_left _ hc))

/-- Without stray characters, what is equal in lower case agrees up to folding. -/
theorem matchesGlobs_of_plain? (h : plain? text pattern = some true)
    (htext : ∀ c ∈ text, isStray c = false) (hpattern : ∀ c ∈ pattern, isStray c = false) :
    matchesGlobs (globs pattern) text := by
  rcases plain?_cut h with ⟨before, after, part, rfl, hpart, hanswer⟩
  have hframed := (hanswer.mp rfl).map foldCase
  rw [map_foldCase_lowercase htext, map_foldCase_lowercase (forall_mem_part hpattern)] at hframed
  exact (matchesGlobs_framed hpart).mpr hframed

/-- Without several small forms of one letter, what agrees up to folding is equal in lower case. -/
theorem plain?_of_matchesGlobs (h : plain? text pattern = some b)
    (htext : ∀ c ∈ text, isVariant c = false) (hpattern : ∀ c ∈ pattern, isVariant c = false)
    (hmatches : matchesGlobs (globs pattern) text) : b = true := by
  rcases plain?_cut h with ⟨before, after, part, rfl, hpart, hanswer⟩
  have hframed := ((matchesGlobs_framed hpart).mp hmatches).flatMap lowerChar
  rw [← lowercase_eq_flatMap htext, ← lowercase_eq_flatMap (forall_mem_part hpattern)] at hframed
  exact hanswer.mpr hframed

end agreement

/-! ## Where they differ -/

/-- No character but a given one is to blame. -/
def OnlyOdd (c : Char) (cs : List Char) : Prop := ∀ d ∈ cs, d = c ∨ isSteady d

instance (c : Char) (cs : List Char) : Decidable (OnlyOdd c cs) := List.decidableBAll _ cs

section single
variable {c d : Char}

theorem onlyOdd_pair (hd : isSteady d) : OnlyOdd c ([c] ++ [d]) :=
  List.forall_mem_cons.mpr ⟨.inl rfl, List.forall_mem_singleton.mpr (.inr hd)⟩

theorem lowercase_single (hc : c ≠ 'Σ') : lowercase [c] = lowerChar c := by
  rw [lowercase, lowerAfter_cons_of_ne hc, lowerAfter, List.append_nil]

/-- A pattern of one steady letter compares lower case. -/
theorem plain?_single (hd : d ∉ ['%', '_', '\\']) (hlower : lowercase [d] = [d])
    (text : List Char) : plain? text [d] = some (lowercase text == [d]) := by
  simp only [List.mem_cons, List.not_mem_nil, or_false, not_or] at hd
  have hpercent : (d == '%') = false := beq_false_of_ne hd.1
  simp [plain?, hlower, hpercent, Ne.symm hd.1, Ne.symm hd.2.1, Ne.symm hd.2.2]

/-- As an expression it compares foldings. -/
theorem matchesGlobs_single (hd : d ∉ ['%', '_', '\\']) :
    matchesGlobs (globs [d]) [c] ↔ foldCase d = foldCase c := by
  rw [globs_cons hd, globs, matchesGlobs_char]
  constructor
  · rintro ⟨_, _, ⟨⟩, hsame, -⟩
    exact eq_of_beq hsame
  · intro hsame
    exact ⟨c, [], rfl, beq_iff_eq.mpr hsame, matchesGlobs_nil.mpr rfl⟩

theorem ne_sigma_of_isSteady (hd : isSteady d) : d ≠ 'Σ' := by
  rintro rfl
  revert hd
  decide

/-- Beside its own lower case, a stray letter is matched by mistake. -/
theorem stray_misleads (hc : isStray c) : ∃ text pattern, OnlyOdd c (text ++ pattern) ∧
    plain? text pattern = some true ∧ ¬matchesGlobs (globs pattern) text := by
  by_cases hdotted : c = 'İ'
  · subst hdotted
    exact ⟨['İ'], lowerChar 'İ', by decide⟩
  · rcases exists_of_isStray hc hdotted with
      ⟨d, hmoved, hsteady, hliteral, hlower, hlower', hfold, hfold'⟩
    have hsigma : c ≠ 'Σ' := by
      rintro rfl
      revert hc
      decide
    rw [← lowercase_single hsigma] at hlower
    rw [← lowercase_single (ne_sigma_of_isSteady hsteady)] at hlower'
    refine ⟨[c], [d], onlyOdd_pair hsteady, ?_, ?_⟩
    · rw [plain?_single hliteral hlower', hlower, beq_self_eq_true]
    · rw [matchesGlobs_single hliteral, hfold, hfold']
      exact hmoved

/-- Beside the small letter that it is folded to, a variant is missed; it takes two of them for a
capital sigma to have both its small forms. -/
theorem variant_misleads (hc : isVariant c) : ∃ text pattern, OnlyOdd c (text ++ pattern) ∧
    plain? text pattern = some false ∧ matchesGlobs (globs pattern) text := by
  by_cases hsigma : c = 'Σ'
  · subst hsigma
    exact ⟨['Σ', 'Σ'], ['σ', 'σ'], by decide +kernel⟩
  · rcases exists_of_isVariant hc hsigma with
      ⟨d, hmoved, hsteady, hliteral, hlower, hlower', hfold, hfold'⟩
    rw [← lowercase_single hsigma] at hlower
    rw [← lowercase_single (ne_sigma_of_isSteady hsteady)] at hlower'
    refine ⟨[c], [d], onlyOdd_pair hsteady, ?_, ?_⟩
    · rw [plain?_single hliteral hlower', hlower]
      simpa using Ne.symm hmoved
    · rw [matchesGlobs_single hliteral, hfold, hfold']

end single

/-- The answer for a plain pattern is that of its regular expression, but for a few letters: where
it is a wrong yes, there is a stray letter, and where it is a wrong no, there is a variant.  Each of
these letters does mislead it, without the help of another one. -/
theorem plain_agrees_with_expression (text pattern : List Char) (c : Char) :
    (plain? text pattern = some true → (∀ d ∈ text ++ pattern, isStray d = false) →
      Expression.Matches (expression pattern) text) ∧
    (plain? text pattern = some false → (∀ d ∈ text ++ pattern, isVariant d = false) →
      ¬Expression.Matches (expression pattern) text) ∧
    (isStray c → ∃ text' pattern', OnlyOdd c (text' ++ pattern') ∧
      plain? text' pattern' = some true ∧ ¬Expression.Matches (expression pattern') text') ∧
    (isVariant c → ∃ text' pattern', OnlyOdd c (text' ++ pattern') ∧
      plain? text' pattern' = some false ∧ Expression.Matches (expression pattern') text') := by
  simp only [← matchesGlobs_iff_expression]
  refine ⟨?_, ?_, stray_misleads, variant_misleads⟩
  · intro h hsteady
    rw [List.forall_mem_append] at hsteady
    exact matchesGlobs_of_plain? h hsteady.1 hsteady.2
  · intro h hsteady hmatches
    rw [List.forall_mem_append] at hsteady
    cases plain?_of_matchesGlobs h hsteady.1 hsteady.2 hmatches

/-- The sign for kelvin is an ordinary letter to both, a dotted capital I and a final sigma are
not. -/
theorem kelvin_sign_is_matched :
    Expression.Matches (expression "%elvin%".toList) "300 \u212aELVIN".toList ∧
      ¬Expression.Matches (expression "kelvin%".toList) "300 \u212aELVIN".toList ∧
      (∃ text pattern, OnlyOdd 'İ' (text ++ pattern) ∧ plain? text pattern = some true ∧
        ¬Expression.Matches (expression pattern) text) ∧
      ∃ text pattern, OnlyOdd 'ς' (text ++ pattern) ∧ plain? text pattern = some false ∧
        Expression.Matches (expression pattern) text := by
  obtain ⟨hyes, -, hstray, -⟩ :=
    plain_agrees_with_expression "300 \u212aELVIN".toList "%elvin%".toList 'İ'
  obtain ⟨-, hno, -, hvariant⟩ :=
    plain_agrees_with_expression "300 \u212aELVIN".toList "kelvin%".toList 'ς'
  refine ⟨hyes (by decide) ?_, hno (by decide) ?_, hstray (by decide), hvariant (by decide)⟩
  · have hnone : ("300 \u212aELVIN".toList ++ "%elvin%".toList).any isStray = false := by
      decide
    simpa only [Bool.not_eq_true] using List.any_eq_false.mp hnone
  · have hnone : ("300 \u212aELVIN".toList ++ "kelvin%".toList).any isVariant = false := by
      decide
    simpa only [Bool.not_eq_true] using List.any_eq_false.mp hnone

/-- The lower case of a word ends with a final sigma, and a pattern may have none there. -/
theorem final_sigma_is_missed :
    plain? "ΟΔΟΣ".toList "οδοσ".toList = some false ∧
      Expression.Matches (expression "οδοσ".toList) "ΟΔΟΣ".toList := by
  rw [← matchesGlobs_iff_expression]
  decide +kernel

/-! ## ASCII texts -/

theorem isSteady_of_ascii {c : Char} (hc : c.toNat < 128) :
    isStray c = false ∧ isVariant c = false :=
  ⟨inRanges_of_lt (by decide) hc, inRanges_of_lt (by decide) hc⟩

/-- Between ASCII texts, `LIKE` and the regular expression of the pattern both match exactly the
texts that the pattern stands for, whether it is plain or not. -/
theorem like_fits_ascii {text pattern : List Char} (htext : IsAscii text)
    (hpattern : IsAscii pattern) :
    (test text pattern ↔ Fits pattern text) ∧
      (Expression.Matches (expression pattern) text ↔ Fits pattern text) := by
  have hfits := matchesGlobs_iff_fits hpattern htext
  refine ⟨?_, matchesGlobs_iff_expression.symm.trans hfits⟩
  rw [← hfits, test]
  cases hplain : plain? text pattern with
  | none => exact Iff.rfl
  | some b =>
    constructor
    · rintro rfl
      exact matchesGlobs_of_plain? hplain (fun c hc => (isSteady_of_ascii (htext c hc)).1)
        (fun c hc => (isSteady_of_ascii (hpattern c hc)).1)
    · exact plain?_of_matchesGlobs hplain (fun c hc => (isSteady_of_ascii (htext c hc)).2)
        (fun c hc => (isSteady_of_ascii (hpattern c hc)).2)

/-- Two lines with signs that mean something in regular expressions, matched by a pattern with an
escape at its end and by a plain one. -/
theorem discount_is_matched :
    Fits "A.(%_+c 100\\%".toList "a.(b)\n*+C 100%".toList ∧
      Fits "%+C 100%".toList "a.(b)\n*+C 100%".toList := by
  have htext : IsAscii "a.(b)\n*+C 100%".toList := by decide
  have hgeneral : IsAscii "A.(%_+c 100\\%".toList := by decide
  have hplain : IsAscii "%+C 100%".toList := by decide
  exact ⟨(like_fits_ascii htext hgeneral).1.mp (by decide),
    (like_fits_ascii htext hplain).1.mp (by decide)⟩

end CrmEmulator.Like
