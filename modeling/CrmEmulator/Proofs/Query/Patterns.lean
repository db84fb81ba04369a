import CrmEmulator.Proofs.Text.LetterCase
import CrmEmulator.Query.Like

/-!
# CrmEmulator.Proofs.Query.Patterns — what LIKE patterns match

The general matcher answers for all places of a text at once.  Read at the first place only, its
answers obey the equations that a matcher without a table would be written by.

1. `matchesFrom_cons`: the answers for a text, but the first, are those for the text without its
   first character; from it, one equivalence for each kind of piece.
2. `Fits`: what a pattern says to a reader who knows ASCII letters.
3. `expression`: the regular expression that says the same as a pattern, and `Expression.Matches`,
   what expressions of this kind match.  The general matcher does what the expression says.
-/

namespace CrmEmulator.Like

/-! ## One place after the other -/

section answers
variable (gs : List Glob) (c : Char) (cs : List Char)

theorem orLater_ne_nil {answers : List Bool} (h : answers ≠ []) : orLater answers ≠ [] := by
  cases answers with
  | nil => exact absurd rfl h
  | cons b bs => cases bs <;> exact List.cons_ne_nil _ _

/-- There is an answer for every place of the text, its end included. -/
theorem matchesFrom_ne_nil : matchesFrom gs cs ≠ [] := by
  induction gs with
  | nil => simp [matchesFrom]
  | cons g gs ih =>
    cases g with
    | any => exact orLater_ne_nil ih
    | one | char => simp [matchesFrom]

/-- The answer for a text is the first of its answers. -/
theorem matchesFrom_eq : matchesFrom gs cs = matchesGlobs gs cs :: (matchesFrom gs cs).drop 1 := by
  rcases List.exists_cons_of_ne_nil (matchesFrom_ne_nil gs cs) with ⟨b, bs, h⟩
  rw [matchesGlobs, h]
  rfl

/-- A percent sign matches from a place if the rest does from there or from a later one. -/
theorem orLater_cons (b : Bool) : orLater (b :: matchesFrom gs cs) =
    (b || matchesGlobs (.any :: gs) cs) :: matchesFrom (.any :: gs) cs := by
  rw [matchesFrom_eq gs cs, orLater, ← matchesFrom_eq gs cs]
  · rfl
  · exact List.cons_ne_nil _ _

/-- All answers but the first are those for the text without its first character. -/
theorem matchesFrom_cons :
    matchesFrom gs (c :: cs) = matchesGlobs gs (c :: cs) :: matchesFrom gs cs := by
  have hrest : (matchesFrom gs (c :: cs)).drop 1 = matchesFrom gs cs := by
    induction gs with
    | nil => rfl
    | cons g gs ih =>
      have hcons : matchesFrom gs (c :: cs) = matchesGlobs gs (c :: cs) :: matchesFrom gs cs := by
        rw [matchesFrom_eq gs (c :: cs), ih]
      cases g with
      | any =>
        rw [matchesFrom, hcons, orLater_cons]
        rfl
      | one =>
        rw [matchesFrom, hcons, List.drop_succ_cons, List.drop_zero, matchesFrom_eq gs cs]
        rfl
      | char d =>
        rw [matchesFrom, hcons, List.drop_succ_cons, List.drop_zero, matchesFrom_eq gs cs]
        simp [matchesFrom]
  rw [matchesFrom_eq, hrest]

/-- At the end of a text there is one answer. -/
theorem matchesFrom_nil : matchesFrom gs [] = [matchesGlobs gs []] := by
  have hend : (matchesFrom gs []).drop 1 = [] := by
    induction gs with
    | nil => rfl
    | cons g gs ih =>
      have hone : matchesFrom gs [] = [matchesGlobs gs []] := by rw [matchesFrom_eq gs [], ih]
      cases g with
      | any | one => rw [matchesFrom, hone]; rfl
      | char => rfl
  rw [matchesFrom_eq, hend]

end answers

/-! ## One piece after the other -/

section pieces
variable {gs : List Glob} {d : Char} {text : List Char}

theorem matchesGlobs_nil : matchesGlobs [] text ↔ text = [] := by
  cases text with
  | nil => simp [matchesGlobs, matchesFrom]
  | cons c cs => simp [matchesGlobs, matchesFrom, List.replicate_succ]

/-- A percent sign takes any characters. -/
theorem matchesGlobs_any :
    matchesGlobs (.any :: gs) text ↔ ∃ taken rest, text = taken ++ rest ∧ matchesGlobs gs rest := by
  induction text with
  | nil =>
    have hsame : matchesGlobs (.any :: gs) [] = matchesGlobs gs [] := by
      rw [matchesGlobs, matchesFrom, matchesFrom_nil]
      rfl
    rw [hsame]
    constructor
    · intro h
      exact ⟨[], [], rfl, h⟩
    · rintro ⟨taken, rest, htext, h⟩
      rwa [(List.append_eq_nil_iff.mp htext.symm).2] at h
  | cons c cs ih =>
    have hstep : matchesGlobs (.any :: gs) (c :: cs) =
        (matchesGlobs gs (c :: cs) || matchesGlobs (.any :: gs) cs) := by
      rw [matchesGlobs, matchesFrom, matchesFrom_cons, orLater_cons]
      rfl
    -- nothing is taken, or the first character and whatever is taken behind it
    rw [hstep, Bool.or_eq_true, ih]
    constructor
    · rintro (hhere | ⟨taken, rest, rfl, hrest⟩)
      · exact ⟨[], c :: cs, rfl, hhere⟩
      · exact ⟨c :: taken, rest, rfl, hrest⟩
    · rintro ⟨taken, rest, htext, hrest⟩
      cases taken with
      | nil =>
        left
        rw [List.nil_append] at htext
        rwa [htext]
      | cons e taken =>
        right
        exact ⟨taken, rest, (List.cons.inj htext).2, hrest⟩

/-- An underscore takes one character. -/
theorem matchesGlobs_one :
    matchesGlobs (.one :: gs) text ↔ ∃ c rest, text = c :: rest ∧ matchesGlobs gs rest := by
  cases text with
  | nil =>
    have hnone : matchesGlobs (.one :: gs) [] = false := by
      rw [matchesGlobs, matchesFrom, matchesFrom_nil]
      rfl
    simp [hnone]
  | cons c cs =>
    have hstep : matchesGlobs (.one :: gs) (c :: cs) = matchesGlobs gs cs := by
      rw [matchesGlobs, matchesFrom, matchesFrom_cons, List.drop_succ_cons, List.drop_zero,
        matchesFrom_eq gs cs]
      rfl
    rw [hstep]
    constructor
    · intro h
      exact ⟨c, cs, rfl, h⟩
    · rintro ⟨_, _, ⟨⟩, h⟩
      exact h

/-- A letter takes one character with the same folding. -/
theorem matchesGlobs_char : matchesGlobs (.char d :: gs) text ↔
    ∃ c rest, text = c :: rest ∧ sameFolded d c ∧ matchesGlobs gs rest := by
  cases text with
  | nil => simp [matchesGlobs, matchesFrom]
  | cons c cs =>
    have hstep : matchesGlobs (.char d :: gs) (c :: cs) =
        (matchesGlobs gs cs && sameFolded d c) := by
      rw [matchesGlobs, matchesFrom, matchesFrom_cons, List.drop_succ_cons, List.drop_zero,
        matchesFrom_eq gs cs]
      rfl
    rw [hstep, Bool.and_eq_true]
    constructor
    · rintro ⟨hrest, hc⟩
      exact ⟨c, cs, rfl, hc, hrest⟩
    · rintro ⟨_, _, ⟨⟩, hc, hrest⟩
      exact ⟨hrest, hc⟩

end pieces

/-- A character without a meaning of its own stands for itself. -/
theorem globs_cons {c : Char} (hc : c ∉ ['%', '_', '\\']) (cs : List Char) :
    globs (c :: cs) = .char c :: globs cs := by
  simp only [List.mem_cons, List.not_mem_nil, or_false, not_or] at hc
  rw [globs]
  · intro _ _ hbackslash
    exact absurd hbackslash hc.2.2
  · exact hc.1
  · exact hc.2.1

/-! ## The pattern as a regular expression -/

/-- Characters that regular expressions give a meaning to. -/
def metacharacters : List Char := "\\.+*?()|[]\x7b\x7d^$#&-~".toList

/-- Those among them that repeat what stands before them. -/
def repetitions : List Char := "*+?\x7b".toList

/-- A single character as an expression: one with a meaning of its own stands behind a backslash. -/
def literalExpression (c : Char) : List Char := if c ∈ metacharacters then ['\\', c] else [c]

/-- The expression of a pattern, between its anchors. -/
def unanchored : List Char → List Char
  | [] => []
  | '\\' :: c :: cs => literalExpression c ++ unanchored cs
  | '%' :: cs => '.' :: '*' :: unanchored cs
  | '_' :: cs => '.' :: unanchored cs
  | c :: cs => literalExpression c ++ unanchored cs

/-- The regular expression that says the same as a pattern. -/
def expression (pattern : List Char) : List Char := '^' :: (unanchored pattern ++ ['$'])

namespace Expression

/-- An expression goes on with something that repeats what stands before it. -/
def Repeats (more : List Char) : Prop := ∃ c ∈ more.head?, c ∈ repetitions

/-- What the rest of an expression matches, up to its end: a dot is any character, also a line feed,
and letters are compared by folding. -/
inductive MatchesRest : List Char → List Char → Prop
  | finish : MatchesRest ['$'] []
  | run (taken : List Char) {more text : List Char} (hmore : ¬Repeats more)
      (h : MatchesRest more text) : MatchesRest ('.' :: '*' :: more) (taken ++ text)
  | one (c : Char) {more text : List Char} (hmore : ¬Repeats more) (h : MatchesRest more text) :
      MatchesRest ('.' :: more) (c :: text)
  | escaped {d c : Char} {more text : List Char} (hd : d ∈ metacharacters) (hmore : ¬Repeats more)
      (hc : sameFolded d c) (h : MatchesRest more text) :
      MatchesRest ('\\' :: d :: more) (c :: text)
  | plain {d c : Char} {more text : List Char} (hd : d ∉ metacharacters) (hmore : ¬Repeats more)
      (hc : sameFolded d c) (h : MatchesRest more text) : MatchesRest (d :: more) (c :: text)

/-- What an expression matches that is anchored at the beginning of a text. -/
def Matches (expression text : List Char) : Prop :=
  ∃ more, expression = '^' :: more ∧ MatchesRest more text

/-- An expression for a single character repeats nothing. -/
theorem not_repeats_literalExpression (c : Char) (more : List Char) :
    ¬Repeats (literalExpression c ++ more) := by
  unfold literalExpression
  split
  · rintro ⟨_, ⟨⟩, hrepeats⟩
    revert hrepeats
    decide
  · next hc =>
    rintro ⟨_, ⟨⟩, hrepeats⟩
    have hsubset : repetitions ⊆ metacharacters := by decide
    exact hc (hsubset hrepeats)

/-- No repetition comes first in the expression of a pattern. -/
theorem not_repeats_unanchored (pattern : List Char) : ¬Repeats (unanchored pattern ++ ['$']) := by
  have hdot : ∀ more, ¬Repeats ('.' :: more) := by
    rintro more ⟨_, ⟨⟩, hrepeats⟩
    revert hrepeats
    decide
  fun_cases unanchored pattern with
  | case1 =>
    rintro ⟨_, ⟨⟩, hrepeats⟩
    revert hrepeats
    decide
  | case2 c cs =>
    rw [List.append_assoc]
    exact not_repeats_literalExpression c _
  | case3 cs => exact hdot _
  | case4 cs => exact hdot _
  | case5 c cs =>
    rw [List.append_assoc]
    exact not_repeats_literalExpression c _

variable {more text : List Char}

/-- The end of an expression matches the end of the text. -/
theorem matchesRest_finish : MatchesRest ['$'] text ↔ text = [] := by
  constructor
  · intro h
    cases h with
    | finish => rfl
    | plain hd => exact absurd (by decide) hd
  · rintro rfl
    exact .finish

/-- A dot with a star takes any characters. -/
theorem matchesRest_run (hmore : ¬Repeats more) : MatchesRest ('.' :: '*' :: more) text ↔
    ∃ taken rest, text = taken ++ rest ∧ MatchesRest more rest := by
  constructor
  · intro h
    cases h with
    | run taken _ h => exact ⟨taken, _, rfl, h⟩
    | one c hrepeats => exact absurd ⟨'*', rfl, by decide⟩ hrepeats
    | plain hd => exact absurd (by decide) hd
  · rintro ⟨taken, rest, rfl, h⟩
    exact .run taken hmore h

/-- A dot takes one character. -/
theorem matchesRest_one (hmore : ¬Repeats more) : MatchesRest ('.' :: more) text ↔
    ∃ c rest, text = c :: rest ∧ MatchesRest more rest := by
  constructor
  · intro h
    cases h with
    | run => exact absurd ⟨'*', rfl, by decide⟩ hmore
    | one c _ h => exact ⟨c, _, rfl, h⟩
    | plain hd => exact absurd (by decide) hd
  · rintro ⟨c, rest, rfl, h⟩
    exact .one c hmore h

/-- An expression for a single character takes one with the same folding. -/
theorem matchesRest_literalExpression {d : Char} (hmore : ¬Repeats more) :
    MatchesRest (literalExpression d ++ more) text ↔
      ∃ c rest, text = c :: rest ∧ sameFolded d c ∧ MatchesRest more rest := by
  constructor
  · unfold literalExpression
    split
    · intro h
      cases h with
      | escaped _ _ hc h => exact ⟨_, _, rfl, hc, h⟩
      | plain hd => exact absurd (by decide) hd
    · next hd =>
      -- every other way to begin takes a character with a meaning of its own
      intro h
      cases h with
      | plain _ _ hc h => exact ⟨_, _, rfl, hc, h⟩
      | finish | run | one | escaped => exact absurd (by decide) hd
  · rintro ⟨c, rest, rfl, hc, h⟩
    unfold literalExpression
    split
    · next hd => exact .escaped hd hmore hc h
    · next hd => exact .plain hd hmore hc h

end Expression

open Expression in
/-- The general matcher does what the expression of the pattern says. -/
theorem matchesGlobs_iff_expression {pattern text : List Char} :
    matchesGlobs (globs pattern) text ↔ Expression.Matches (expression pattern) text := by
  have hbody : matchesGlobs (globs pattern) text ↔
      MatchesRest (unanchored pattern ++ ['$']) text := by
    -- on the pattern: both sides read it piece by piece
    fun_induction globs pattern generalizing text with
    | case1 =>
      rw [matchesGlobs_nil]
      exact matchesRest_finish.symm
    | case2 c cs ih =>
      rw [matchesGlobs_char, unanchored, List.append_assoc,
        matchesRest_literalExpression (not_repeats_unanchored cs)]
      simp only [ih]
    | case3 cs ih =>
      rw [matchesGlobs_any, unanchored, List.cons_append, List.cons_append,
        matchesRest_run (not_repeats_unanchored cs)]
      simp only [ih]
    | case4 cs ih =>
      rw [matchesGlobs_one, unanchored, List.cons_append,
        matchesRest_one (not_repeats_unanchored cs)]
      simp only [ih]
    | case5 c cs hbackslash hpercent hunderscore ih =>
      rw [matchesGlobs_char, unanchored, List.append_assoc,
        matchesRest_literalExpression (not_repeats_unanchored cs)]
      · simp only [ih]
      all_goals assumption
  rw [hbody]
  constructor
  · intro h
    exact ⟨_, rfl, h⟩
  · rintro ⟨_, ⟨⟩, h⟩
    exact h

/-! ## Patterns of ASCII characters -/

/-- The texts that a pattern stands for: a percent sign takes any run of characters, an underscore
any one, a backslash and the character behind it take this character, a backslash at the end itself,
and any other character takes itself, in either case. -/
inductive Fits : List Char → List Char → Prop
  | nil : Fits [] []
  | run (taken : List Char) {pattern text : List Char} (h : Fits pattern text) :
      Fits ('%' :: pattern) (taken ++ text)
  | one (c : Char) {pattern text : List Char} (h : Fits pattern text) :
      Fits ('_' :: pattern) (c :: text)
  | escaped {d c : Char} {pattern text : List Char} (hc : d.toLower = c.toLower)
      (h : Fits pattern text) : Fits ('\\' :: d :: pattern) (c :: text)
  | lone : Fits ['\\'] ['\\']
  | plain {d c : Char} {pattern text : List Char} (hd : d ∉ ['%', '_', '\\'])
      (hc : d.toLower = c.toLower) (h : Fits pattern text) : Fits (d :: pattern) (c :: text)

/-- Only ASCII characters. -/
def IsAscii (cs : List Char) : Prop := ∀ c ∈ cs, c.toNat < 128

instance (cs : List Char) : Decidable (IsAscii cs) := List.decidableBAll _ cs

theorem isAscii_cons {c : Char} {cs : List Char} : IsAscii (c :: cs) ↔ c.toNat < 128 ∧ IsAscii cs :=
  List.forall_mem_cons

theorem isAscii_append {cs ds : List Char} : IsAscii (cs ++ ds) ↔ IsAscii cs ∧ IsAscii ds :=
  List.forall_mem_append

theorem sameFolded_iff_of_ascii {d c : Char} (hd : d.toNat < 128) (hc : c.toNat < 128) :
    sameFolded d c ↔ d.toLower = c.toLower := by
  rw [sameFolded_of_ascii hd hc, beq_iff_eq]

theorem eq_backslash {c : Char} (hc : c.toNat < 128) (h : '\\'.toLower = c.toLower) : c = '\\' := by
  revert h
  exact forall_ascii (P := fun c => '\\'.toLower = c.toLower → c = '\\') (by decide) hc

section ascii
variable {pattern text : List Char}

/-- What a plain pattern stands for is matched by it. -/
theorem Fits.matchesGlobs (h : Fits pattern text) (hpattern : IsAscii pattern)
    (htext : IsAscii text) : matchesGlobs (globs pattern) text := by
  induction h with
  | nil => exact matchesGlobs_nil.mpr rfl
  | run taken _ ih =>
    have hrest := ih (isAscii_cons.mp hpattern).2 (isAscii_append.mp htext).2
    exact matchesGlobs_any.mpr ⟨taken, _, rfl, hrest⟩
  | one c _ ih =>
    have hrest := ih (isAscii_cons.mp hpattern).2 (isAscii_cons.mp htext).2
    exact matchesGlobs_one.mpr ⟨c, _, rfl, hrest⟩
  | escaped hc _ ih =>
    simp only [isAscii_cons] at hpattern htext
    have hrest := ih hpattern.2.2 htext.2
    have hsame := (sameFolded_iff_of_ascii hpattern.2.1 htext.1).mpr hc
    exact matchesGlobs_char.mpr ⟨_, _, rfl, hsame, hrest⟩
  | lone => decide
  | plain hd hc _ ih =>
    rw [isAscii_cons] at hpattern htext
    have hrest := ih hpattern.2 htext.2
    have hsame := (sameFolded_iff_of_ascii hpattern.1 htext.1).mpr hc
    rw [globs_cons hd]
    exact matchesGlobs_char.mpr ⟨_, _, rfl, hsame, hrest⟩

/-- What a plain pattern matches is what it stands for. -/
theorem fits_of_matchesGlobs (hpattern : IsAscii pattern) (htext : IsAscii text)
    (h : matchesGlobs (globs pattern) text) : Fits pattern text := by
  -- on the pattern, as it is cut into pieces
  fun_induction globs pattern generalizing text with
  | case1 =>
    obtain rfl := matchesGlobs_nil.mp h
    exact .nil
  | case2 d cs ih =>
    rcases matchesGlobs_char.mp h with ⟨c, rest, rfl, hc, hrest⟩
    simp only [isAscii_cons] at hpattern htext
    have hsame := (sameFolded_iff_of_ascii hpattern.2.1 htext.1).mp hc
    exact .escaped hsame (ih hpattern.2.2 htext.2 hrest)
  | case3 cs ih =>
    rcases matchesGlobs_any.mp h with ⟨taken, rest, rfl, hrest⟩
    exact .run taken (ih (isAscii_cons.mp hpattern).2 (isAscii_append.mp htext).2 hrest)
  | case4 cs ih =>
    rcases matchesGlobs_one.mp h with ⟨c, rest, rfl, hrest⟩
    exact .one c (ih (isAscii_cons.mp hpattern).2 (isAscii_cons.mp htext).2 hrest)
  | case5 d cs hbackslash hpercent hunderscore ih =>
    rcases matchesGlobs_char.mp h with ⟨c, rest, rfl, hc, hrest⟩
    rw [isAscii_cons] at hpattern htext
    by_cases hd : d = '\\'
    · -- a backslash with nothing behind it
      subst hd
      cases cs with
      | cons e cs => exact absurd rfl (hbackslash e cs rfl)
      | nil =>
        obtain rfl := matchesGlobs_nil.mp hrest
        have hsame := (sameFolded_iff_of_ascii hpattern.1 htext.1).mp hc
        obtain rfl := eq_backslash htext.1 hsame
        exact .lone
    · have hplain : d ∉ ['%', '_', '\\'] := by
        simp only [List.mem_cons, List.not_mem_nil, or_false, not_or]
        exact ⟨hpercent, hunderscore, hd⟩
      have hsame := (sameFolded_iff_of_ascii hpattern.1 htext.1).mp hc
      exact .plain hplain hsame (ih hpattern.2 htext.2 hrest)

/-- Between ASCII texts, the general matcher does what the pattern says. -/
theorem matchesGlobs_iff_fits (hpattern : IsAscii pattern) (htext : IsAscii text) :
    matchesGlobs (globs pattern) text ↔ Fits pattern text :=
  ⟨fits_of_matchesGlobs hpattern htext, fun h => h.matchesGlobs hpattern htext⟩

end ascii

end CrmEmulator.Like
