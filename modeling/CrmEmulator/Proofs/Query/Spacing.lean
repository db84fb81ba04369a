import CrmEmulator.Proofs.Query.Quoting
import CrmEmulator.Proofs.Text.LetterCase
import CrmEmulator.Proofs.Text.Numeral
import CrmEmulator.Query.Condition

/-!
# CrmEmulator.Proofs.Query.Spacing — the texts that spell out a list of tokens

1. `Spells cs t`: the characters of a single token.  A string may be written with any escapes.
2. `Spaced tokens cs`: tokens one after another with white space between them, which may be left
   out where a token does not run into the next one.  Such a text scans to its tokens:
   `Spaced.scan`.
3. `layout` writes tokens in their plainest form with given white space before each.  Tokens that
   can be spelled one by one can be spelled together: `exists_spaced`.
-/

namespace CrmEmulator

namespace Token

/-! ## Single tokens -/

/-- What stands between the quotes of a literal, and what it stands for: quotes and backslashes are
escaped, and any other character may be. -/
inductive Escapes : List Char → List Char → Prop
  | nil : Escapes [] []
  | plain {c : Char} {body cs : List Char} (hquote : c ≠ '\'') (hbackslash : c ≠ '\\')
      (h : Escapes body cs) : Escapes (c :: body) (c :: cs)
  | escaped {c : Char} {body cs : List Char} (h : Escapes body cs) :
      Escapes ('\\' :: c :: body) (unescape c ++ cs)

/-- A text with backslashes escapes the text. -/
theorem escapes_escape (cs : List Char) : Escapes (escape cs) cs := by
  induction cs with
  | nil => exact .nil
  | cons c cs ih =>
    rw [escape, List.flatMap_cons]
    split
    · next hc =>
      rcases hc with rfl | rfl <;> exact .escaped ih
    · next hc =>
      rw [not_or] at hc
      exact .plain hc.2 hc.1 ih

/-- An escaped text is read up to its quote. -/
theorem Escapes.quoted? {body cs : List Char} (h : Escapes body cs) (rest : List Char) :
    quoted? (body ++ '\'' :: rest) = some (cs, rest) := by
  induction h with
  | nil => rfl
  | plain hquote hbackslash _ ih => simp [Token.quoted?, ih, hbackslash]
  | escaped _ ih => simp [Token.quoted?, ih]

/-- The symbols of operators. -/
def operators : List String := ["=", "!=", "<>", "<", "<=", ">", ">="]

/-- The characters of a token. -/
inductive Spells : List Char → Token → Prop
  | word {c : Char} {cs : List Char} (h : ∀ e ∈ c :: cs, isWordChar e) :
      Spells (c :: cs) (word (String.ofList (c :: cs)))
  | str {body cs : List Char} (h : Escapes body cs) :
      Spells ('\'' :: body ++ ['\'']) (str (String.ofList cs))
  | comma : Spells [','] comma
  | lparen : Spells ['('] lparen
  | rparen : Spells [')'] rparen
  | star : Spells ['*'] star
  | op {symbol : String} (h : symbol ∈ operators) : Spells symbol.toList (op symbol)

/-- Could a character right after the token become part of it? -/
def joins : Token → Char → Bool
  | word _, c => isWordChar c
  | op _, c => c == '=' || c == '>'
  | _, _ => false

/-- White space joins no token. -/
theorem joins_of_isBlank (t : Token) {c : Char} (h : isBlank c) : t.joins c = false := by
  cases t with
  | word => simp [joins, isWordChar, h]
  | op =>
    have hequal : c ≠ '=' := by
      rintro rfl
      cases h
    have hgreater : c ≠ '>' := by
      rintro rfl
      cases h
    simp [joins, hequal, hgreater]
  | _ => rfl

/-- A word is scanned up to the first character that is not part of one. -/
theorem next_word {c : Char} (hc : isWordChar c) (cs : List Char) :
    next 0 (c :: cs) =
      .ok (word (String.ofList (c :: cs.takeWhile isWordChar)), cs.dropWhile isWordChar) := by
  unfold next
  split
  case h_1 heq => cases heq
  case h_15 heq =>
    cases heq
    rw [if_neg]
    rintro (rfl | rfl) <;> exact absurd hc (by decide)
  -- the characters that begin other tokens are not those of a word
  all_goals
    rename_i heq
    cases heq
    exact absurd hc (by decide)

/-- What ends before a character that does not belong to it is taken as a whole. -/
theorem takeWhile_apart {cs rest : List Char} {p : Char → Bool} (hcs : ∀ c ∈ cs, p c)
    (hrest : ∀ c ∈ rest.head?, p c = false) : (cs ++ rest).takeWhile p = cs := by
  rw [List.takeWhile_append_of_pos hcs]
  cases rest with
  | nil => simp
  | cons c rest => simp [hrest c rfl]

/-- What does not belong to a token is left as a whole. -/
theorem dropWhile_apart {cs rest : List Char} {p : Char → Bool} (hcs : ∀ c ∈ cs, p c)
    (hrest : ∀ c ∈ rest.head?, p c = false) : (cs ++ rest).dropWhile p = rest := by
  rw [List.dropWhile_append_of_pos hcs]
  cases rest with
  | nil => rfl
  | cons c rest => simp [hrest c rfl]

/-- An operator ends before a character that makes no longer operator out of it. -/
theorem next_op {symbol : String} (h : symbol ∈ operators) {rest : List Char}
    (hrest : ∀ c ∈ rest.head?, (op symbol).joins c = false) :
    next 0 (symbol.toList ++ rest) = .ok (op symbol, rest) := by
  simp only [operators, List.mem_cons, List.not_mem_nil, or_false] at h
  rcases h with rfl | rfl | rfl | rfl | rfl | rfl | rfl
  -- only `<` and `>` look at the character after them
  case inr.inr.inr.inl | inr.inr.inr.inr.inr.inl =>
    cases rest with
    | nil => rfl
    | cons c rest =>
      have hc := hrest c rfl
      simp only [joins, Bool.or_eq_false_iff, beq_eq_false_iff_ne] at hc
      simp [next, hc]
  all_goals rfl

/-- A token is read back when what follows does not join it. -/
theorem Spells.next {cs rest : List Char} {t : Token} (h : Spells cs t)
    (hrest : ∀ c ∈ rest.head?, t.joins c = false) : next 0 (cs ++ rest) = .ok (t, rest) := by
  cases h with
  | word hword =>
    -- the word is all that was taken, since what follows is no part of a word
    rename_i c cs
    rw [List.forall_mem_cons] at hword
    rw [List.cons_append, next_word hword.1, takeWhile_apart hword.2 hrest,
      dropWhile_apart hword.2 hrest]
  | str hbody => simp [Token.next, hbody.quoted?]
  | op hsymbol => exact next_op hsymbol hrest
  | _ => rfl

/-- A spelling begins with a character that is not white space. -/
theorem Spells.eq_cons {cs : List Char} {t : Token} (h : Spells cs t) :
    ∃ c es, cs = c :: es ∧ ¬ isBlank c := by
  cases h with
  | word hword =>
    rename_i c cs
    have hc := hword c List.mem_cons_self
    simp only [isWordChar, Bool.and_eq_true, Bool.not_eq_true'] at hc
    exact ⟨c, cs, rfl, by simp [hc.1]⟩
  | op hsymbol =>
    simp only [operators, List.mem_cons, List.not_mem_nil, or_false] at hsymbol
    rcases hsymbol with rfl | rfl | rfl | rfl | rfl | rfl | rfl <;> exact ⟨_, _, rfl, by decide⟩
  | _ => exact ⟨_, _, rfl, by decide⟩

/-! ## Tokens that can be spelled -/

/-- No range of letters and numbers meets white space. -/
theorem alphanumericRanges_apart :
    ∀ r ∈ alphanumericRanges, ∀ s ∈ blankRanges, r.2 < s.1 ∨ s.2 < r.1 := by
  decide +kernel

theorem isWordChar_of_isAlphanum {c : Char} (hascii : c.toNat < 128) (h : c.isAlphanum) :
    isWordChar c := by
  have hall : ∀ n < 128, (Char.ofNat n).isAlphanum → isWordChar (Char.ofNat n) := by decide
  exact forall_ascii (P := fun c => c.isAlphanum → isWordChar c) hall hascii h

theorem isWordChar_of_isDigit {c : Char} (h : c.isDigit) : isWordChar c :=
  isWordChar_of_isAlphanum (ascii_of_isDigit h) (by simp [Char.isAlphanum, h])

/-- Letters and digits of other alphabets are parts of words, too. -/
theorem isWordChar_of_isAlphanumeric {c : Char} (h : isAlphanumeric c) : isWordChar c := by
  unfold isAlphanumeric at h
  split at h
  · next hascii => exact isWordChar_of_isAlphanum hascii h
  · next hascii =>
    simp only [inRanges, List.any_eq_true, Bool.and_eq_true, decide_eq_true_eq] at h
    rcases h with ⟨r, hr, hfirst, hlast⟩
    have hblank : isBlank c = false := by
      rw [isBlank, inRanges, List.any_eq_false]
      intro s hs
      have := alphanumericRanges_apart r hr s hs
      simp only [Bool.and_eq_true, decide_eq_true_eq]
      omega
    -- and all delimiters are ASCII
    have hdelimiter : c ∉ delimiters := by
      have hall : delimiters.all fun d => d.toNat < 128 := by decide
      exact fun hc => hascii (of_decide_eq_true (List.all_eq_true.mp hall c hc))
    simp [isWordChar, hblank, hdelimiter]

/-- All characters of a name are. -/
theorem isWordChar_of_isName {text : String} (h : isName text) :
    ∀ c ∈ text.toList, isWordChar c := by
  simp only [isName, Bool.and_eq_true, List.all_eq_true, Bool.or_eq_true, beq_iff_eq] at h
  intro c hc
  rcases h.2 c hc with (halpha | rfl) | rfl
  · exact isWordChar_of_isAlphanumeric halpha
  all_goals decide

/-- The plainest text of a token. -/
def text : Token → List Char
  | word text => text.toList
  | str text => quote text.toList
  | braced text => '\x7b' :: text.toList ++ ['\x7d']
  | comma => [',']
  | lparen => ['(']
  | rparen => [')']
  | star => ['*']
  | op symbol => symbol.toList

/-- Is the token one of those that `Spells` gives a text to?  Search terms are not. -/
def spellable : Token → Bool
  | word text => !text.toList.isEmpty && text.toList.all isWordChar
  | op symbol => operators.contains symbol
  | braced _ => false
  | _ => true

/-- The plainest text of a token spells it. -/
theorem spells_text {t : Token} (h : t.spellable) : Spells t.text t := by
  cases t with
  | word text =>
    simp only [spellable, Bool.and_eq_true, Bool.not_eq_true', List.all_eq_true] at h
    rcases List.exists_cons_of_ne_nil (List.isEmpty_eq_false_iff.mp h.1) with ⟨c, cs, htext⟩
    have hspells : Spells (c :: cs) (word (String.ofList (c :: cs))) := .word (htext ▸ h.2)
    rwa [← htext, String.ofList_toList] at hspells
  | str text =>
    have hspells := Spells.str (escapes_escape text.toList)
    rwa [String.ofList_toList] at hspells
  | op symbol => exact .op (List.contains_iff_mem.mp h)
  | braced => cases h
  | comma => exact .comma
  | lparen => exact .lparen
  | rparen => exact .rparen
  | star => exact .star

theorem spellable_word {text : String} (hne : text.toList ≠ [])
    (h : ∀ c ∈ text.toList, isWordChar c) : (word text).spellable := by
  simp only [spellable, Bool.and_eq_true, Bool.not_eq_true', List.all_eq_true]
  exact ⟨List.isEmpty_eq_false_iff.mpr hne, h⟩

theorem spellable_name {text : String} (h : isName text) : (word text).spellable := by
  refine spellable_word ?_ (isWordChar_of_isName h)
  rintro hnil
  simp [isName, hnil] at h

theorem spellable_count (n : Nat) : (word (toString n)).spellable := by
  refine spellable_word (by simp) fun c hc => ?_
  exact isWordChar_of_isDigit (Numeral.isDigit_of_mem_toString hc)

/-- An integer can be spelled. -/
theorem spellable_integer (n : Int64) : (word (Value.int64Text n)).spellable := by
  rcases Numeral.exists_isDigit_repr n.toInt with ⟨c, hc, -⟩
  refine spellable_word (List.ne_nil_of_mem hc) fun c hc => ?_
  rcases Numeral.sign_or_isDigit_of_mem_repr hc with rfl | hdigit
  · decide
  · exact isWordChar_of_isDigit hdigit

/-! ## Lists of tokens -/

/-- A text of a list of tokens: white space before every token and at the end, which may be empty
where the token before it is not joined by what follows. -/
inductive Spaced : List Token → List Char → Prop
  | nil {gap : List Char} (hgap : ∀ c ∈ gap, isBlank c) : Spaced [] gap
  | cons {t : Token} {tokens : List Token} {gap cs rest : List Char} (hgap : ∀ c ∈ gap, isBlank c)
      (hcs : Spells cs t) (hrest : Spaced tokens rest)
      (hapart : ∀ c ∈ rest.head?, t.joins c = false) : Spaced (t :: tokens) (gap ++ cs ++ rest)

/-- White space before tokens is passed over. -/
theorem Scans.gap {gap cs : List Char} {tokens : List Token} (hgap : ∀ c ∈ gap, isBlank c)
    (h : Scans cs tokens) : Scans (gap ++ cs) tokens := by
  induction gap with
  | nil => exact h
  | cons c gap ih =>
    rw [List.forall_mem_cons] at hgap
    exact .blank hgap.1 (ih hgap.2)

/-- Tokens with white space between them are scanned. -/
theorem Spaced.scans {tokens : List Token} {cs : List Char} (h : Spaced tokens cs) :
    Scans cs tokens := by
  induction h with
  | nil hgap => simpa using Scans.nil.gap hgap
  | cons hgap hcs _ hapart ih =>
    have hnext := hcs.next hapart
    rcases hcs.eq_cons with ⟨c, es, rfl, hc⟩
    rw [List.append_assoc]
    exact Scans.gap hgap (.token hc hnext ih)

theorem Spaced.scan {tokens : List Token} {cs : List Char} (h : Spaced tokens cs) :
    scan cs = .ok tokens :=
  scan_eq_ok.mpr h.scans

/-- A text of tokens is more than white space. -/
theorem Spaced.not_blank {tokens : List Token} {cs : List Char} (h : Spaced tokens cs)
    (htokens : tokens ≠ []) : cs.all isBlank = false := by
  cases h with
  | nil => exact absurd rfl htokens
  | cons _ hcs =>
    rcases hcs.eq_cons with ⟨c, es, rfl, hc⟩
    simp [hc]

/-- The plainest texts of tokens, each after some white space. -/
def layout (ending : List Char) : List (List Char × Token) → List Char
  | [] => ending
  | (gap, t) :: pieces => gap ++ t.text ++ layout ending pieces

/-- Is there only white space between the tokens of a layout, and enough of it? -/
def apart (ending : List Char) : List (List Char × Token) → Bool
  | [] => ending.all isBlank
  | (gap, t) :: pieces =>
    gap.all isBlank && t.spellable && !(layout ending pieces).head?.any t.joins &&
      apart ending pieces

/-- A layout writes its tokens with white space between them. -/
theorem spaced_layout {ending : List Char} {pieces : List (List Char × Token)}
    (h : apart ending pieces) : Spaced (pieces.map Prod.snd) (layout ending pieces) := by
  induction pieces with
  | nil => exact .nil (List.all_eq_true.mp h)
  | cons piece pieces ih =>
    rcases piece with ⟨gap, t⟩
    simp only [apart, Bool.and_eq_true, Bool.not_eq_true', List.all_eq_true] at h
    rcases h with ⟨⟨⟨hgap, ht⟩, hnext⟩, hpieces⟩
    refine .cons hgap (spells_text ht) (ih hpieces) fun c hc => ?_
    rw [Option.mem_def.mp hc, Option.any_some] at hnext
    exact hnext

/-- Tokens that can be spelled have a text. -/
theorem exists_spaced {tokens : List Token} (h : ∀ t ∈ tokens, t.spellable) :
    ∃ cs, Spaced tokens cs := by
  -- a blank before every token keeps them all apart
  have hapart : apart [] (tokens.map fun t => ([' '], t)) := by
    induction tokens with
    | nil => rfl
    | cons t tokens ih =>
      rw [List.forall_mem_cons] at h
      have hnext : (layout [] (tokens.map fun t => ([' '], t))).head?.any t.joins = false := by
        cases tokens with
        | nil => rfl
        | cons => exact joins_of_isBlank t (by decide)
      have hblank : [' '].all isBlank := by decide
      simp [apart, h.1, hnext, ih h.2, hblank]
  have hspaced := spaced_layout hapart
  rw [List.map_map, show Prod.snd ∘ (fun t => ([' '], t)) = id from rfl, List.map_id] at hspaced
  exact ⟨_, hspaced⟩

end Token

end CrmEmulator
