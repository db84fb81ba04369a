import CrmEmulator.Proofs.Query.Spacing
import CrmEmulator.Saql.Token

/-!
# CrmEmulator.Proofs.Saql.Spacing — the texts that spell out tokens of the analytics language

1. `Spells cs t`: the characters of a single token, and `Spells.next`, by which it is read back
   when the character after it does not join it.
2. `Spaced tokens cs`: tokens one after another with white space between them, which may be left
   out where a token does not run into the next one.  Such a text scans to its tokens:
   `Spaced.scan`.
3. `spaced_layout` and `exists_spaced`: tokens that can be spelled one by one can be spelled
   together.
-/

namespace CrmEmulator.Saql

namespace Token

/-! ## Between quotes -/

/-- What stands between quotes, and what it stands for: the quote and the backslash are escaped,
and any other character may be. -/
inductive Escapes (quote : Char) : List Char → List Char → Prop
  | nil : Escapes quote [] []
  | plain {c : Char} {body cs : List Char} (hquote : c ≠ quote) (hbackslash : c ≠ '\\')
      (h : Escapes quote body cs) : Escapes quote (c :: body) (c :: cs)
  | escaped (c : Char) {body cs : List Char} (h : Escapes quote body cs) :
      Escapes quote ('\\' :: c :: body) (c :: cs)

/-- A quote ends a quoted text. -/
theorem quoted?_close {quote : Char} (hquote : quote ≠ '\\') (rest : List Char) :
    quoted? quote (quote :: rest) = some ([], rest) := by
  cases rest with
  | nil => simp [quoted?]
  | cons c rest => simp [quoted?, hquote]

/-- A character that is neither the quote nor a backslash stands for itself. -/
theorem quoted?_plain {quote c : Char} (hquote : c ≠ quote) (hbackslash : c ≠ '\\')
    (rest : List Char) :
    quoted? quote (c :: rest) = (quoted? quote rest).map fun (text, rest) => (c :: text, rest) := by
  cases rest with
  | nil => simp [quoted?, hquote]
  | cons d rest => simp [quoted?, hquote, hbackslash]

/-- An escaped text is read up to its quote. -/
theorem Escapes.quoted? {quote : Char} {body cs : List Char} (h : Escapes quote body cs)
    (hquote : quote ≠ '\\') (rest : List Char) :
    quoted? quote (body ++ quote :: rest) = some (cs, rest) := by
  induction h with
  | nil => exact quoted?_close hquote rest
  | plain hc hbackslash _ ih => rw [List.cons_append, quoted?_plain hc hbackslash, ih, Option.map_some]
  | escaped c _ ih => simp [Token.quoted?, ih]

/-- A text with a backslash before every backslash and every quote. -/
def escape (quote : Char) (cs : List Char) : List Char :=
  cs.flatMap fun c => if c = '\\' ∨ c = quote then ['\\', c] else [c]

/-- A text with backslashes escapes the text. -/
theorem escapes_escape (quote : Char) (cs : List Char) : Escapes quote (escape quote cs) cs := by
  induction cs with
  | nil => exact .nil
  | cons c cs ih =>
    rw [escape, List.flatMap_cons]
    split
    · exact .escaped c ih
    · next hc =>
      rw [not_or] at hc
      exact .plain hc.2 hc.1 ih

/-! ## Single tokens -/

/-- The symbols of operators. -/
def symbols : List String := ["==", "!=", "<", "<=", ">", ">="]

/-- The characters of a token. -/
inductive Spells : List Char → Token → Prop
  | name {c : Char} {cs : List Char} (hbegin : ¬ c.isDigit) (h : ∀ e ∈ c :: cs, isNameChar e) :
      Spells (c :: cs) (name (String.ofList (c :: cs)))
  | number {c : Char} {cs : List Char} (hbegin : atNumber (c :: cs))
      (h : ∀ e ∈ cs, isNumberChar e) : Spells (c :: cs) (number (String.ofList (c :: cs)))
  | field {body cs : List Char} (h : Escapes '\'' body cs) :
      Spells ('\'' :: body ++ ['\'']) (field (String.ofList cs))
  | str {body cs : List Char} (h : Escapes '"' body cs) :
      Spells ('"' :: body ++ ['"']) (str (String.ofList cs))
  | op {symbol : String} (h : symbol ∈ symbols) : Spells symbol.toList (op symbol)
  | assign : Spells ['='] assign
  | semicolon : Spells [';'] semicolon
  | comma : Spells [','] comma
  | lparen : Spells ['('] lparen
  | rparen : Spells [')'] rparen
  | and : Spells ['&', '&'] and

/-- Could a character right after the token become part of it? -/
def joins : Token → Char → Bool
  | name _, c => isNameChar c
  | number _, c => isNumberChar c
  | op _, c | assign, c => c == '='
  | _, _ => false

/-- The characters of names are not white space. -/
theorem not_isBlank_of_isNameChar {c : Char} (h : isNameChar c) : isBlank c = false := by
  have hword : CrmEmulator.Token.isWordChar c := by
    simp only [isNameChar, Bool.or_eq_true, beq_iff_eq] at h
    rcases h with halpha | rfl
    · exact CrmEmulator.Token.isWordChar_of_isAlphanumeric halpha
    · decide
  simp only [CrmEmulator.Token.isWordChar, Bool.and_eq_true, Bool.not_eq_true'] at hword
  exact hword.1

theorem isNameChar_of_isDigit {c : Char} (h : c.isDigit) : isNameChar c := by
  have hall : ∀ n < 128, (Char.ofNat n).isDigit → isNameChar (Char.ofNat n) := by decide
  exact forall_ascii (P := fun c => c.isDigit → isNameChar c) hall (ascii_of_isDigit h) h

/-- White space joins no token. -/
theorem joins_of_isBlank (t : Token) {c : Char} (h : isBlank c) : t.joins c = false := by
  -- what joins a token is a character of names, a point, or an equals sign
  have hname : isNameChar c = false := by
    cases hc : isNameChar c with
    | false => rfl
    | true => exact absurd h (by simp [not_isBlank_of_isNameChar hc])
  have hequal : c ≠ '=' := by
    rintro rfl
    cases h
  cases t with
  | name => exact hname
  | number =>
    have hpoint : c ≠ '.' := by
      rintro rfl
      cases h
    have hdigit : c.isDigit = false := by
      cases hc : c.isDigit with
      | false => rfl
      | true => exact absurd (isNameChar_of_isDigit hc) (by simp [hname])
    simp [joins, isNumberChar, hdigit, hpoint]
  | op | assign => simp [joins, hequal]
  | _ => rfl

/-- The characters that begin tokens other than names and numbers. -/
def openers : List Char := ";,()'\"&=!<>".toList

/-- A character that opens nothing else begins a number or a name, or is refused. -/
theorem next_plain {c : Char} (hc : c ∉ openers) (position : Nat) (cs : List Char) :
    next position (c :: cs) =
      if atNumber (c :: cs) then
        .ok (number (String.ofList (c :: cs.takeWhile isNumberChar)), cs.dropWhile isNumberChar)
      else if isNameChar c then
        .ok (name (String.ofList (c :: cs.takeWhile isNameChar)), cs.dropWhile isNameChar)
      else .error (.unexpectedCharacter c position) := by
  unfold next
  split
  case h_1 heq => cases heq
  case h_16 heq =>
    cases heq
    rfl
  all_goals
    rename_i heq
    cases heq
    exact absurd (by decide) hc

/-- Without a sign, a number begins with a digit. -/
theorem atNumber_cons {c : Char} (hc : c ≠ '-') (cs : List Char) :
    atNumber (c :: cs) = c.isDigit := by
  unfold atNumber
  split
  · next heq =>
    cases heq
    exact absurd rfl hc
  · next heq =>
    cases heq
    rfl
  · next heq => cases heq

/-- A number still begins where more text follows it. -/
theorem atNumber_append {cs : List Char} (h : atNumber cs) (rest : List Char) :
    atNumber (cs ++ rest) := by
  cases cs with
  | nil => cases h
  | cons c cs =>
    by_cases hc : c = '-'
    · subst hc
      cases cs with
      | nil => cases h
      | cons d cs => exact h
    · rw [atNumber_cons hc] at h
      rw [List.cons_append, atNumber_cons hc, h]

/-- A number begins with no opening character. -/
theorem not_opener_of_atNumber {c : Char} {cs : List Char} (h : atNumber (c :: cs)) :
    c ∉ openers := by
  have hopeners : openers.all fun d => !d.isDigit && d != '-' := by decide
  intro hc
  have hopener := List.all_eq_true.mp hopeners c hc
  simp only [Bool.and_eq_true, Bool.not_eq_true', bne_iff_ne] at hopener
  rw [atNumber_cons hopener.2, hopener.1] at h
  cases h

/-- A name begins with no opening character and with no sign. -/
theorem not_opener_of_isNameChar {c : Char} (h : isNameChar c) : c ∉ openers ∧ c ≠ '-' := by
  have hopeners : openers.all fun d => !isNameChar d := by decide +kernel
  constructor
  · intro hc
    have hopener := List.all_eq_true.mp hopeners c hc
    rw [h] at hopener
    cases hopener
  · rintro rfl
    cases h

/-- An operator ends before a character that makes no longer operator out of it. -/
theorem next_op {symbol : String} (h : symbol ∈ symbols) (position : Nat) {rest : List Char}
    (hrest : ∀ c ∈ rest.head?, (op symbol).joins c = false) :
    next position (symbol.toList ++ rest) = .ok (op symbol, rest) := by
  simp only [symbols, List.mem_cons, List.not_mem_nil, or_false] at h
  rcases h with rfl | rfl | rfl | rfl | rfl | rfl
  -- only `<` and `>` look at the character after them
  case inr.inr.inl | inr.inr.inr.inr.inl =>
    cases rest with
    | nil => rfl
    | cons c rest =>
      have hc := hrest c rfl
      simp only [joins, beq_eq_false_iff_ne] at hc
      simp [next, hc]
  all_goals rfl

/-- A token is read back when what follows does not join it. -/
theorem Spells.next {cs rest : List Char} {t : Token} (h : Spells cs t) (position : Nat)
    (hrest : ∀ c ∈ rest.head?, t.joins c = false) : next position (cs ++ rest) = .ok (t, rest) := by
  cases h with
  | name hbegin hname =>
    rename_i c cs
    rw [List.forall_mem_cons] at hname
    rcases not_opener_of_isNameChar hname.1 with ⟨hopener, hminus⟩
    -- a name that began like a number would be scanned as one
    have hnumber : ¬ atNumber (c :: (cs ++ rest)) := by rwa [atNumber_cons hminus]
    rw [List.cons_append, next_plain hopener, if_neg hnumber, if_pos hname.1,
      CrmEmulator.Token.takeWhile_apart hname.2 hrest,
      CrmEmulator.Token.dropWhile_apart hname.2 hrest]
  | number hbegin hnumber =>
    rename_i c cs
    have hopener := not_opener_of_atNumber hbegin
    have hlonger : atNumber (c :: (cs ++ rest)) := atNumber_append hbegin rest
    rw [List.cons_append, next_plain hopener, if_pos hlonger,
      CrmEmulator.Token.takeWhile_apart hnumber hrest,
      CrmEmulator.Token.dropWhile_apart hnumber hrest]
  | field hbody => simp [Token.next, hbody.quoted?]
  | str hbody => simp [Token.next, hbody.quoted?]
  | op hsymbol => exact next_op hsymbol position hrest
  | assign =>
    -- a second sign behind the first would make another operator
    cases rest with
    | nil => rfl
    | cons c rest =>
      have hc := hrest c rfl
      simp only [joins, beq_eq_false_iff_ne] at hc
      simp [Token.next, hc]
  | _ => rfl

/-- A spelling begins with a character that is not white space. -/
theorem Spells.eq_cons {cs : List Char} {t : Token} (h : Spells cs t) :
    ∃ c es, cs = c :: es ∧ isBlank c = false := by
  cases h with
  | name _ hname => exact ⟨_, _, rfl, not_isBlank_of_isNameChar (hname _ List.mem_cons_self)⟩
  | number hbegin hnumber =>
    rename_i c cs
    refine ⟨c, cs, rfl, ?_⟩
    by_cases hc : c = '-'
    · subst hc
      decide
    · rw [atNumber_cons hc] at hbegin
      exact not_isBlank_of_isNameChar (isNameChar_of_isDigit hbegin)
  | op hsymbol =>
    simp only [symbols, List.mem_cons, List.not_mem_nil, or_false] at hsymbol
    rcases hsymbol with rfl | rfl | rfl | rfl | rfl | rfl <;> exact ⟨_, _, rfl, by decide⟩
  | _ => exact ⟨_, _, rfl, by decide⟩

/-! ## Tokens that can be spelled -/

/-- Letters, numbers and underscores, of which the first is no digit. -/
def isName : List Char → Bool
  | [] => false
  | c :: cs => !c.isDigit && (c :: cs).all isNameChar

/-- Digits and points, with a minus sign or without. -/
def isNumber : List Char → Bool
  | [] => false
  | c :: cs => atNumber (c :: cs) && cs.all isNumberChar

/-- The plainest text of a token. -/
def text : Token → List Char
  | name text | number text => text.toList
  | field text => '\'' :: escape '\'' text.toList ++ ['\'']
  | str text => '"' :: escape '"' text.toList ++ ['"']
  | op symbol => symbol.toList
  | assign => ['=']
  | semicolon => [';']
  | comma => [',']
  | lparen => ['(']
  | rparen => [')']
  | and => ['&', '&']

/-- Is the token one of those that `Spells` gives a text to? -/
def spellable : Token → Bool
  | name text => isName text.toList
  | number text => isNumber text.toList
  | op symbol => symbols.contains symbol
  | _ => true

/-- The plainest text of a token spells it. -/
theorem spells_text {t : Token} (h : t.spellable) : Spells t.text t := by
  cases t with
  | name text =>
    have hne : text.toList ≠ [] := by
      intro hnil
      simp [spellable, hnil, isName] at h
    rcases List.exists_cons_of_ne_nil hne with ⟨c, cs, htext⟩
    simp only [spellable, htext, isName, Bool.and_eq_true, Bool.not_eq_true', List.all_eq_true] at h
    have hspells : Spells (c :: cs) (name (String.ofList (c :: cs))) := .name (by simp [h.1]) h.2
    rwa [← htext, String.ofList_toList] at hspells
  | number text =>
    have hne : text.toList ≠ [] := by
      intro hnil
      simp [spellable, hnil, isNumber] at h
    rcases List.exists_cons_of_ne_nil hne with ⟨c, cs, htext⟩
    simp only [spellable, htext, isNumber, Bool.and_eq_true, List.all_eq_true] at h
    have hspells : Spells (c :: cs) (number (String.ofList (c :: cs))) := .number h.1 h.2
    rwa [← htext, String.ofList_toList] at hspells
  | field text =>
    -- a text in quotes is escaped, so any text can be spelled
    have hspells := Spells.field (escapes_escape '\'' text.toList)
    rwa [String.ofList_toList] at hspells
  | str text =>
    have hspells := Spells.str (escapes_escape '"' text.toList)
    rwa [String.ofList_toList] at hspells
  | op symbol => exact .op (List.contains_iff_mem.mp h)
  | assign => exact .assign
  | semicolon => exact .semicolon
  | comma => exact .comma
  | lparen => exact .lparen
  | rparen => exact .rparen
  | and => exact .and

/-- Digits make a number, with a sign or without. -/
theorem isNumber_toDigits (n : Nat) :
    isNumber (Nat.toDigits 10 n) ∧ isNumber ('-' :: Nat.toDigits 10 n) := by
  have hall : ∀ c ∈ Nat.toDigits 10 n, isNumberChar c := by
    intro c hc
    simp [isNumberChar, Numeral.isDigit_of_mem_toDigits hc]
  rcases Numeral.toDigits_eq_cons n with ⟨c, cs, hcs, hc⟩
  have hminus : c ≠ '-' := by
    rintro rfl
    cases hc
  rw [hcs, List.forall_mem_cons] at hall
  rw [hcs]
  simp only [isNumber, Bool.and_eq_true, List.all_eq_true, List.forall_mem_cons]
  exact ⟨⟨(atNumber_cons hminus cs).trans hc, hall.2⟩, hc, hall⟩

theorem spellable_count (n : Nat) : (number (toString n)).spellable := by
  simpa [spellable] using (isNumber_toDigits n).1

/-- An integer can be spelled as a number. -/
theorem spellable_integer (n : Int64) : (number (Value.int64Text n)).spellable := by
  rw [spellable, Value.int64Text, Int.toString_eq_repr]
  cases n.toInt with
  | ofNat n => simpa [Int.repr] using (isNumber_toDigits n).1
  | negSucc n => simpa [Int.repr] using (isNumber_toDigits (n + 1)).2

/-! ## Lists of tokens -/

/-- A text of a list of tokens: white space before every token and at the end, which may be empty
where the token before it is not joined by what follows. -/
inductive Spaced : List Token → List Char → Prop
  | nil {gap : List Char} (hgap : ∀ c ∈ gap, isBlank c) : Spaced [] gap
  | cons {t : Token} {tokens : List Token} {gap cs rest : List Char} (hgap : ∀ c ∈ gap, isBlank c)
      (hcs : Spells cs t) (hrest : Spaced tokens rest)
      (hapart : ∀ c ∈ rest.head?, t.joins c = false) : Spaced (t :: tokens) (gap ++ (cs ++ rest))

/-- White space is passed over at the cost of its own length. -/
theorem scanWith_gap {gap : List Char} (hgap : ∀ c ∈ gap, isBlank c) (cs : List Char)
    {fuel : Nat} (position : Nat) (hfuel : (gap ++ cs).length ≤ fuel) :
    ∃ less further, cs.length ≤ less ∧
      scanWith fuel position (gap ++ cs) = scanWith less further cs := by
  induction gap generalizing fuel position with
  | nil => exact ⟨fuel, position, hfuel, rfl⟩
  | cons c gap ih =>
    rw [List.forall_mem_cons] at hgap
    cases fuel with
    | zero => simp at hfuel
    | succ fuel =>
      simp only [List.cons_append, List.length_cons, Nat.add_le_add_iff_right] at hfuel
      rcases ih hgap.2 (position + 1) hfuel with ⟨less, further, hless, hscan⟩
      refine ⟨less, further, hless, ?_⟩
      rw [List.cons_append, scanWith, if_pos hgap.1, hscan]

/-- Tokens with white space between them are scanned with enough fuel. -/
theorem Spaced.scanWith {tokens : List Token} {cs : List Char} (h : Spaced tokens cs) {fuel : Nat}
    (position : Nat) (hfuel : cs.length ≤ fuel) : scanWith fuel position cs = .ok tokens := by
  induction h generalizing fuel position with
  | nil hgap =>
    rename_i gap
    have hlength : (gap ++ []).length ≤ fuel := by simpa using hfuel
    rcases scanWith_gap hgap [] position hlength with ⟨less, further, -, hscan⟩
    rw [List.append_nil] at hscan
    rw [hscan]
    cases less <;> rfl
  | cons hgap hcs _ hapart ih =>
    rename_i t tokens gap cs rest _
    rcases scanWith_gap hgap (cs ++ rest) position hfuel with ⟨less, further, hless, hscan⟩
    rcases hcs.eq_cons with ⟨c, es, rfl, hblank⟩
    cases less with
    | zero => simp at hless
    | succ less =>
      -- a token takes at least one character, which pays for the round
      have hnext := hcs.next further hapart
      simp only [List.cons_append, List.length_cons, List.length_append,
        Nat.add_le_add_iff_right] at hless
      have hrest : rest.length ≤ less := by omega
      rw [List.cons_append] at hscan hnext
      rw [List.cons_append, hscan, Token.scanWith, hblank, hnext]
      simp only [ok_bind, ih _ hrest]
      rfl

theorem Spaced.scan {tokens : List Token} {cs : List Char} (h : Spaced tokens cs) :
    scan cs = .ok tokens :=
  h.scanWith 0 (Nat.le_refl _)

/-- The plainest texts of tokens, each after some white space. -/
def layout (ending : List Char) : List (List Char × Token) → List Char
  | [] => ending
  | (gap, t) :: pieces => gap ++ (t.text ++ layout ending pieces)

/-- Is there only white space between the tokens of a layout, and enough of it? -/
def apart (ending : List Char) : List (List Char × Token) → Bool
  | [] => ending.all isBlank
  | (gap, t) :: pieces =>
    gap.all isBlank && t.spellable && !(layout ending pieces).head?.any t.joins &&
      apart ending pieces

/-- A layout writes its tokens with white space between them. -/
theorem spaced_layout {ending : List Char} {pieces : List (List Char × Token)}
    (h : apart ending pieces) : Spaced (pieces.map Prod.snd) (layout ending pieces) := by
  induction pieces with
  | nil => exact .nil (List.all_eq_true.mp h)
  | cons piece pieces ih =>
    rcases piece with ⟨gap, t⟩
    simp only [apart, Bool.and_eq_true, Bool.not_eq_true', List.all_eq_true] at h
    rcases h with ⟨⟨⟨hgap, ht⟩, hnext⟩, hpieces⟩
    refine .cons hgap (spells_text ht) (ih hpieces) ?_
    intro c hc
    rw [Option.mem_def.mp hc, Option.any_some] at hnext
    exact hnext

/-- With a blank before each of them, all tokens are apart. -/
theorem exists_spaced {tokens : List Token} (h : ∀ t ∈ tokens, t.spellable) :
    ∃ cs, Spaced tokens cs ∧ ∀ c ∈ cs.head?, isBlank c := by
  induction tokens with
  | nil => exact ⟨[], .nil (List.forall_mem_nil _), nofun⟩
  | cons t tokens ih =>
    rw [List.forall_mem_cons] at h
    rcases ih h.2 with ⟨rest, hrest, hblank⟩
    have hgap : ∀ c ∈ [' '], isBlank c := List.forall_mem_singleton.mpr (by decide)
    refine ⟨_, .cons hgap (spells_text h.1) hrest ?_, ?_⟩
    · intro c hc
      exact joins_of_isBlank t (hblank c hc)
    · rintro c ⟨⟩
      decide

end Token

end CrmEmulator.Saql
