import CrmEmulator.Proofs.Query.Parsing
import CrmEmulator.Proofs.Value.Text
import CrmEmulator.Query.Filter

/-!
# CrmEmulator.Proofs.Query.Equality — equality, membership and null

Equality compares texts, and so does membership in a list.  They take the same literals in two
ways: a comparison takes the value that a bare word stands for, a list takes the word itself.

1. `Literal`: the literals of the language, with their text as written and their value.  A literal
   is canonical if its text is the text of its value.
2. Conditions as they are read from tokens, and what equality and membership ask of a record.
3. A list is a disjunction of comparisons with quoted texts.  It is one of comparisons with the
   literals themselves exactly if these have the same texts as their values.
4. A comparison with null is a comparison with the text of null, so a string with this text passes
   for null, and a field that is missing passes for this string.
-/

namespace CrmEmulator

/-! ## Literals -/

namespace Soql

/-- A literal of a condition: a string between quotes, or a bare word of any kind. -/
inductive Literal
  | quoted (content : String)
  | bare (word : String)
deriving Repr, DecidableEq

namespace Literal

def token : Literal → Token
  | quoted content => .str content
  | bare word => .word word

/-- The text of a literal as a member of a list. -/
def text : Literal → String
  | quoted content => content
  | bare word => word

/-- The value of a literal after an operator. -/
def value : Literal → Value
  | quoted content => .text content
  | bare word => Token.literalOfWord word

theorem literal_token (l : Literal) (rest : List Token) :
    Token.literal (l.token :: rest) = .ok (l.value, rest) := by
  cases l <;> rfl

/-- Literals with commas between them, and the parenthesis that closes their list. -/
def row : List Literal → List Token
  | [] => [.rparen]
  | [l] => [l.token, .rparen]
  | l :: ls => l.token :: .comma :: row ls

/-- Literals in a row make a list. -/
theorem listed_row {ls : List Literal} (h : ls ≠ []) : Token.Listed (ls.map text) (row ls) := by
  have hmember (l : Literal) : l.token = .str l.text ∨ l.token = .word l.text := by
    cases l with
    | quoted content => exact .inl rfl
    | bare word => exact .inr rfl
  induction ls with
  | nil => exact absurd rfl h
  | cons l ls ih =>
    cases ls with
    | nil => exact .last (hmember l)
    | cons l' ls => exact .more (hmember l) (ih (List.cons_ne_nil _ _))

/-- The literal is written as its value is. -/
def IsCanonical (l : Literal) : Prop := l.value.coerceText = l.text

instance : DecidablePred IsCanonical := fun l => inferInstanceAs (Decidable (_ = l.text))

/-- Canonical words are the constants in small letters, whole numbers without a plus sign and
leading zeros, doubles with the digits and the exponent that equality gives them, and all words
that stand for themselves. -/
theorem isCanonical_bare {word : String} :
    (bare word).IsCanonical ↔
      word ∈ ["true", "false", "null"] ∨ (∃ n, word = Value.int64Text n) ∨
        (∃ x, Token.literalOfWord word = .double x ∧ word = x.format .coercion) ∨
          Token.literalOfWord word = .text word := by
  constructor
  · intro h
    have htext : (Token.literalOfWord word).coerceText = word := h
    revert htext
    fun_cases Token.literalOfWord word with
    | case1 | case2 | case3 =>
      intro htext
      exact .inl (htext ▸ by decide)
    | case4 _ _ _ _ n =>
      intro htext
      exact .inr (.inl ⟨n, htext.symm⟩)
    | case5 _ _ _ _ _ _ x =>
      intro htext
      exact .inr (.inr (.inl ⟨x, rfl, htext.symm⟩))
    | case6 | case7 => exact fun _ => .inr (.inr (.inr rfl))
  · rintro (hconstant | ⟨n, rfl⟩ | ⟨x, hx, hword⟩ | hself)
    · revert word
      decide
    · exact congrArg Value.coerceText (Token.literalOfWord_int64Text n)
    · exact (congrArg Value.coerceText hx).trans hword.symm
    · exact congrArg Value.coerceText hself

example : (bare "1.5").IsCanonical ∧ ¬(bare "1.50").IsCanonical := by decide +kernel

end Literal

end Soql

/-! ## Conditions as they are read -/

namespace Condition

/-- The condition that comes first when some tokens are read, whatever follows them. -/
def IsReadFrom (c : Condition) (tokens : List Token) : Prop :=
  ∀ rest, Condition.read .full (tokens ++ rest) = .ok (c, rest)

theorem Spelled.isReadFrom {c : Condition} {tokens : List Token} (h : c.Spelled tokens)
    (hfield : Token.isName c.field) : c.IsReadFrom tokens :=
  fun rest => h.read hfield (show Dialect.full.Admits c.op from trivial) rest

/-- A comparison with a literal is read from its three tokens. -/
theorem isReadFrom_literal {field symbol : String} {op : CompareOp} (hfield : Token.isName field)
    (hop : CompareOp.ofSymbol? symbol = some op) (l : Soql.Literal) :
    (⟨field, op, .value l.value⟩ : Condition).IsReadFrom [.word field, .op symbol, l.token] := by
  intro rest
  simp only [Condition.read, List.cons_append, List.nil_append, Token.name_word hfield, ok_bind,
    hop, l.literal_token]
  rfl

variable {field : String} {r : Record}

theorem holds_eq {v : Value} :
    (⟨field, .eq, .value v⟩ : Condition).holds r ↔
      (r.getOrNull field).coerceText = v.coerceText := by
  simp [holds, Value.satisfies]

theorem holds_ne {v : Value} :
    (⟨field, .ne, .value v⟩ : Condition).holds r ↔
      (r.getOrNull field).coerceText ≠ v.coerceText := by
  simp [holds, Value.satisfies]

theorem holds_isIn {members : List String} :
    (⟨field, .isIn, .list members⟩ : Condition).holds r ↔
      (r.getOrNull field).coerceText ∈ members := by
  simp [holds, Value.satisfies]

theorem holds_notIn {members : List String} :
    (⟨field, .notIn, .list members⟩ : Condition).holds r ↔
      (r.getOrNull field).coerceText ∉ members := by
  simp [holds, Value.satisfies]

/-- Every text is the text of a field in some record. -/
theorem exists_coerceText_eq (field text : String) :
    ∃ r : Record, (r.getOrNull field).coerceText = text :=
  ⟨⟨[(field, .text text)]⟩,
    by simp [Record.getOrNull, Record.get?, Record.lookup, Value.coerceText]⟩

end Condition

/-! ## Lists -/

namespace Soql

/-- The literals have the same texts as their values, though perhaps not one by one. -/
def Literal.Agree (ls : List Literal) : Prop :=
  ∀ text, (∃ l ∈ ls, l.text = text) ↔ ∃ l ∈ ls, l.value.coerceText = text

/-- Literals that are spelled as their values are written agree with them. -/
theorem Literal.agree_of_isCanonical {ls : List Literal} (h : ∀ l ∈ ls, l.IsCanonical) :
    Agree ls := by
  intro text
  refine exists_congr fun l => and_congr_right fun hl => ?_
  rw [h l hl]

/-- A single literal agrees with itself exactly if it is canonical. -/
theorem Literal.agree_singleton {l : Literal} : Agree [l] ↔ l.IsCanonical := by
  refine ⟨fun h => ?_, fun h => agree_of_isCanonical (List.forall_mem_singleton.mpr h)⟩
  simpa [IsCanonical] using h l.text

/-- A record is in a list if its field equals one of the quoted texts of the list, and this says the
same as equality with one of the literals for exactly those lists whose literals agree. -/
theorem membership_is_equality_of_texts {field : String} (hfield : Token.isName field)
    {not inside : Token} (hnot : not.isKeyword "NOT") (hinside : inside.isKeyword "IN")
    {ls : List Literal} (hls : ls ≠ []) :
    ∃ (among apart : Condition) (equal : Literal → Condition),
      among.IsReadFrom (.word field :: inside :: .lparen :: Literal.row ls) ∧
      apart.IsReadFrom (.word field :: not :: inside :: .lparen :: Literal.row ls) ∧
      (∀ l, (equal l).IsReadFrom [.word field, .op "=", l.token]) ∧
      (∀ r, (among.holds r ↔ ∃ l ∈ ls, (equal (.quoted l.text)).holds r) ∧
        (apart.holds r ↔ ¬∃ l ∈ ls, (equal (.quoted l.text)).holds r)) ∧
      ((∀ r, (among.holds r ↔ ∃ l ∈ ls, (equal l).holds r) ∧
        (apart.holds r ↔ ¬∃ l ∈ ls, (equal l).holds r)) ↔ Literal.Agree ls) := by
  have hlisted := Literal.listed_row hls
  have hamong (r : Record) :
      (⟨field, .isIn, .list (ls.map Literal.text)⟩ : Condition).holds r ↔
        ∃ l ∈ ls, l.text = (r.getOrNull field).coerceText :=
    Condition.holds_isIn.trans List.mem_map
  have hapart (r : Record) :
      (⟨field, .notIn, .list (ls.map Literal.text)⟩ : Condition).holds r ↔
        ¬∃ l ∈ ls, l.text = (r.getOrNull field).coerceText :=
    Condition.holds_notIn.trans (not_congr List.mem_map)
  refine ⟨⟨field, .isIn, .list (ls.map Literal.text)⟩,
    ⟨field, .notIn, .list (ls.map Literal.text)⟩, fun l => ⟨field, .eq, .value l.value⟩,
    (Condition.Spelled.isIn hinside hlisted).isReadFrom hfield,
    (Condition.Spelled.notIn hnot hinside hlisted).isReadFrom hfield,
    Condition.isReadFrom_literal hfield rfl, fun r => ?_, ?_⟩
  · have htext (l : Literal) : l.text = (r.getOrNull field).coerceText ↔
        (⟨field, .eq, .value (Literal.quoted l.text).value⟩ : Condition).holds r := by
      rw [Condition.holds_eq, eq_comm]
      rfl
    simp only [hamong, hapart, htext, and_self]
  · -- a record can have any text in the field, so the conditions agree only if the texts do
    have hvalue (l : Literal) (r : Record) : l.value.coerceText = (r.getOrNull field).coerceText ↔
        (⟨field, .eq, .value l.value⟩ : Condition).holds r := by
      rw [Condition.holds_eq, eq_comm]
    simp only [hamong, hapart, ← hvalue]
    refine ⟨fun h text => ?_, fun h r => ⟨h _, not_congr (h _)⟩⟩
    obtain ⟨r, rfl⟩ := Condition.exists_coerceText_eq field text
    exact (h r).1

/-- Ratings as they are usually written. -/
theorem hot_or_seven_is_equality :
    ∃ (among apart : Condition) (equal : Literal → Condition),
      among.IsReadFrom [.word "Rating", .word "in", .lparen, .str "Hot", .comma, .word "7",
        .rparen] ∧
      apart.IsReadFrom [.word "Rating", .word "not", .word "in", .lparen, .str "Hot", .comma,
        .word "7", .rparen] ∧
      (equal (.quoted "Hot")).IsReadFrom [.word "Rating", .op "=", .str "Hot"] ∧
      (equal (.bare "7")).IsReadFrom [.word "Rating", .op "=", .word "7"] ∧
      ∀ r, (among.holds r ↔ (equal (.quoted "Hot")).holds r ∨ (equal (.bare "7")).holds r) ∧
        (apart.holds r ↔ ¬((equal (.quoted "Hot")).holds r ∨ (equal (.bare "7")).holds r)) := by
  have hcanonical : ∀ l ∈ [Literal.quoted "Hot", .bare "7"], l.IsCanonical := by decide
  obtain ⟨among, apart, equal, hamong, hapart, hequal, -, hlaw⟩ :=
    membership_is_equality_of_texts (show Token.isName "Rating" by decide)
      (show (Token.word "not").isKeyword "NOT" by decide)
      (show (Token.word "in").isKeyword "IN" by decide)
      (List.cons_ne_nil (Literal.quoted "Hot") [.bare "7"])
  refine ⟨among, apart, equal, hamong, hapart, hequal _, hequal _, fun r => ?_⟩
  simpa using hlaw.mpr (Literal.agree_of_isCanonical hcanonical) r

/-- A record with a truth value. -/
def flagged : Record := ⟨[("Flag", .boolean true)]⟩

/-- The constant in capital letters is equal to the truth value, but as a member of a list it is
only a text. -/
theorem capital_constant_is_no_member :
    (parse "SELECT Flag FROM A WHERE Flag = TRUE").toOption.map (·.rows [flagged]) =
      some [flagged] ∧
    (parse "SELECT Flag FROM A WHERE Flag IN (TRUE)").toOption.map (·.rows [flagged]) = some [] ∧
    (parse "SELECT Flag FROM A WHERE Flag NOT IN (TRUE)").toOption.map (·.rows [flagged]) =
      some [flagged] := by
  decide +kernel

end Soql

/-! ## Null -/

namespace Condition

/-- What passes for null: a missing field, null itself, and the values with the text of null. -/
def PassesForNull (value : Option Value) : Prop :=
  value ∈ [none, some .null, some (.text "null"), some (.json .null)]

theorem passesForNull_iff {r : Record} {field : String} :
    PassesForNull (r.get? field) ↔ (r.getOrNull field).coerceText = "null" := by
  rw [Value.coerceText_eq_null, Record.getOrNull]
  cases r.get? field <;> simp [PassesForNull]

/-- The test for null is a test for its text, so it takes a string with that text for null, and this
is the one string that a missing field equals. -/
theorem null_test_is_test_for_its_text {field : String} (hfield : Token.isName field)
    {null : Token} (hnull : null.isKeyword "null") :
    ∃ (isNull notNull : Condition) (equal : String → Condition),
      isNull.IsReadFrom [.word field, .op "=", null] ∧
      (∀ symbol ∈ ["!=", "<>"], notNull.IsReadFrom [.word field, .op symbol, null]) ∧
      (∀ s, (equal s).IsReadFrom [.word field, .op "=", .str s]) ∧
      ∀ r : Record, (isNull.holds r ↔ PassesForNull (r.get? field)) ∧
        (notNull.holds r ↔ ¬PassesForNull (r.get? field)) ∧
        (r.get? field ∈ [none, some .null] → ∀ s, (equal s).holds r ↔ s = "null") := by
  refine ⟨⟨field, .eq, .value .null⟩, ⟨field, .ne, .value .null⟩,
    fun s => ⟨field, .eq, .value (.text s)⟩,
    (Spelled.comparison rfl (.null hnull)).isReadFrom hfield, ?_,
    fun s => (Spelled.comparison rfl (.text s)).isReadFrom hfield, fun r => ⟨?_, ?_, ?_⟩⟩
  · intro symbol hsymbol
    have hop : CompareOp.ofSymbol? symbol = some .ne := by
      revert symbol
      decide
    exact (Spelled.comparison hop (.null hnull)).isReadFrom hfield
  · rw [holds_eq, passesForNull_iff]
    rfl
  · rw [holds_ne, passesForNull_iff]
    rfl
  · intro hmissing s
    -- a field that is missing has the text of null, too
    have hnone : r.getOrNull field = .null := by
      rw [Record.getOrNull]
      revert hmissing
      cases r.get? field <;> simp
    rw [holds_eq, hnone, eq_comm]
    rfl

/-- An account without an amount, and one with an amount that is not null. -/
theorem amounts_are_told_from_null :
    ∃ (isNull notNull : Condition) (equal : String → Condition),
      isNull.IsReadFrom [.word "Amount", .op "=", .word "NULL"] ∧
      notNull.IsReadFrom [.word "Amount", .op "<>", .word "NULL"] ∧
      (equal "0").IsReadFrom [.word "Amount", .op "=", .str "0"] ∧
      isNull.holds ⟨[("Name", .text "Globex")]⟩ ∧ ¬(equal "0").holds ⟨[("Name", .text "Globex")]⟩ ∧
      ¬isNull.holds ⟨[("Amount", .integer 0)]⟩ ∧ notNull.holds ⟨[("Amount", .integer 0)]⟩ := by
  obtain ⟨isNull, notNull, equal, hisNull, hnotNull, hequal, hlaw⟩ :=
    null_test_is_test_for_its_text (show Token.isName "Amount" by decide)
      (show (Token.word "NULL").isKeyword "null" by decide)
  have hzero : ¬PassesForNull (some (.integer 0)) := by simp [PassesForNull]
  obtain ⟨hglobex, -, hstrings⟩ := hlaw ⟨[("Name", .text "Globex")]⟩
  obtain ⟨hnull, hother, -⟩ := hlaw ⟨[("Amount", .integer 0)]⟩
  refine ⟨isNull, notNull, equal, hisNull, hnotNull _ (by decide), hequal _, ?_, ?_,
    mt hnull.mp hzero, hother.mpr hzero⟩
  · exact hglobex.mpr List.mem_cons_self
  · exact mt (hstrings List.mem_cons_self "0").mp (by decide)

/-- A string that reads like null. -/
def spelledOut : Record := ⟨[("Amount", .text "null")]⟩

/-- The string equals the constant for null, and a missing value equals the quoted string. -/
theorem string_passes_for_null :
    (Soql.parse "SELECT Amount FROM A WHERE Amount = null").toOption.map (·.rows [spelledOut]) =
      some [spelledOut] ∧
    (Soql.parse "SELECT Amount FROM A WHERE Amount != null").toOption.map (·.rows [spelledOut]) =
      some [] ∧
    (Soql.parse "SELECT Amount FROM A WHERE Amount = 'null'").toOption.map (·.rows [∅]) =
      some [∅] := by
  decide +kernel

end Condition

end CrmEmulator
