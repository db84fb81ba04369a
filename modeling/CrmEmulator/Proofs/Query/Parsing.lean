import CrmEmulator.Proofs.Query.Grammar

/-!
# CrmEmulator.Proofs.Query.Parsing — written queries are read back

Each reader takes the tokens of what it reads and leaves the rest.  A clause that may be absent or
go on is ended by a keyword that cannot belong to it, so the rest of the tokens has to begin with
one of some keywords: `Token.Opens`.
-/

namespace CrmEmulator

/-! ## Keywords -/

namespace Token

/-- A keyword is a word, spelled in any case. -/
theorem exists_of_isKeyword {t : Token} {k : String} (h : t.isKeyword k) :
    ∃ text, t = word text ∧ sameWord text.toList k.toList := by
  cases t with
  | word text => exact ⟨text, rfl, h⟩
  | _ => cases h

theorem isKeyword_eq_false {t : Token} {k : String} (h : t.isKeyword k) (other : String)
    (hne : sameWord k.toList other.toList = false) : t.isKeyword other = false := by
  rcases exists_of_isKeyword h with ⟨text, rfl, htext⟩
  exact sameWord_eq_false htext hne

theorem afterKeyword?_cons {t : Token} {k : String} (h : t.isKeyword k) (rest : List Token) :
    afterKeyword? k (t :: rest) = some rest := by
  simp [afterKeyword?, h]

theorem keyword_cons {t : Token} {k : String} (h : t.isKeyword k) (rest : List Token) :
    keyword k (t :: rest) = .ok rest := by
  simp [keyword, afterKeyword?, h]

theorem afterKeyword?_cons_other {t : Token} {k : String} (h : t.isKeyword k) (other : String)
    (hne : sameWord k.toList other.toList = false) (rest : List Token) :
    afterKeyword? other (t :: rest) = none := by
  simp [afterKeyword?, isKeyword_eq_false h other hne]

/-- Nothing is left, or one of some keywords comes first. -/
def Opens (keywords : List String) (tokens : List Token) : Prop :=
  ∀ t ∈ tokens.head?, ∃ k ∈ keywords, t.isKeyword k

theorem opens_cons {t : Token} {k : String} {keywords : List String} (h : t.isKeyword k)
    (hk : k ∈ keywords) (rest : List Token) : Opens keywords (t :: rest) := by
  rintro u ⟨⟩
  exact ⟨k, hk, h⟩

/-- Tokens that open with some keywords open with more of them. -/
theorem Opens.mono {keywords others : List String} {tokens : List Token} (h : Opens keywords tokens)
    (hsub : keywords ⊆ others) : Opens others tokens := by
  intro t ht
  rcases h t ht with ⟨k, hk, hkeyword⟩
  exact ⟨k, hsub hk, hkeyword⟩

/-- No other keyword comes first. -/
theorem Opens.afterKeyword? {keywords : List String} {tokens : List Token}
    (h : Opens keywords tokens) {k : String}
    (hne : ∀ other ∈ keywords, sameWord other.toList k.toList = false) :
    afterKeyword? k tokens = none := by
  cases tokens with
  | nil => rfl
  | cons t rest =>
    rcases h t rfl with ⟨other, hother, ht⟩
    exact afterKeyword?_cons_other ht k (hne other hother) rest

theorem name_word {text : String} (h : isName text) (what : String) (rest : List Token) :
    name what (word text :: rest) = .ok (text, rest) := by
  simp [name, h]

end Token

/-! ## Values and lists -/

/-- A word that reads as an integer stands for it, whether it has a sign or leading zeros. -/
theorem Token.literalOfWord_of_int64? {word : String} {n : Int64}
    (h : Numeral.int64? word.toList = some n) : literalOfWord word = .integer n := by
  rcases Numeral.exists_isDigit_of_int64? h with ⟨c, hc, hdigit⟩
  have htrue := sameWord_of_isDigit hc hdigit (by decide : "true".toList.all _)
  have hfalse := sameWord_of_isDigit hc hdigit (by decide : "false".toList.all _)
  have hnull := sameWord_of_isDigit hc hdigit (by decide : "null".toList.all _)
  simp only [literalOfWord, htrue, hfalse, hnull, h]
  rfl

theorem Token.literalOfWord_int64Text (n : Int64) :
    literalOfWord (Value.int64Text n) = .integer n :=
  literalOfWord_of_int64? (Numeral.int64?_int64Text n)

/-- A literal is read from its token. -/
theorem Value.Spelled.literal {v : Value} {t : Token} (h : v.Spelled t) (rest : List Token) :
    Token.literal (t :: rest) = .ok (v, rest) := by
  cases h with
  | null ht =>
    -- the words are tried in an order, so the others have to be ruled out
    have htrue := Token.isKeyword_eq_false ht "true" (by decide)
    have hfalse := Token.isKeyword_eq_false ht "false" (by decide)
    rcases Token.exists_of_isKeyword ht with ⟨text, rfl, -⟩
    simp only [Token.isKeyword] at ht htrue hfalse
    simp only [Token.literal, Token.literalOfWord, htrue, hfalse, ht]
    rfl
  | boolean ht =>
    rename_i b
    rcases Token.exists_of_isKeyword ht with ⟨text, rfl, htext⟩
    cases b with
    | true =>
      have htrue : sameWord text.toList "true".toList := htext
      simp only [Token.literal, Token.literalOfWord, htrue]
      rfl
    | false =>
      have hfalse : sameWord text.toList "false".toList := htext
      have htrue := sameWord_eq_false hfalse (by decide : sameWord _ "true".toList = false)
      simp only [Token.literal, Token.literalOfWord, htrue, hfalse]
      rfl
  | integer n => rw [Token.literal, Token.literalOfWord_int64Text]
  | text s => rfl

/-- The members of a list are read up to its end. -/
theorem Token.Listed.members {ms : List String} {tokens : List Token} (h : Listed ms tokens)
    (rest : List Token) : Token.members (tokens ++ rest) = .ok (ms, rest) := by
  induction h with
  | last h => rcases h with rfl | rfl <;> rfl
  | more h _ ih =>
    rcases h with rfl | rfl <;> simp only [List.cons_append, Token.members, ih, ok_bind] <;> rfl

theorem Token.Listed.list {ms : List String} {tokens : List Token} (h : Listed ms tokens)
    (rest : List Token) : Token.list (.lparen :: (tokens ++ rest)) = .ok (ms, rest) :=
  h.members rest

/-! ## Conditions -/

/-- Is an operator one of a dialect's?  Without `LIKE` and lists, only comparisons are left. -/
def Dialect.Admits : Dialect → CompareOp → Prop
  | .full, _ => True
  | .comparisons, op => op ∉ [.like, .isIn, .notIn]

instance (dialect : Dialect) (o : CompareOp) : Decidable (dialect.Admits o) :=
  match dialect with
  | .full => inferInstanceAs (Decidable True)
  | .comparisons => inferInstanceAs (Decidable (o ∉ [.like, .isIn, .notIn]))

/-- Only the full dialect admits the operators without symbols. -/
theorem Dialect.Admits.eq_full {dialect : Dialect} {o : CompareOp} (h : dialect.Admits o)
    (ho : o ∈ [.like, .isIn, .notIn]) : dialect = .full := by
  cases dialect with
  | full => rfl
  | comparisons => exact absurd ho h

/-- A condition is read from the tokens that spell it. -/
theorem Condition.Spelled.read {c : Condition} {tokens : List Token} (h : c.Spelled tokens)
    (hfield : Token.isName c.field) {dialect : Dialect} (hop : dialect.Admits c.op)
    (rest : List Token) : Condition.read dialect (tokens ++ rest) = .ok (c, rest) := by
  cases h with
  | comparison hsymbol hv =>
    simp only [Condition.read, List.cons_append, List.nil_append, Token.name_word hfield, ok_bind,
      hsymbol, hv.literal]
    rfl
  | like hlike =>
    obtain rfl := Dialect.Admits.eq_full (o := .like) hop (by decide)
    rcases Token.exists_of_isKeyword hlike with ⟨text, rfl, -⟩
    simp only [Condition.read, List.cons_append, List.nil_append, Token.name_word hfield, ok_bind,
      Condition.readSpecial, Token.afterKeyword?_cons hlike]
  | isIn hinside hms =>
    obtain rfl := Dialect.Admits.eq_full (o := .isIn) hop (by decide)
    -- the keyword stands in the place of an operator, but it is a word
    have hlike := Token.afterKeyword?_cons_other hinside "LIKE" (by decide)
    rcases Token.exists_of_isKeyword hinside with ⟨text, rfl, -⟩
    simp only [Condition.read, List.cons_append, Token.name_word hfield, ok_bind,
      Condition.readSpecial, hlike, Token.afterKeyword?_cons hinside, hms.list]
    rfl
  | notIn hnot hinside hms =>
    obtain rfl := Dialect.Admits.eq_full (o := .notIn) hop (by decide)
    have hlike := Token.afterKeyword?_cons_other hnot "LIKE" (by decide)
    have hin := Token.afterKeyword?_cons_other hnot "IN" (by decide)
    rcases Token.exists_of_isKeyword hnot with ⟨text, rfl, -⟩
    simp only [Condition.read, List.cons_append, Token.name_word hfield, ok_bind,
      Condition.readSpecial, hlike, hin, Token.afterKeyword?_cons hnot, Option.bind_some,
      Token.afterKeyword?_cons hinside, hms.list]
    rfl

/-- The keywords that may follow the conditions of a query. -/
def afterConditions : List String := ["ORDER", "LIMIT", "OFFSET"]

/-- A connective is read from its keyword. -/
theorem Connective.read?_cons {connective : Connective} {t : Token}
    (h : t.isKeyword connective.keyword) (rest : List Token) :
    Connective.read? (t :: rest) = some (connective, rest) := by
  cases connective with
  | and =>
    have hand : t.isKeyword "AND" := h
    simp only [Connective.read?, Token.afterKeyword?_cons hand]
  | or =>
    have hor : t.isKeyword "OR" := h
    have hand := Token.afterKeyword?_cons_other hor "AND" (by decide)
    simp only [Connective.read?, hand, Token.afterKeyword?_cons hor, Option.map_some]

/-- There is no connective where the conditions end. -/
theorem Connective.read?_opens {rest : List Token} (h : Token.Opens afterConditions rest) :
    Connective.read? rest = none := by
  have hand := h.afterKeyword? (k := "AND") (by decide)
  have hor := h.afterKeyword? (k := "OR") (by decide)
  simp [Connective.read?, hand, hor]

/-- Further conditions have at least as many tokens. -/
theorem Where.Continued.length_le {more : List (Connective × Condition)} {tokens : List Token}
    (h : Where.Continued more tokens) : more.length ≤ tokens.length := by
  induction h with
  | nil => exact Nat.le_refl _
  | cons _ _ _ ih =>
    simp only [List.length_cons, List.length_append]
    omega

/-- Further conditions are read up to the last one. -/
theorem Where.Continued.readRest {more : List (Connective × Condition)} {tokens : List Token}
    (h : Where.Continued more tokens) (hfields : ∀ c ∈ more.map Prod.snd, Token.isName c.field)
    {dialect : Dialect} (hops : ∀ c ∈ more.map Prod.snd, dialect.Admits c.op) {rest : List Token}
    (hrest : Connective.read? rest = none) {fuel : Nat} (hfuel : more.length ≤ fuel) :
    Where.readRest dialect fuel (tokens ++ rest) = .ok (more, rest) := by
  induction h generalizing fuel with
  | nil =>
    -- what comes after the conditions is no connective, so reading stops whatever fuel is left
    cases fuel with
    | zero => rfl
    | succ fuel => simp [Where.readRest, hrest]
  | cons ht hc _ ih =>
    cases fuel with
    | zero => simp at hfuel
    | succ fuel =>
      simp only [List.length_cons, Nat.add_le_add_iff_right] at hfuel
      simp only [List.map_cons, List.forall_mem_cons] at hfields hops
      simp only [List.cons_append, List.append_assoc, Where.readRest, Connective.read?_cons ht,
        hc.read hfields.1 hops.1, ih hfields.2 hops.2 hfuel, ok_bind]
      rfl

/-- All conditions are read from the tokens that spell them. -/
theorem Where.Spelled.read {w : Where} {tokens : List Token} (h : w.Spelled tokens)
    (hfields : ∀ c ∈ w.conditions, Token.isName c.field) {dialect : Dialect}
    (hops : ∀ c ∈ w.conditions, dialect.Admits c.op) {rest : List Token}
    (hrest : Connective.read? rest = none) :
    Where.read dialect (tokens ++ rest) = .ok (w, rest) := by
  cases h with
  | mk hfirst hmore =>
    rename_i first more tokens others
    simp only [Where.conditions, List.forall_mem_cons] at hfields hops
    have hfuel : more.length ≤ (others ++ rest).length := by
      have := hmore.length_le
      rw [List.length_append]
      omega
    simp only [Where.read, List.append_assoc, hfirst.read hfields.1 hops.1,
      hmore.readRest hfields.2 hops.2 hrest hfuel, ok_bind]
    rfl

/-! ## Order -/

/-- The keywords that may follow a field of the order. -/
def afterOrder : List String := ["LIMIT", "OFFSET"]

/-- A direction is read from its keyword, or from nothing. -/
theorem SortDirection.Spelled.read {direction : SortDirection} {tokens : List Token}
    (h : direction.Spelled tokens) {rest : List Token}
    (hrest : Token.Opens ("NULLS" :: afterOrder) rest) :
    Soql.readDirection (tokens ++ rest) = (direction, rest) := by
  cases h with
  | unsaid =>
    have hdesc := hrest.afterKeyword? (k := "DESC") (by decide)
    have hasc := hrest.afterKeyword? (k := "ASC") (by decide)
    simp [Soql.readDirection, hdesc, hasc]
  | asc ht =>
    have hdesc := Token.afterKeyword?_cons_other ht "DESC" (by decide)
    simp [Soql.readDirection, hdesc, Token.afterKeyword?_cons ht]
  | desc ht => simp [Soql.readDirection, Token.afterKeyword?_cons ht]

/-- A place for nulls is read from its keywords, or from nothing. -/
theorem NullsPosition.Spelled.read {nulls : NullsPosition} {tokens : List Token}
    (h : nulls.Spelled tokens) {rest : List Token} (hrest : Token.Opens afterOrder rest) :
    Soql.readNulls (tokens ++ rest) = .ok (nulls, rest) := by
  cases h with
  | unsaid => simp [Soql.readNulls, hrest.afterKeyword? (k := "NULLS") (by decide)]
  | first hnulls ht =>
    simp [Soql.readNulls, Token.afterKeyword?_cons hnulls, Token.afterKeyword?_cons ht]
  | last hnulls ht =>
    have hfirst := Token.afterKeyword?_cons_other ht "FIRST" (by decide)
    simp [Soql.readNulls, Token.afterKeyword?_cons hnulls, hfirst, Token.afterKeyword?_cons ht]

/-- What follows the direction opens with a place for nulls, or with what follows the order. -/
theorem NullsPosition.Spelled.opens {nulls : NullsPosition} {tokens : List Token}
    (h : nulls.Spelled tokens) {rest : List Token} (hrest : Token.Opens afterOrder rest) :
    Token.Opens ("NULLS" :: afterOrder) (tokens ++ rest) := by
  cases h with
  | unsaid => exact hrest.mono (List.subset_cons_self _ _)
  | first hnulls _ => exact Token.opens_cons hnulls List.mem_cons_self _
  | last hnulls _ => exact Token.opens_cons hnulls List.mem_cons_self _

/-- An order is read from the tokens that spell it. -/
theorem OrderBy.Spelled.read {o : OrderBy} {tokens : List Token} (h : o.Spelled tokens)
    (hfield : Token.isName o.field) {rest : List Token} (hrest : Token.Opens afterOrder rest) :
    (do Soql.readOrderBy (← Token.keyword "BY" (tokens ++ rest))) = .ok (o, rest) := by
  cases h with
  | mk hby hdirection hnulls =>
    simp only [List.cons_append, List.append_assoc, Token.keyword_cons hby, ok_bind,
      Soql.readOrderBy, Token.name_word hfield, hdirection.read (hnulls.opens hrest),
      hnulls.read hrest]
    rfl

namespace Soql

/-! ## Pages -/

theorem Clause.opens {α : Type} {keyword : String} {Says : α → List Token → Prop} {o : Option α}
    {tokens : List Token} (h : Clause keyword Says o tokens) {keywords : List String}
    (hkeyword : keyword ∈ keywords) {rest : List Token} (hrest : Token.Opens keywords rest) :
    Token.Opens keywords (tokens ++ rest) := by
  cases h with
  | absent => exact hrest
  | present ht _ => exact Token.opens_cons ht hkeyword _

/-- A page opens with one of its keywords, unless it is empty. -/
theorem Paged.opens {limit offset : Option Nat} {tokens : List Token}
    (h : Paged limit offset tokens) : Token.Opens afterOrder tokens := by
  have hnil : Token.Opens afterOrder [] := nofun
  cases h with
  | limitFirst hlimit hoffset =>
    exact hlimit.opens (by decide) (by simpa using hoffset.opens (by decide) hnil)
  | offsetFirst hlimit hoffset =>
    exact hoffset.opens (by decide) (by simpa using hlimit.opens (by decide) hnil)

/-- Where nothing is left, the page is complete. -/
theorem readPage_nil (fuel : Nat) (page : Page) : readPage fuel page [] = .ok (page, []) := by
  cases fuel <;> rfl

theorem count_word {n : Nat} (h : n < Nat.pow 2 64) (clause : String) (rest : List Token) :
    Token.count clause (.word (toString n) :: rest) = .ok (n, rest) := by
  rw [Token.count, Numeral.count?_toString h]

/-- Reading goes on after a limit with what it says. -/
theorem Clause.readLimit {limit : Option Nat} {tokens : List Token}
    (h : Clause "LIMIT" Counted limit tokens) (hlimit : ∀ n ∈ limit, n < Nat.pow 2 64)
    (offset : Option Nat) (rest : List Token) {fuel : Nat}
    (hfuel : (tokens ++ rest).length < fuel) :
    ∃ less, rest.length < less ∧
      readPage fuel ⟨none, offset⟩ (tokens ++ rest) = readPage less ⟨limit, offset⟩ rest := by
  cases h with
  | absent => exact ⟨fuel, hfuel, rfl⟩
  | present ht hn =>
    cases hn
    cases fuel with
    | zero => simp at hfuel
    | succ fuel =>
      simp only [List.length_cons, List.length_append] at hfuel
      refine ⟨fuel, by omega, ?_⟩
      simp only [List.cons_append, List.nil_append, readPage, Token.afterKeyword?_cons ht,
        count_word (hlimit _ rfl), ok_bind]
      rfl

/-- Reading goes on after an offset with what it says. -/
theorem Clause.readOffset {offset : Option Nat} {tokens : List Token}
    (h : Clause "OFFSET" Counted offset tokens) (hoffset : ∀ n ∈ offset, n < Nat.pow 2 64)
    (limit : Option Nat) (rest : List Token) {fuel : Nat}
    (hfuel : (tokens ++ rest).length < fuel) :
    ∃ less, rest.length < less ∧
      readPage fuel ⟨limit, none⟩ (tokens ++ rest) = readPage less ⟨limit, offset⟩ rest := by
  cases h with
  | absent => exact ⟨fuel, hfuel, rfl⟩
  | present ht hn =>
    have hnone := Token.afterKeyword?_cons_other ht "LIMIT" (by decide)
    cases hn
    cases fuel with
    | zero => simp at hfuel
    | succ fuel =>
      simp only [List.length_cons, List.length_append] at hfuel
      refine ⟨fuel, by omega, ?_⟩
      simp only [List.cons_append, List.nil_append, readPage, hnone, Token.afterKeyword?_cons ht,
        count_word (hoffset _ rfl), ok_bind]
      rfl

/-- A page is read from the tokens that spell it, whichever of its parts comes first. -/
theorem Paged.read {limit offset : Option Nat} {tokens : List Token}
    (h : Paged limit offset tokens) (hlimit : ∀ n ∈ limit, n < Nat.pow 2 64)
    (hoffset : ∀ n ∈ offset, n < Nat.pow 2 64) :
    readPage (tokens.length + 1) ⟨none, none⟩ tokens = .ok (⟨limit, offset⟩, []) := by
  cases h with
  | limitFirst hl ho =>
    -- the clause that comes first leaves the place of the other one empty
    rcases hl.readLimit hlimit none _ (Nat.lt_succ_self _) with ⟨less, hless, hfirst⟩
    rcases ho.readOffset hoffset limit [] (by simpa using hless) with ⟨_, -, hsecond⟩
    rw [List.append_nil] at hsecond
    rw [hfirst, hsecond, readPage_nil]
  | offsetFirst hl ho =>
    rcases ho.readOffset hoffset none _ (Nat.lt_succ_self _) with ⟨less, hless, hfirst⟩
    rcases hl.readLimit hlimit offset [] (by simpa using hless) with ⟨_, -, hsecond⟩
    rw [List.append_nil] at hsecond
    rw [hfirst, hsecond, readPage_nil]

/-! ## Selections -/

/-- A field is read from its token. -/
theorem readField_fieldToken {field : String} (h : IsField field) (rest : List Token) :
    readField (fieldToken field :: rest) = .ok (field, rest) := by
  unfold fieldToken
  split
  · next hstar => rw [hstar, readField]
  · next hstar =>
    rcases h.resolve_left hstar with ⟨hname, hfrom⟩
    have hnot : (Token.word field).isKeyword "FROM" = false := Bool.eq_false_iff.mpr hfrom
    simp [readField, Token.atKeyword, Token.afterKeyword?, hnot, Token.name_word hname]

/-- Fields have at least as many tokens. -/
theorem Fields.length_le {fields : List String} {tokens : List Token} (h : Fields fields tokens) :
    fields.length ≤ tokens.length := by
  induction h with
  | one => exact Nat.le_refl _
  | more _ _ ih =>
    simp only [List.length_cons]
    omega

/-- Fields are read up to the keyword behind them. -/
theorem Fields.read {fields : List String} {tokens : List Token} (h : Fields fields tokens)
    (hfields : ∀ field ∈ fields, IsField field) {t : Token} (ht : t.isKeyword "FROM")
    (rest : List Token) {fuel : Nat} (hfuel : fields.length ≤ fuel) :
    readFields fuel (tokens ++ t :: rest) = .ok (fields, t :: rest) := by
  induction h generalizing fuel with
  | one field =>
    -- the keyword after the last field is a word, so no comma goes on with the list
    rcases Token.exists_of_isKeyword ht with ⟨text, rfl, -⟩
    have hfield := hfields field List.mem_cons_self
    cases fuel with
    | zero => simp at hfuel
    | succ fuel =>
      simp only [List.cons_append, List.nil_append, readFields, readField_fieldToken hfield,
        ok_bind]
      rfl
  | more field _ ih =>
    rw [List.forall_mem_cons] at hfields
    cases fuel with
    | zero => simp at hfuel
    | succ fuel =>
      simp only [List.length_cons, Nat.add_le_add_iff_right] at hfuel
      simp only [List.cons_append, readFields, readField_fieldToken hfields.1,
        ih hfields.2 hfuel, ok_bind]
      rfl

/-- A selected field is never taken for `COUNT()`. -/
theorem Fields.not_count {fields : List String} {tokens : List Token} (h : Fields fields tokens)
    {t : Token} (ht : t.isKeyword "FROM") (rest others : List Token) :
    Token.afterKeyword? "COUNT" (tokens ++ t :: rest) ≠ some (.lparen :: others) := by
  -- a comma or the next keyword comes after a field, but never a parenthesis
  rcases Token.exists_of_isKeyword ht with ⟨text, rfl, -⟩
  cases h <;>
  · simp only [List.cons_append, List.nil_append, Token.afterKeyword?]
    split <;> simp

/-- A selection is read from the tokens that spell it. -/
theorem Selected.read {s : Selection} {tokens : List Token} (h : Selected s tokens)
    (hs : ∀ names, s = .fields names → names ≠ [] ∧ ∀ n ∈ names, IsField n) {t : Token}
    (ht : t.isKeyword "FROM") (rest : List Token) :
    readSelection (tokens ++ t :: rest) = .ok (s, t :: rest) := by
  cases h with
  | count hcount =>
    simp only [List.cons_append, List.nil_append, readSelection, Token.afterKeyword?_cons hcount]
    rfl
  | fields hfields =>
    rename_i names
    have hfuel : names.length ≤ (tokens ++ t :: rest).length + 1 := by
      have := hfields.length_le
      rw [List.length_append]
      omega
    unfold readSelection
    split
    · next heq => exact absurd heq (hfields.not_count ht rest _)
    · rw [hfields.read (hs names rfl).2 ht rest hfuel]
      rfl

/-! ## Queries -/

/-- An optional part is read if it is there, and passed over if not. -/
theorem Clause.readOptional {α : Type} {keyword : String} {Says : α → List Token → Prop}
    {read : TokenReader α} {o : Option α} {tokens rest : List Token}
    (h : Clause keyword Says o tokens)
    (hread : ∀ x ∈ o, ∀ tokens, Says x tokens → read (tokens ++ rest) = .ok (x, rest))
    (hrest : Token.afterKeyword? keyword rest = none) :
    Soql.readOptional keyword read (tokens ++ rest) = .ok (o, rest) := by
  cases h with
  | absent => simp [Soql.readOptional, hrest]
  | present ht hx =>
    simp only [Soql.readOptional, List.cons_append, Token.afterKeyword?_cons ht,
      hread _ rfl _ hx, ok_bind]
    rfl

/-- The tokens of a query are read as this query. -/
theorem Spelled.ofTokens {q : Soql} {tokens : List Token} (h : q.Spelled tokens)
    (hq : q.Documented) : Soql.ofTokens tokens = .ok q := by
  cases h with
  | mk hselect hfields hfrom hfilter horder hpage =>
    rename_i selectWord fromWord fields filter order page
    -- every optional clause is ended by the keyword of a later one, or by the end of the query
    have hafter : Token.Opens afterConditions (order ++ page) :=
      horder.opens (by decide) (hpage.opens.mono (List.subset_cons_self _ _))
    have hwhere : readOptional "WHERE" (Where.read .full) (filter ++ (order ++ page)) =
        .ok (q.filter, order ++ page) := by
      refine hfilter.readOptional (fun w hw tokens htokens => ?_) (hafter.afterKeyword? (by decide))
      have hops : ∀ c ∈ w.conditions, Dialect.full.Admits c.op := fun _ _ => trivial
      exact htokens.read (fun c hc => (hq.conditions w hw c hc).field) hops
        (Connective.read?_opens hafter)
    have hordered : readOptional "ORDER" (fun tokens => do
        readOrderBy (← Token.keyword "BY" tokens)) (order ++ page) = .ok (q.orderBy, page) := by
      refine horder.readOptional (fun o ho tokens htokens => ?_)
        (hpage.opens.afterKeyword? (by decide))
      exact htokens.read (hq.orderBy o ho) hpage.opens
    simp only [Soql.ofTokens, Token.keyword_cons hselect, ok_bind,
      hfields.read hq.select hfrom, Token.keyword_cons hfrom, Token.name_word hq.object,
      hwhere, hordered, hpage.read hq.limit hq.offset]
    rfl

end Soql

end CrmEmulator
