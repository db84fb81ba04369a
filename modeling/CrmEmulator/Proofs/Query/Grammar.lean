import CrmEmulator.Proofs.Query.Spacing
import CrmEmulator.Proofs.Text.Numeral
import CrmEmulator.Query.Soql

/-!
# CrmEmulator.Proofs.Query.Grammar — how queries are written

The grammar of SOQL as relations between what is meant and the tokens that say it, clause by
clause.  Keywords are words in any letter case, and where the language leaves a choice (a default
unsaid, the order of the last two clauses) there is a constructor for each.

1. `Spelled` relations from values up to whole queries, and `Soql.Written` between a query and its
   texts.
2. `Documented`: the queries that can be written.
3. Every documented query has a text: `Soql.Documented.exists_written`.
-/

namespace CrmEmulator

/-! ## Values and conditions -/

/-- The token of a value: a word in any letter case, a whole number, or a literal. -/
inductive Value.Spelled : Value → Token → Prop
  | null {t : Token} (h : t.isKeyword "null") : Value.Spelled .null t
  | boolean {b : Bool} {t : Token} (h : t.isKeyword (Value.boolText b)) :
      Value.Spelled (.boolean b) t
  | integer (n : Int64) : Value.Spelled (.integer n) (.word (Value.int64Text n))
  | text (s : String) : Value.Spelled (.text s) (.str s)

/-- The members of a list up to its closing parenthesis, each quoted or not. -/
inductive Token.Listed : List String → List Token → Prop
  | last {m : String} {t : Token} (h : t = .str m ∨ t = .word m) :
      Token.Listed [m] [t, .rparen]
  | more {m : String} {ms : List String} {t : Token} {tokens : List Token}
      (h : t = .str m ∨ t = .word m) (hms : Token.Listed ms tokens) :
      Token.Listed (m :: ms) (t :: .comma :: tokens)

/-- A field, then an operator or its keyword, then what the field is compared with. -/
inductive Condition.Spelled : Condition → List Token → Prop
  | comparison {field symbol : String} {op : CompareOp} {v : Value} {t : Token}
      (hop : CompareOp.ofSymbol? symbol = some op) (hv : v.Spelled t) :
      Condition.Spelled ⟨field, op, .value v⟩ [.word field, .op symbol, t]
  | like {field pattern : String} {like : Token} (hlike : like.isKeyword "LIKE") :
      Condition.Spelled ⟨field, .like, .value (.text pattern)⟩ [.word field, like, .str pattern]
  | isIn {field : String} {ms : List String} {inside : Token} {tokens : List Token}
      (hinside : inside.isKeyword "IN") (hms : Token.Listed ms tokens) :
      Condition.Spelled ⟨field, .isIn, .list ms⟩ (.word field :: inside :: .lparen :: tokens)
  | notIn {field : String} {ms : List String} {not inside : Token} {tokens : List Token}
      (hnot : not.isKeyword "NOT") (hinside : inside.isKeyword "IN")
      (hms : Token.Listed ms tokens) :
      Condition.Spelled ⟨field, .notIn, .list ms⟩
        (.word field :: not :: inside :: .lparen :: tokens)

def Connective.keyword : Connective → String
  | .and => "AND"
  | .or => "OR"

/-- Further conditions, each after its connective. -/
inductive Where.Continued : List (Connective × Condition) → List Token → Prop
  | nil : Where.Continued [] []
  | cons {connective : Connective} {c : Condition} {more : List (Connective × Condition)}
      {t : Token} {tokens others : List Token} (ht : t.isKeyword connective.keyword)
      (hc : c.Spelled tokens) (hmore : Where.Continued more others) :
      Where.Continued ((connective, c) :: more) (t :: tokens ++ others)

inductive Where.Spelled : Where → List Token → Prop
  | mk {first : Condition} {rest : List (Connective × Condition)} {tokens others : List Token}
      (hfirst : first.Spelled tokens) (hrest : Where.Continued rest others) :
      Where.Spelled ⟨first, rest⟩ (tokens ++ others)

/-! ## Clauses -/

/-- Ascending order may go unsaid. -/
inductive SortDirection.Spelled : SortDirection → List Token → Prop
  | unsaid : SortDirection.Spelled .asc []
  | asc {t : Token} (h : t.isKeyword "ASC") : SortDirection.Spelled .asc [t]
  | desc {t : Token} (h : t.isKeyword "DESC") : SortDirection.Spelled .desc [t]

/-- Nulls come last where nothing is said. -/
inductive NullsPosition.Spelled : NullsPosition → List Token → Prop
  | unsaid : NullsPosition.Spelled .last []
  | first {nulls t : Token} (hnulls : nulls.isKeyword "NULLS") (h : t.isKeyword "FIRST") :
      NullsPosition.Spelled .first [nulls, t]
  | last {nulls t : Token} (hnulls : nulls.isKeyword "NULLS") (h : t.isKeyword "LAST") :
      NullsPosition.Spelled .last [nulls, t]

/-- What follows `ORDER`. -/
inductive OrderBy.Spelled : OrderBy → List Token → Prop
  | mk {field : String} {direction : SortDirection} {nulls : NullsPosition} {byWord : Token}
      {ds ns : List Token} (hby : byWord.isKeyword "BY") (hdirection : direction.Spelled ds)
      (hnulls : nulls.Spelled ns) :
      OrderBy.Spelled ⟨field, direction, nulls⟩ (byWord :: .word field :: ds ++ ns)

namespace Soql

/-- The token of a selected field. -/
def fieldToken (field : String) : Token := if field = "*" then .star else .word field

/-- Fields with commas between them. -/
inductive Fields : List String → List Token → Prop
  | one (field : String) : Fields [field] [fieldToken field]
  | more (field : String) {fields : List String} {tokens : List Token} (h : Fields fields tokens) :
      Fields (field :: fields) (fieldToken field :: .comma :: tokens)

/-- `COUNT()` or fields. -/
inductive Selected : Selection → List Token → Prop
  | count {t : Token} (h : t.isKeyword "COUNT") : Selected .count [t, .lparen, .rparen]
  | fields {names : List String} {tokens : List Token} (h : Fields names tokens) :
      Selected (.fields names) tokens

/-- A clause that may be absent, else stands after its keyword. -/
inductive Clause {α : Type} (keyword : String) (Spelled : α → List Token → Prop) :
    Option α → List Token → Prop
  | absent : Clause keyword Spelled none []
  | present {x : α} {t : Token} {tokens : List Token} (ht : t.isKeyword keyword)
      (hx : Spelled x tokens) : Clause keyword Spelled (some x) (t :: tokens)

/-- The number of a clause in decimal digits. -/
def Counted (n : Nat) (tokens : List Token) : Prop := tokens = [.word (toString n)]

/-- `LIMIT` and `OFFSET` in either order. -/
inductive Paged (limit offset : Option Nat) : List Token → Prop
  | limitFirst {ls os : List Token} (hlimit : Clause "LIMIT" Counted limit ls)
      (hoffset : Clause "OFFSET" Counted offset os) : Paged limit offset (ls ++ os)
  | offsetFirst {ls os : List Token} (hlimit : Clause "LIMIT" Counted limit ls)
      (hoffset : Clause "OFFSET" Counted offset os) : Paged limit offset (os ++ ls)

/-- The tokens of a query. -/
inductive Spelled (q : Soql) : List Token → Prop
  | mk {selectWord fromWord : Token} {fields filter order page : List Token}
      (hselect : selectWord.isKeyword "SELECT") (hfields : Selected q.select fields)
      (hfrom : fromWord.isKeyword "FROM") (hfilter : Clause "WHERE" Where.Spelled q.filter filter)
      (horder : Clause "ORDER" OrderBy.Spelled q.orderBy order)
      (hpage : Paged q.limit q.offset page) :
      Spelled q
        (selectWord :: (fields ++ fromWord :: .word q.object :: (filter ++ (order ++ page))))

/-- A text of a query. -/
def Written (q : Soql) (text : String) : Prop :=
  ∃ tokens, q.Spelled tokens ∧ Token.Spaced tokens text.toList

end Soql

/-! ## Documented queries -/

/-- An operator with the kind of operand that it goes with. -/
inductive CompareOp.Fits : CompareOp → Operand → Prop
  | comparison {op : CompareOp} (h : op ∉ [.like, .isIn, .notIn]) (v : Value) :
      CompareOp.Fits op (.value v)
  | like (pattern : String) : CompareOp.Fits .like (.value (.text pattern))
  | isIn {ms : List String} (h : ms ≠ []) : CompareOp.Fits .isIn (.list ms)
  | notIn {ms : List String} (h : ms ≠ []) : CompareOp.Fits .notIn (.list ms)

/-- The values that have a token of their own: all but doubles and documents. -/
def Value.IsPlain : Value → Prop
  | .double _ | .json _ => False
  | _ => True

/-- A condition on a named field whose operand can be written after its operator. -/
structure Condition.Documented (c : Condition) : Prop where
  field : Token.isName c.field
  fits : c.op.Fits c.operand
  plain : ∀ v, c.operand = .value v → v.IsPlain

/-- The conditions without their connectives. -/
def Where.conditions (w : Where) : List Condition := w.first :: w.rest.map Prod.snd

/-- A field that can be selected: everything, or a name that is not taken for the keyword after the
selection. -/
def Soql.IsField (field : String) : Prop :=
  field = "*" ∨ Token.isName field ∧ ¬ sameWord field.toList "FROM".toList

/-- A query of the documented language: names are names, lists are not empty, and numbers fit into
64 bits. -/
structure Soql.Documented (q : Soql) : Prop where
  select : ∀ names, q.select = .fields names → names ≠ [] ∧ ∀ n ∈ names, Soql.IsField n
  object : Token.isName q.object
  conditions : ∀ w ∈ q.filter, ∀ c ∈ w.conditions, c.Documented
  orderBy : ∀ o ∈ q.orderBy, Token.isName o.field
  limit : ∀ n ∈ q.limit, n < Nat.pow 2 64
  offset : ∀ n ∈ q.offset, n < Nat.pow 2 64

/-! ## Texts of documented queries -/

theorem Token.isKeyword_word (k : String) : (word k).isKeyword k := by
  simp [isKeyword, sameWord]

/-- Some tokens fit a description, and all of them can be spelled. -/
def Token.Sayable (P : List Token → Prop) : Prop := ∃ tokens, P tokens ∧ ∀ t ∈ tokens, t.spellable

/-- Every comparison has a symbol. -/
theorem CompareOp.exists_symbol {op : CompareOp} (h : op ∉ [.like, .isIn, .notIn]) :
    ∃ symbol ∈ Token.operators, CompareOp.ofSymbol? symbol = some op := by
  cases op with
  | eq => exact ⟨"=", by decide, rfl⟩
  | ne => exact ⟨"!=", by decide, rfl⟩
  | gt => exact ⟨">", by decide, rfl⟩
  | ge => exact ⟨">=", by decide, rfl⟩
  | lt => exact ⟨"<", by decide, rfl⟩
  | le => exact ⟨"<=", by decide, rfl⟩
  | like | isIn | notIn => exact absurd (by decide) h

open Token

/-- Every plain value can be spelled. -/
theorem Value.exists_spelled {v : Value} (h : v.IsPlain) : ∃ t, v.Spelled t ∧ t.spellable := by
  cases v with
  | null => exact ⟨_, .null (isKeyword_word _), by decide⟩
  | boolean b =>
    refine ⟨_, .boolean (isKeyword_word _), ?_⟩
    cases b <;> decide
  | integer n => exact ⟨_, .integer n, spellable_integer n⟩
  | text s => exact ⟨_, .text s, rfl⟩
  | double | json => exact h.elim

/-- Every list with members can be spelled. -/
theorem Token.exists_listed {ms : List String} (h : ms ≠ []) : Sayable (Listed ms) := by
  induction ms with
  | nil => exact absurd rfl h
  | cons m ms ih =>
    cases ms with
    | nil =>
      refine ⟨_, .last (.inl rfl), ?_⟩
      simp only [List.forall_mem_cons]
      exact ⟨rfl, rfl, List.forall_mem_nil _⟩
    | cons m' ms =>
      rcases ih (List.cons_ne_nil _ _) with ⟨tokens, htokens, hspell⟩
      refine ⟨_, .more (.inl rfl) htokens, ?_⟩
      simp only [List.forall_mem_cons]
      exact ⟨rfl, rfl, hspell⟩

/-- Every documented condition can be spelled. -/
theorem Condition.Documented.exists_spelled {c : Condition} (h : c.Documented) :
    Sayable c.Spelled := by
  rcases c with ⟨field, op, operand⟩
  have hfield := spellable_name h.field
  have hfits := h.fits
  have hplain := h.plain
  cases hfits with
  | comparison hop v =>
    rcases CompareOp.exists_symbol hop with ⟨symbol, hsymbol, hread⟩
    rcases Value.exists_spelled (hplain v rfl) with ⟨t, ht, hspell⟩
    refine ⟨_, .comparison hread ht, ?_⟩
    simp only [List.forall_mem_cons]
    exact ⟨hfield, List.contains_iff_mem.mpr hsymbol, hspell, List.forall_mem_nil _⟩
  | like pattern =>
    refine ⟨_, .like (isKeyword_word _), ?_⟩
    simp only [List.forall_mem_cons]
    exact ⟨hfield, by decide, rfl, List.forall_mem_nil _⟩
  | isIn hms =>
    rcases exists_listed hms with ⟨tokens, htokens, hspell⟩
    refine ⟨_, .isIn (isKeyword_word _) htokens, ?_⟩
    simp only [List.forall_mem_cons]
    exact ⟨hfield, by decide, rfl, hspell⟩
  | notIn hms =>
    rcases exists_listed hms with ⟨tokens, htokens, hspell⟩
    refine ⟨_, .notIn (isKeyword_word _) (isKeyword_word _) htokens, ?_⟩
    simp only [List.forall_mem_cons]
    exact ⟨hfield, by decide, by decide, rfl, hspell⟩

/-- Further conditions that are documented can be spelled with their connectives. -/
theorem Where.exists_continued {more : List (Connective × Condition)}
    (h : ∀ c ∈ more.map Prod.snd, c.Documented) : Sayable (Where.Continued more) := by
  induction more with
  | nil => exact ⟨_, .nil, by simp⟩
  | cons step more ih =>
    rcases step with ⟨connective, c⟩
    simp only [List.map_cons, List.forall_mem_cons] at h
    rcases h.1.exists_spelled with ⟨tokens, htokens, hspell⟩
    rcases ih h.2 with ⟨others, hothers, hspells⟩
    have hkeyword : (word connective.keyword).spellable := by cases connective <;> decide
    refine ⟨_, .cons (isKeyword_word _) htokens hothers, ?_⟩
    simp only [List.forall_mem_cons, List.forall_mem_append]
    exact ⟨⟨hkeyword, hspell⟩, hspells⟩

/-- Conditions that are documented can be spelled. -/
theorem Where.exists_spelled {w : Where} (h : ∀ c ∈ w.conditions, c.Documented) :
    Sayable w.Spelled := by
  rcases w with ⟨first, rest⟩
  simp only [Where.conditions, List.forall_mem_cons] at h
  rcases h.1.exists_spelled with ⟨tokens, htokens, hspell⟩
  rcases Where.exists_continued h.2 with ⟨others, hothers, hspells⟩
  exact ⟨_, .mk htokens hothers, List.forall_mem_append.mpr ⟨hspell, hspells⟩⟩

/-- An order by a field with a name can be spelled. -/
theorem OrderBy.exists_spelled {o : OrderBy} (h : Token.isName o.field) : Sayable o.Spelled := by
  rcases o with ⟨field, direction, nulls⟩
  have hdirection : Sayable direction.Spelled := by
    cases direction with
    | asc => exact ⟨_, .unsaid, by decide⟩
    | desc => exact ⟨_, .desc (isKeyword_word _), by decide⟩
  have hplace : Sayable nulls.Spelled := by
    cases nulls with
    | last => exact ⟨_, .unsaid, by decide⟩
    | first => exact ⟨_, .first (isKeyword_word _) (isKeyword_word _), by decide⟩
  rcases hdirection with ⟨ds, hds, hspell⟩
  rcases hplace with ⟨ns, hns, hspells⟩
  refine ⟨_, .mk (isKeyword_word _) hds hns, ?_⟩
  simp only [List.forall_mem_cons, List.forall_mem_append]
  exact ⟨⟨by decide, spellable_name h, hspell⟩, hspells⟩

namespace Soql

/-- The token of a field can be spelled. -/
theorem spellable_fieldToken {field : String} (h : field = "*" ∨ isName field) :
    (fieldToken field).spellable := by
  unfold fieldToken
  split
  · rfl
  · next hstar => exact spellable_name (h.resolve_left hstar)

/-- Fields with commas between them can be spelled. -/
theorem exists_fields {names : List String} (hne : names ≠ [])
    (h : ∀ n ∈ names, n = "*" ∨ isName n) : Sayable (Fields names) := by
  have hspell : ∀ n ∈ names, (fieldToken n).spellable := by
    intro n hn
    exact spellable_fieldToken (h n hn)
  clear h
  induction names with
  | nil => exact absurd rfl hne
  | cons n names ih =>
    rw [List.forall_mem_cons] at hspell
    cases names with
    | nil => exact ⟨_, .one n, List.forall_mem_cons.mpr ⟨hspell.1, List.forall_mem_nil _⟩⟩
    | cons n' names =>
      rcases ih (List.cons_ne_nil _ _) hspell.2 with ⟨tokens, htokens, hspells⟩
      refine ⟨_, .more n htokens, ?_⟩
      simp only [List.forall_mem_cons]
      exact ⟨hspell.1, rfl, hspells⟩

/-- A selection of nameable fields can be spelled. -/
theorem exists_selected {s : Selection}
    (h : ∀ names, s = .fields names → names ≠ [] ∧ ∀ n ∈ names, IsField n) :
    Sayable (Selected s) := by
  cases s with
  | count => exact ⟨_, .count (isKeyword_word _), by decide⟩
  | fields names =>
    have hfields : ∀ n ∈ names, n = "*" ∨ isName n := by
      intro n hn
      exact ((h names rfl).2 n hn).imp_right And.left
    rcases exists_fields (h names rfl).1 hfields with ⟨tokens, htokens, hspell⟩
    exact ⟨tokens, .fields htokens, hspell⟩

/-- An optional part can be spelled, if what it says can. -/
theorem exists_clause {α : Type} {keyword : String} (hkeyword : (word keyword).spellable)
    {Says : α → List Token → Prop} {o : Option α} (h : ∀ x ∈ o, Sayable (Says x)) :
    Sayable (Clause keyword Says o) := by
  cases o with
  | none => exact ⟨_, .absent, by simp⟩
  | some x =>
    rcases h x rfl with ⟨tokens, htokens, hspell⟩
    exact ⟨_, .present (isKeyword_word _) htokens, by simpa [hkeyword] using hspell⟩

theorem exists_counted (n : Nat) : Sayable (Counted n) :=
  ⟨_, rfl, by simpa using spellable_count n⟩

/-- Every documented query can be spelled. -/
theorem Documented.exists_spelled {q : Soql} (h : q.Documented) : Sayable q.Spelled := by
  rcases exists_selected h.select with ⟨fields, hfields, hs₁⟩
  rcases exists_clause (by decide : (word "WHERE").spellable)
    (fun w hw => Where.exists_spelled (h.conditions w hw)) with ⟨filter, hfilter, hs₂⟩
  rcases exists_clause (by decide : (word "ORDER").spellable)
    (fun o ho => OrderBy.exists_spelled (h.orderBy o ho)) with ⟨order, horder, hs₃⟩
  rcases exists_clause (by decide : (word "LIMIT").spellable) (o := q.limit)
    (fun n _ => exists_counted n) with ⟨ls, hlimit, hs₄⟩
  rcases exists_clause (by decide : (word "OFFSET").spellable) (o := q.offset)
    (fun n _ => exists_counted n) with ⟨os, hoffset, hs₅⟩
  refine ⟨_, .mk (isKeyword_word _) hfields (isKeyword_word _) hfilter horder
    (.limitFirst hlimit hoffset), ?_⟩
  simp only [List.forall_mem_cons, List.forall_mem_append]
  exact ⟨by decide, hs₁, by decide, spellable_name h.object, hs₂, hs₃, hs₄, hs₅⟩

/-- Every documented query has a text. -/
theorem Documented.exists_written {q : Soql} (h : q.Documented) : ∃ text, q.Written text := by
  rcases h.exists_spelled with ⟨tokens, htokens, hspell⟩
  rcases exists_spaced hspell with ⟨cs, hcs⟩
  exact ⟨String.ofList cs, tokens, htokens, by simpa using hcs⟩

end Soql

end CrmEmulator
