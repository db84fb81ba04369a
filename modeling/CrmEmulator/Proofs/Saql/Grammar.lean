import CrmEmulator.Proofs.Saql.Spacing
import CrmEmulator.Saql.Reader

/-!
# CrmEmulator.Proofs.Saql.Grammar — how programs of the analytics language are written

The grammar as relations between what is meant and the tokens that say it.  Keywords are names in
any letter case, and where the language leaves a choice (a default unsaid, one thing without
parentheses, no semicolon at the end) there is a constructor for each.

1. `Spelled` relations from literals up to whole programs, and `Program.Written` between a program
   and its texts.
2. `Program.Documented`: the programs that can be written.
3. Every documented program has a text: `Program.Documented.exists_written`.
-/

namespace CrmEmulator.Saql

/-! ## Several things -/

/-- Things one after another with a separator between neighbours. -/
inductive Separated {α : Type} (Says : α → List Token → Prop) (separator : Token → Prop) :
    List α → List Token → Prop
  | one {x : α} {tokens : List Token} (h : Says x tokens) : Separated Says separator [x] tokens
  | more {x : α} {xs : List α} {t : Token} {tokens others : List Token} (h : Says x tokens)
      (ht : separator t) (hmore : Separated Says separator xs others) :
      Separated Says separator (x :: xs) (tokens ++ t :: others)

def IsComma (t : Token) : Prop := t = .comma

/-- Two ampersands or the keyword. -/
def IsAnd (t : Token) : Prop := t = .and ∨ t.isKeyword "and"

/-- One thing on its own, or several between parentheses. -/
inductive OneOrMore {α : Type} (Says : α → List Token → Prop) : List α → List Token → Prop
  | one {x : α} {tokens : List Token} (h : Says x tokens) : OneOrMore Says [x] tokens
  | listed {xs : List α} {tokens : List Token} (h : Separated Says IsComma xs tokens) :
      OneOrMore Says xs (.lparen :: (tokens ++ [.rparen]))

/-! ## Tests -/

/-- The token of a literal.  A text may stand between quotes of either kind. -/
inductive Literal : Value → Token → Prop
  | str (s : String) : Literal (.text s) (.str s)
  | field (s : String) : Literal (.text s) (.field s)
  | integer {n : Int64} {digits : String} (h : Numeral.int64? digits.toList = some n) :
      Literal (.integer n) (.number digits)

/-- The symbol of a comparison; the other operators have none. -/
def symbol? : CompareOp → Option String
  | .eq => some "=="
  | .ne => some "!="
  | .gt => some ">"
  | .ge => some ">="
  | .lt => some "<"
  | .le => some "<="
  | .like | .isIn | .notIn => none

inductive Test.Spelled : Test → List Token → Prop
  | mk {field symbol : String} {op : CompareOp} {v : Value} {t : Token}
      (hop : symbol? op = some symbol) (hv : Literal v t) :
      Test.Spelled ⟨field, op, v⟩ [.field field, .op symbol, t]

/-! ## Columns and keys -/

/-- The names of a function. -/
def Aggregate.names : Aggregate → List String
  | .avg => ["avg", "average"]
  | function => [function.name]

inductive Column.Spelled : Column → List Token → Prop
  | field (name : String) : Column.Spelled (.field name) [.field name]
  | count {k : String} {t : Token} (hk : k ∈ Aggregate.count.names) (ht : t.isKeyword k) :
      Column.Spelled (.aggregate .count none) [t, .lparen, .rparen]
  | aggregate {function : Aggregate} {k : String} {t : Token} (name : String)
      (hk : k ∈ function.names) (ht : t.isKeyword k) :
      Column.Spelled (.aggregate function (some name)) [t, .lparen, .field name, .rparen]

/-- An alias stands between quotes of either kind or without quotes. -/
inductive Alias : String → Token → Prop
  | field (s : String) : Alias s (.field s)
  | str (s : String) : Alias s (.str s)
  | name (s : String) : Alias s (.name s)

/-- A column with its alias, which may go unsaid where it is the default. -/
inductive Item.Spelled : Item → List Token → Prop
  | unsaid {column : Column} {tokens : List Token} (h : column.Spelled tokens) :
      Item.Spelled ⟨column, column.defaultAlias⟩ tokens
  | said {column : Column} {name : String} {t named : Token} {tokens : List Token}
      (h : column.Spelled tokens) (ht : t.isKeyword "as") (hnamed : Alias name named) :
      Item.Spelled ⟨column, name⟩ (tokens ++ [t, named])

/-- A field to sort by; ascending order may go unsaid. -/
inductive Key : String × SortDirection → List Token → Prop
  | unsaid (field : String) : Key (field, .asc) [.field field]
  | asc (field : String) {t : Token} (h : t.isKeyword "asc") : Key (field, .asc) [.field field, t]
  | desc (field : String) {t : Token} (h : t.isKeyword "desc") :
      Key (field, .desc) [.field field, t]

def Quoted (field : String) (tokens : List Token) : Prop := tokens = [.field field]

/-- The fields of a group; none of them are written as a keyword. -/
inductive Grouped : List String → List Token → Prop
  | all {t : Token} (h : t.isKeyword "all") : Grouped [] [t]
  | fields {fields : List String} {tokens : List Token} (h : OneOrMore Quoted fields tokens) :
      Grouped fields tokens

/-! ## Statements and programs -/

def Step.verb : Step → String
  | .filter _ => "filter"
  | .generate _ => "foreach"
  | .group _ => "group"
  | .order _ => "order"
  | .limit _ => "limit"

def Step.verbs : List String := ["filter", "foreach", "group", "order", "limit"]

theorem Step.verb_mem_verbs (s : Step) : s.verb ∈ verbs := by
  cases s <;> simp [verb, verbs]

/-- What stands in a statement after the stream that it reads. -/
inductive Step.Spelled : Step → List Token → Prop
  | filter {tests : List Test} {t : Token} {tokens : List Token} (ht : t.isKeyword "by")
      (h : Separated Test.Spelled IsAnd tests tokens) : Step.Spelled (.filter tests) (t :: tokens)
  | generate {items : List Item} {t : Token} {tokens : List Token} (ht : t.isKeyword "generate")
      (h : Separated Item.Spelled IsComma items tokens) :
      Step.Spelled (.generate items) (t :: tokens)
  | group {fields : List String} {t : Token} {tokens : List Token} (ht : t.isKeyword "by")
      (h : Grouped fields tokens) : Step.Spelled (.group fields) (t :: tokens)
  | order {keys : List (String × SortDirection)} {t : Token} {tokens : List Token}
      (ht : t.isKeyword "by") (h : OneOrMore Key keys tokens) :
      Step.Spelled (.order keys) (t :: tokens)
  | limit {n : Nat} {digits : String} (h : Numeral.count? 64 digits.toList = some n) :
      Step.Spelled (.limit n) [.number digits]

inductive Statement.Spelled : Statement → List Token → Prop
  | mk {target source : String} {step : Step} {verb : Token} {tokens : List Token}
      (hverb : verb.isKeyword step.verb) (h : step.Spelled tokens) :
      Statement.Spelled ⟨target, source, step⟩
        (.name target :: .assign :: verb :: .name source :: tokens)

/-- Statements with a semicolon after each; the last one may be left out. -/
inductive Statements : List Statement → List Token → Prop
  | nil : Statements [] []
  | last {s : Statement} {tokens : List Token} (h : s.Spelled tokens) : Statements [s] tokens
  | cons {s : Statement} {ss : List Statement} {tokens others : List Token} (h : s.Spelled tokens)
      (hmore : Statements ss others) : Statements (s :: ss) (tokens ++ .semicolon :: others)

/-- The statement that loads a dataset comes first. -/
inductive Program.Spelled : Program → List Token → Prop
  | loadOnly (loaded dataset : String) {load : Token} (hload : load.isKeyword "load") :
      Program.Spelled ⟨loaded, dataset, []⟩ [.name loaded, .assign, load, .str dataset]
  | mk (loaded dataset : String) {ss : List Statement} {load : Token} {tokens : List Token}
      (hload : load.isKeyword "load") (h : Statements ss tokens) :
      Program.Spelled ⟨loaded, dataset, ss⟩
        (.name loaded :: .assign :: load :: .str dataset :: .semicolon :: tokens)

/-- A text of a program. -/
def Program.Written (p : Program) (text : String) : Prop :=
  ∃ tokens, p.Spelled tokens ∧ Token.Spaced tokens text.toList

/-! ## Documented programs -/

/-- A comparison with a text or an integer. -/
structure Test.Documented (t : Test) : Prop where
  op : t.op ∉ [.like, .isIn, .notIn]
  value : (∃ s, t.value = .text s) ∨ ∃ n, t.value = .integer n

/-- Every function but the one that counts needs a field. -/
def Column.Documented : Column → Prop
  | .aggregate function none => function = .count
  | _ => True

/-- Lists are not empty, except that grouping by no fields makes one group. -/
def Step.Documented : Step → Prop
  | .filter tests => tests ≠ [] ∧ ∀ t ∈ tests, t.Documented
  | .generate items => items ≠ [] ∧ ∀ i ∈ items, i.column.Documented
  | .group _ => True
  | .order keys => keys ≠ []
  | .limit n => n < Nat.pow 2 64

/-- Every statement reads a stream that was assigned before it. -/
def Sourced : (known : List String) → List Statement → Prop
  | _, [] => True
  | known, s :: ss => s.source ∈ known ∧ Sourced (s.target :: known) ss

structure Program.Documented (p : Program) : Prop where
  loaded : Token.isName p.loaded.toList
  targets : ∀ s ∈ p.statements, Token.isName s.target.toList
  sourced : Sourced [p.loaded] p.statements
  steps : ∀ s ∈ p.steps, s.Documented

/-- The program that assigns every step to one and the same stream. -/
def Program.onStream (stream dataset : String) (steps : List Step) : Program :=
  ⟨stream, dataset, steps.map fun step => ⟨stream, stream, step⟩⟩

/-- A program on one stream has its steps. -/
theorem Program.steps_onStream (stream dataset : String) (steps : List Step) :
    (onStream stream dataset steps).steps = steps := by
  rw [Program.steps, onStream, List.map_map]
  exact List.map_id steps

/-- A program on one stream is documented if its steps are. -/
theorem Program.documented_onStream {stream : String} (hstream : Token.isName stream.toList)
    (dataset : String) {steps : List Step} (h : ∀ s ∈ steps, s.Documented) :
    (onStream stream dataset steps).Documented where
  loaded := hstream
  targets := by
    intro s hs
    rcases List.mem_map.mp hs with ⟨step, -, rfl⟩
    exact hstream
  sourced := by
    -- the stream is among the known ones from the beginning
    have hknown : ∀ known : List String, stream ∈ known →
        Sourced known (steps.map fun step => ⟨stream, stream, step⟩) := by
      clear h
      induction steps with
      | nil => exact fun _ _ => trivial
      | cons step steps ih => exact fun known hmem => ⟨hmem, ih _ List.mem_cons_self⟩
    exact hknown [stream] List.mem_cons_self
  steps := by rwa [steps_onStream]

/-! ## Texts of documented programs -/

open Saql.Token

theorem Token.isKeyword_name (k : String) : (name k).isKeyword k := by
  simp [isKeyword, sameWord]

/-- Some tokens fit a description, and all of them can be spelled. -/
def Sayable (P : List Token → Prop) : Prop := ∃ tokens, P tokens ∧ ∀ t ∈ tokens, t.spellable

/-- Things with separators between them can be spelled if each of them can. -/
theorem exists_separated {α : Type} {Says : α → List Token → Prop} {separator : Token → Prop}
    {t : Token} (ht : separator t) (hspell : t.spellable) {xs : List α} (hne : xs ≠ [])
    (h : ∀ x ∈ xs, Sayable (Says x)) : Sayable (Separated Says separator xs) := by
  induction xs with
  | nil => exact absurd rfl hne
  | cons x xs ih =>
    rw [List.forall_mem_cons] at h
    rcases h.1 with ⟨tokens, htokens, hs₁⟩
    cases xs with
    | nil => exact ⟨tokens, .one htokens, hs₁⟩
    | cons x' xs =>
      rcases ih (List.cons_ne_nil _ _) h.2 with ⟨others, hothers, hs₂⟩
      refine ⟨_, .more htokens ht hothers, ?_⟩
      simp only [List.forall_mem_append, List.forall_mem_cons]
      exact ⟨hs₁, hspell, hs₂⟩

/-- A list that stands without parentheses where it has one member can be spelled. -/
theorem exists_oneOrMore {α : Type} {Says : α → List Token → Prop} {xs : List α} (hne : xs ≠ [])
    (h : ∀ x ∈ xs, Sayable (Says x)) : Sayable (OneOrMore Says xs) := by
  have hcomma : IsComma .comma := rfl
  rcases exists_separated hcomma rfl hne h with ⟨tokens, htokens, hspell⟩
  refine ⟨_, .listed htokens, ?_⟩
  simp only [List.forall_mem_cons, List.forall_mem_append]
  exact ⟨rfl, hspell, rfl, List.forall_mem_nil _⟩

/-- Every comparison has a symbol. -/
theorem symbol?_of_comparison {op : CompareOp} (h : op ∉ [.like, .isIn, .notIn]) :
    ∃ symbol ∈ symbols, symbol? op = some symbol := by
  cases op with
  | like | isIn | notIn => exact absurd (by decide) h
  | _ => exact ⟨_, by decide, rfl⟩

/-- Every documented test can be spelled. -/
theorem Test.Documented.exists_spelled {t : Test} (h : t.Documented) : Sayable t.Spelled := by
  rcases t with ⟨field, op, v⟩
  rcases symbol?_of_comparison h.op with ⟨symbol, hsymbol, hop⟩
  have hliteral : ∃ u, Literal v u ∧ u.spellable := by
    rcases h.value with ⟨s, hs⟩ | ⟨n, hn⟩
    · obtain rfl : v = .text s := hs
      exact ⟨_, .str s, rfl⟩
    · obtain rfl : v = .integer n := hn
      exact ⟨_, .integer (Numeral.int64?_int64Text n), spellable_integer n⟩
  rcases hliteral with ⟨u, hu, hspell⟩
  refine ⟨_, .mk hop hu, ?_⟩
  simp only [List.forall_mem_cons]
  exact ⟨rfl, List.contains_iff_mem.mpr hsymbol, hspell, List.forall_mem_nil _⟩

theorem Aggregate.name_mem_names (function : Aggregate) : function.name ∈ function.names := by
  cases function <;> exact List.mem_cons_self

/-- Every documented column can be spelled. -/
theorem Column.Documented.exists_spelled {c : Column} (h : c.Documented) : Sayable c.Spelled := by
  cases c with
  | field name => exact ⟨_, .field name, by simp [spellable]⟩
  | aggregate function field =>
    have hfunction : (name function.name).spellable := by cases function <;> decide
    cases field with
    | none =>
      obtain rfl : function = .count := h
      exact ⟨_, .count (Aggregate.name_mem_names .count) (isKeyword_name _), by decide⟩
    | some field =>
      refine ⟨_, .aggregate field (Aggregate.name_mem_names function) (isKeyword_name _), ?_⟩
      simp only [List.forall_mem_cons]
      exact ⟨hfunction, rfl, rfl, rfl, List.forall_mem_nil _⟩

/-- An item with a documented column can be spelled. -/
theorem Item.exists_spelled {i : Item} (h : i.column.Documented) : Sayable i.Spelled := by
  rcases h.exists_spelled with ⟨tokens, htokens, hspell⟩
  refine ⟨_, .said htokens (isKeyword_name "as") (.str i.name), ?_⟩
  simp only [List.forall_mem_append, List.forall_mem_cons]
  exact ⟨hspell, by decide, rfl, List.forall_mem_nil _⟩

/-- Every documented step can be spelled. -/
theorem Step.Documented.exists_spelled {s : Step} (h : s.Documented) : Sayable s.Spelled := by
  have hcomma : IsComma .comma := rfl
  have hand : IsAnd .and := .inl rfl
  cases s with
  | filter tests =>
    rcases exists_separated hand rfl h.1 fun t ht => (h.2 t ht).exists_spelled with
      ⟨tokens, htokens, hspell⟩
    exact ⟨_, .filter (isKeyword_name "by") htokens, List.forall_mem_cons.mpr ⟨by decide, hspell⟩⟩
  | generate items =>
    rcases exists_separated hcomma rfl h.1 fun i hi => Item.exists_spelled (h.2 i hi) with
      ⟨tokens, htokens, hspell⟩
    exact ⟨_, .generate (isKeyword_name "generate") htokens,
      List.forall_mem_cons.mpr ⟨by decide, hspell⟩⟩
  | group fields =>
    have hgrouped : Sayable (Grouped fields) := by
      cases fields with
      | nil => exact ⟨_, .all (isKeyword_name "all"), by decide⟩
      | cons field fields =>
        have hquoted : ∀ f ∈ field :: fields, Sayable (Quoted f) := by
          intro f _
          exact ⟨_, rfl, List.forall_mem_cons.mpr ⟨rfl, List.forall_mem_nil _⟩⟩
        rcases exists_oneOrMore (List.cons_ne_nil _ _) hquoted with ⟨tokens, htokens, hspell⟩
        exact ⟨tokens, .fields htokens, hspell⟩
    rcases hgrouped with ⟨tokens, htokens, hspell⟩
    exact ⟨_, .group (isKeyword_name "by") htokens, List.forall_mem_cons.mpr ⟨by decide, hspell⟩⟩
  | order keys =>
    have hkeys : ∀ key ∈ keys, Sayable (Key key) := by
      rintro ⟨field, direction⟩ _
      cases direction with
      | asc => exact ⟨_, .asc field (isKeyword_name "asc"), by simp [spellable]; decide⟩
      | desc => exact ⟨_, .desc field (isKeyword_name "desc"), by simp [spellable]; decide⟩
    rcases exists_oneOrMore h hkeys with ⟨tokens, htokens, hspell⟩
    exact ⟨_, .order (isKeyword_name "by") htokens, List.forall_mem_cons.mpr ⟨by decide, hspell⟩⟩
  | limit n =>
    refine ⟨_, .limit (Numeral.count?_toString h), ?_⟩
    exact List.forall_mem_cons.mpr ⟨spellable_count n, List.forall_mem_nil _⟩

/-- A statement with names for its streams can be spelled. -/
theorem exists_statement {s : Statement} (htarget : isName s.target.toList)
    (hsource : isName s.source.toList) (h : s.step.Documented) : Sayable s.Spelled := by
  rcases h.exists_spelled with ⟨tokens, htokens, hspell⟩
  have hverbs : ∀ k ∈ Step.verbs, (name k).spellable := by decide
  have hverb := hverbs _ s.step.verb_mem_verbs
  refine ⟨_, .mk (isKeyword_name _) htokens, ?_⟩
  simp only [List.forall_mem_cons]
  exact ⟨htarget, rfl, hverb, hsource, hspell⟩

/-- The statements of a documented program can be spelled. -/
theorem exists_statements {known : List String} {ss : List Statement} (hsourced : Sourced known ss)
    (hknown : ∀ stream ∈ known, isName stream.toList)
    (htargets : ∀ s ∈ ss, isName s.target.toList) (h : ∀ s ∈ ss, s.step.Documented) :
    Sayable (Statements ss) := by
  induction ss generalizing known with
  | nil => exact ⟨_, .nil, List.forall_mem_nil _⟩
  | cons s ss ih =>
    rw [List.forall_mem_cons] at htargets h
    rcases exists_statement htargets.1 (hknown _ hsourced.1) h.1 with ⟨tokens, htokens, hs₁⟩
    rcases ih hsourced.2 (List.forall_mem_cons.mpr ⟨htargets.1, hknown⟩) htargets.2 h.2 with
      ⟨others, hothers, hs₂⟩
    refine ⟨_, .cons htokens hothers, ?_⟩
    simp only [List.forall_mem_append, List.forall_mem_cons]
    exact ⟨hs₁, rfl, hs₂⟩

/-- Every documented program has a text. -/
theorem Program.Documented.exists_written {p : Program} (h : p.Documented) :
    ∃ text, p.Written text := by
  have hsteps : ∀ s ∈ p.statements, s.step.Documented := by
    intro s hs
    exact h.steps _ (List.mem_map_of_mem hs)
  have hknown : ∀ stream ∈ [p.loaded], isName stream.toList :=
    List.forall_mem_cons.mpr ⟨h.loaded, List.forall_mem_nil _⟩
  rcases exists_statements h.sourced hknown h.targets hsteps with ⟨tokens, htokens, hspell⟩
  have hprogram : p.Spelled _ := .mk p.loaded p.dataset (isKeyword_name "load") htokens
  have hall : ∀ t ∈ name p.loaded :: .assign :: name "load" :: .str p.dataset :: .semicolon ::
      tokens, t.spellable := by
    simp only [List.forall_mem_cons]
    exact ⟨h.loaded, rfl, by decide, rfl, rfl, hspell⟩
  rcases exists_spaced hall with ⟨cs, hcs, -⟩
  exact ⟨String.ofList cs, _, hprogram, by simpa using hcs⟩

end CrmEmulator.Saql
