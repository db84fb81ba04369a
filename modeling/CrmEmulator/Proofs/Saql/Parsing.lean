import CrmEmulator.Proofs.Outcome
import CrmEmulator.Proofs.Saql.Grammar

/-!
# CrmEmulator.Proofs.Saql.Parsing — written programs are read back

Each reader takes the tokens of what it reads and leaves the rest.  An alias or a direction that
goes unsaid is told from one that is said by a keyword, so nothing that may follow begins with one:
`NoKeyword`.

1. `Separated.read` and `OneOrMore.read`: lists, whatever their elements are.
2. `Step.Spelled.read` and `Statements.read`: one step, then by induction all of them.
3. `Program.programs_read_back`: every documented program can be written, and all its texts are
   read back as this program.
-/

namespace CrmEmulator.Saql

/-! ## Keywords -/

/-- A keyword is a name, spelled in any case. -/
theorem Token.exists_of_isKeyword {t : Token} {k : String} (h : t.isKeyword k) :
    ∃ text, t = .name text ∧ sameWord text.toList k.toList := by
  cases t with
  | name text => exact ⟨text, rfl, h⟩
  | _ => cases h

theorem afterKeyword?_cons {t : Token} {k : String} (h : t.isKeyword k) (rest : List Token) :
    afterKeyword? k (t :: rest) = some rest := by
  simp [afterKeyword?, h]

theorem keyword_cons {t : Token} {k : String} (h : t.isKeyword k) (rest : List Token) :
    keyword k (t :: rest) = .ok rest := by
  simp [keyword, afterKeyword?, h]

/-- A keyword in small letters is what is left when letter case is left out. -/
theorem lowercase_of_sameWord {text k : String} (h : sameWord text.toList k.toList)
    (hk : k.toList.map Char.toLower = k.toList) :
    String.ofList (text.toList.map Char.toLower) = k := by
  rw [sameWord, beq_iff_eq, hk] at h
  rw [h, String.ofList_toList]

/-- Whatever comes first, it is no keyword. -/
def NoKeyword (tokens : List Token) : Prop := ∀ k, afterKeyword? k tokens = none

/-- A statement ends here. -/
inductive Ends : List Token → Prop
  | nil : Ends []
  | semicolon (rest : List Token) : Ends (.semicolon :: rest)

/-- No list goes on at the end of a statement, and nothing that may go unsaid is said there. -/
theorem Ends.follows {rest : List Token} (h : Ends rest) :
    NoKeyword rest ∧ afterComma? rest = none ∧ afterAnd? rest = none := by
  cases h with
  | nil => exact ⟨fun _ => rfl, rfl, rfl⟩
  | semicolon => exact ⟨fun _ => rfl, rfl, rfl⟩

/-- A stream is read from its name, if it is known. -/
theorem readStream_cons {known : List String} {source : String} (h : source ∈ known)
    (rest : List Token) : readStream known (.name source :: rest) = .ok (source, rest) := by
  have hknown : known.contains source = true := List.contains_iff_mem.mpr h
  simp only [readStream, readName, ok_bind, hknown, if_true]
  rfl

/-! ## Several things -/

/-- Separated things have at least as many tokens. -/
theorem Separated.length_le {α : Type} {Says : α → List Token → Prop} {separator : Token → Prop}
    {xs : List α} {tokens : List Token} (h : Separated Says separator xs tokens)
    (rest : List Token) : xs.length ≤ (tokens ++ rest).length + 1 := by
  induction h with
  | one => simp
  | more _ _ _ ih =>
    simp only [List.length_cons, List.length_append] at ih ⊢
    omega

section lists
variable {α : Type} {Says : α → List Token → Prop} {separator : Token → Prop} {reader : Reader α}
  {Follows : List Token → Prop}

/-- If every single thing is read where something follows that may follow it, then so are several
of them; `Follows` has to admit the separator. -/
theorem Separated.read {afterSeparator? : List Token → Option (List Token)} {xs : List α}
    {tokens : List Token} (h : Separated Says separator xs tokens)
    (hread : ∀ x tokens, Says x tokens → ∀ rest, Follows rest →
      reader (tokens ++ rest) = .ok (x, rest))
    (hseparator : ∀ t, separator t → ∀ rest,
      Follows (t :: rest) ∧ afterSeparator? (t :: rest) = some rest)
    {rest : List Token} (hfollows : Follows rest) (hend : afterSeparator? rest = none) {fuel : Nat}
    (hfuel : xs.length ≤ fuel + 1) :
    readSeparated reader afterSeparator? fuel (tokens ++ rest) = .ok (xs, rest) := by
  induction h generalizing fuel with
  | one h =>
    cases fuel with
    | zero =>
      simp only [readSeparated, hread _ _ h rest hfollows, ok_bind]
      rfl
    | succ fuel =>
      simp only [readSeparated, hread _ _ h rest hfollows, ok_bind, hend]
      rfl
  | more h ht hmore ih =>
    rename_i x xs t tokens others
    rcases hseparator t ht (others ++ rest) with ⟨hnext, hafter⟩
    cases fuel with
    | zero =>
      -- there are at least two elements
      cases hmore <;> simp at hfuel
    | succ fuel =>
      simp only [List.length_cons, Nat.add_le_add_iff_right] at hfuel
      simp only [List.append_assoc, List.cons_append, readSeparated, hread _ _ h _ hnext, ok_bind,
        hafter, ih hfuel]
      rfl

/-- A list is read if each of its members is. -/
theorem Separated.readList {xs : List α} {tokens : List Token}
    (h : Separated Says IsComma xs tokens)
    (hread : ∀ x tokens, Says x tokens → ∀ rest, NoKeyword rest →
      reader (tokens ++ rest) = .ok (x, rest))
    {rest : List Token} (hrest : NoKeyword rest) (hend : afterComma? rest = none) :
    Saql.readList reader (tokens ++ rest) = .ok (xs, rest) := by
  have hseparator : ∀ t, IsComma t → ∀ rest,
      NoKeyword (t :: rest) ∧ afterComma? (t :: rest) = some rest := by
    rintro t rfl rest
    exact ⟨fun _ => rfl, rfl⟩
  exact h.read hread hseparator hrest hend (h.length_le rest)

/-- One thing begins with no parenthesis, so it is not taken for several. -/
theorem OneOrMore.read {xs : List α} {tokens : List Token} (h : OneOrMore Says xs tokens)
    (hread : ∀ x tokens, Says x tokens → ∀ rest, NoKeyword rest →
      reader (tokens ++ rest) = .ok (x, rest))
    (hfield : ∀ x tokens, Says x tokens → ∃ field others, tokens = .field field :: others)
    {rest : List Token} (hrest : NoKeyword rest) :
    readOneOrMore reader (tokens ++ rest) = .ok (xs, rest) := by
  cases h with
  | one h =>
    -- the first token is a field, so the other branch of the reader is taken
    have hone := hread _ _ h rest hrest
    rcases hfield _ _ h with ⟨field, others, rfl⟩
    rw [List.cons_append] at hone
    simp only [readOneOrMore, List.cons_append, hone, ok_bind]
    rfl
  | listed h =>
    rename_i tokens
    have hclose : NoKeyword (.rparen :: rest) := fun _ => rfl
    have hlist := h.readList hread hclose rfl
    simp only [readOneOrMore, List.cons_append, List.append_assoc, List.nil_append, hlist, ok_bind]
    rfl

end lists

/-! ## Tests -/

/-- A literal is read from its token. -/
theorem Literal.read {v : Value} {t : Token} (h : Literal v t) (rest : List Token) :
    readLiteral (t :: rest) = .ok (v, rest) := by
  cases h with
  | str s => rfl
  | field s => rfl
  | integer h =>
    rename_i n digits
    -- a number is only taken for a double if there is a point in it
    have hpoint : '.' ∉ digits.toList := by
      intro hmem
      rcases Numeral.sign_or_isDigit_of_int64? h hmem with h | h | h <;> cases h
    have hvalue : numberValue digits = .ok (.integer n) := by
      simp [numberValue, hpoint, h]
    simp only [readLiteral, hvalue, ok_bind]
    rfl

/-- An operator is read from its symbol. -/
theorem readOperator_symbol {op : CompareOp} {symbol : String} (h : symbol? op = some symbol)
    (rest : List Token) : readOperator (.op symbol :: rest) = .ok (op, rest) := by
  cases op <;> cases h <;> rfl

/-- A test is read from the tokens that spell it. -/
theorem Test.Spelled.read {t : Test} {tokens : List Token} (h : t.Spelled tokens)
    (rest : List Token) : readTest (tokens ++ rest) = .ok (t, rest) := by
  cases h with
  | mk hop hv =>
    simp only [readTest, List.cons_append, List.nil_append, readField, ok_bind,
      readOperator_symbol hop, hv.read]
    rfl

/-! ## Columns and keys -/

/-- An aggregate is read from any of its names, in any case. -/
theorem Aggregate.ofName?_of_isKeyword {function : Aggregate} {text k : String}
    (hk : k ∈ function.names) (h : sameWord text.toList k.toList) :
    ofName? text = some function := by
  -- all names are in small letters, so `text` in small letters is one of them
  have hlower : ∀ k ∈ function.names, k.toList.map Char.toLower = k.toList := by
    cases function <;> decide
  unfold ofName?
  rw [lowercase_of_sameWord h (hlower k hk)]
  cases function with
  | avg =>
    simp only [names, List.mem_cons, List.not_mem_nil, or_false] at hk
    rcases hk with rfl | rfl <;> rfl
  | count | sum | min | max =>
    obtain rfl := List.mem_singleton.mp hk
    rfl

/-- A column is read from the tokens that spell it. -/
theorem Column.Spelled.read {c : Column} {tokens : List Token} (h : c.Spelled tokens)
    (rest : List Token) : readColumn (tokens ++ rest) = .ok (c, rest) := by
  cases h with
  | field name => rfl
  | count hk ht =>
    rcases Token.exists_of_isKeyword ht with ⟨text, rfl, htext⟩
    have hname := Aggregate.ofName?_of_isKeyword hk htext
    simp only [List.cons_append, List.nil_append, readColumn, hname]
    rfl
  | aggregate field hk ht =>
    rcases Token.exists_of_isKeyword ht with ⟨text, rfl, htext⟩
    have hname := Aggregate.ofName?_of_isKeyword hk htext
    simp only [List.cons_append, List.nil_append, readColumn, hname]
    rfl

/-- An alias is read from its token. -/
theorem Alias.read {name : String} {t : Token} (h : Alias name t) (rest : List Token) :
    readAlias (t :: rest) = .ok (name, rest) := by
  cases h <;> rfl

/-- An item is read, with its alias or with the one that its column gives it. -/
theorem Item.Spelled.read {i : Item} {tokens : List Token} (h : i.Spelled tokens)
    {rest : List Token} (hrest : NoKeyword rest) : readItem (tokens ++ rest) = .ok (i, rest) := by
  cases h with
  | unsaid h =>
    simp only [readItem, h.read, ok_bind, hrest "as"]
    rfl
  | said h ht hnamed =>
    simp only [readItem, List.append_assoc, List.cons_append, List.nil_append, h.read, ok_bind,
      afterKeyword?_cons ht, hnamed.read]
    rfl

/-- A key is read, with its direction or ascending. -/
theorem Key.read {key : String × SortDirection} {tokens : List Token} (h : Key key tokens)
    {rest : List Token} (hrest : NoKeyword rest) : readKey (tokens ++ rest) = .ok (key, rest) := by
  cases h with
  | unsaid field =>
    simp only [readKey, List.cons_append, List.nil_append, readField, ok_bind, hrest "desc",
      hrest "asc"]
    rfl
  | asc field ht =>
    rename_i t
    -- the keyword is not the one for the other direction
    have hdesc : afterKeyword? "desc" (t :: rest) = none := by
      rcases Token.exists_of_isKeyword ht with ⟨text, rfl, htext⟩
      have hne := sameWord_eq_false htext (by decide : sameWord _ "desc".toList = false)
      simp only [afterKeyword?, Token.isKeyword, hne]
      rfl
    simp only [readKey, List.cons_append, List.nil_append, readField, ok_bind, hdesc,
      afterKeyword?_cons ht]
    rfl
  | desc field ht =>
    simp only [readKey, List.cons_append, List.nil_append, readField, ok_bind,
      afterKeyword?_cons ht]
    rfl

/-- The fields of a grouping are read. -/
theorem Grouped.read {fields : List String} {tokens : List Token} (h : Grouped fields tokens)
    {rest : List Token} (hrest : NoKeyword rest) :
    readGroupFields (tokens ++ rest) = .ok (fields, rest) := by
  cases h with
  | all ht => simp only [readGroupFields, List.cons_append, List.nil_append, afterKeyword?_cons ht]
  | fields h =>
    -- a field or a parenthesis comes first, so the list is not taken for the keyword
    have hnone : afterKeyword? "all" (tokens ++ rest) = none := by
      cases h with
      | one h =>
        obtain rfl := h
        rfl
      | listed => rfl
    have hone : ∀ f tokens, Quoted f tokens → ∀ rest, NoKeyword rest →
        readField (tokens ++ rest) = .ok (f, rest) := by
      rintro f _ rfl rest _
      rfl
    have hread := h.read hone (fun f _ hf => ⟨f, [], hf⟩) hrest
    simp only [readGroupFields, hnone, hread]

/-! ## Steps -/

/-- The tests of a filter are read. -/
theorem separated_tests_read {tests : List Test} {tokens : List Token}
    (h : Separated Test.Spelled IsAnd tests tokens) {rest : List Token}
    (hend : afterAnd? rest = none) :
    readSeparated readTest afterAnd? (tokens ++ rest).length (tokens ++ rest) =
      .ok (tests, rest) := by
  -- a test ends with its literal, so anything may follow it
  have hread : ∀ t tokens, Test.Spelled t tokens → ∀ rest, True →
      readTest (tokens ++ rest) = .ok (t, rest) := by
    intro t tokens ht rest _
    exact ht.read rest
  have hseparator : ∀ t, IsAnd t → ∀ rest, True ∧ afterAnd? (t :: rest) = some rest := by
    rintro t (rfl | ht) rest
    · exact ⟨trivial, rfl⟩
    · rcases Token.exists_of_isKeyword ht with ⟨text, rfl, -⟩
      exact ⟨trivial, afterKeyword?_cons ht rest⟩
  exact h.read hread hseparator trivial hend (h.length_le rest)

/-- A step is read after its verb and the stream that it reads, up to the end of the statement. -/
theorem Step.Spelled.read {s : Step} {tokens : List Token} (h : s.Spelled tokens)
    {known : List String} {source : String} (hsource : source ∈ known) {rest : List Token}
    (hrest : Ends rest) :
    readStep known s.verb (.name source :: (tokens ++ rest)) = .ok ((source, s), rest) := by
  -- what follows a step continues none of its lists
  rcases hrest.follows with ⟨hnone, hcomma, hand⟩
  cases h with
  | filter ht h =>
    simp only [readStep, verb, List.cons_append, readStream_cons hsource, ok_bind, keyword_cons ht,
      separated_tests_read h hand]
    rfl
  | generate ht h =>
    have hitems := h.readList (fun _ _ hi _ hrest => hi.read hrest) hnone hcomma
    simp only [readStep, verb, List.cons_append, readStream_cons hsource, ok_bind, keyword_cons ht,
      hitems]
    rfl
  | group ht h =>
    simp only [readStep, verb, List.cons_append, readStream_cons hsource, ok_bind, keyword_cons ht,
      h.read hnone]
    rfl
  | order ht h =>
    have hfield : ∀ key tokens, Key key tokens →
        ∃ field others, tokens = .field field :: others := by
      intro key tokens hkey
      cases hkey <;> exact ⟨_, _, rfl⟩
    have hkeys := h.read (fun _ _ hk _ hrest => hk.read hrest) hfield hnone
    simp only [readStep, verb, List.cons_append, readStream_cons hsource, ok_bind, keyword_cons ht,
      hkeys]
    rfl
  | limit h =>
    simp only [readStep, verb, List.cons_append, List.nil_append, readStream_cons hsource, ok_bind,
      readLimit, h]
    rfl

/-! ## Statements and programs -/

/-- An assignment is read up to its verb. -/
theorem readAssignment_cons {k : String} (hk : k.toList.map Char.toLower = k.toList) {t : Token}
    (ht : t.isKeyword k) (target : String) (rest : List Token) :
    readAssignment (.name target :: .assign :: t :: rest) = .ok ((target, k), rest) := by
  rcases Token.exists_of_isKeyword ht with ⟨text, rfl, htext⟩
  simp only [readAssignment, readName, mark, ok_bind, if_true, lowercase_of_sameWord htext hk]
  rfl

/-- A statement is read, and reading goes on with its target among the known streams. -/
theorem Statement.Spelled.read {s : Statement} {tokens : List Token} (h : s.Spelled tokens)
    {known : List String} (hsource : s.source ∈ known) {rest : List Token} (hrest : Ends rest)
    (fuel : Nat) :
    readStatements (fuel + 1) known (tokens ++ rest) = (do
      let rest ← readEnd rest
      return s :: (← readStatements fuel (s.target :: known) rest)) := by
  cases h with
  | mk hverb h =>
    rename_i target source step verb tokens
    -- no verb of a step is taken for a second load
    have hverbs : ∀ k ∈ Step.verbs, k.toList.map Char.toLower = k.toList ∧ k ≠ "load" := by decide
    rcases hverbs _ step.verb_mem_verbs with ⟨hlower, hload⟩
    have hassign := readAssignment_cons hlower hverb target (.name source :: (tokens ++ rest))
    simp only [List.cons_append, readStatements, hassign, ok_bind, hload, if_false,
      h.read hsource hrest]

/-- Statements have at least as many tokens. -/
theorem Statements.length_le {ss : List Statement} {tokens : List Token} (h : Statements ss tokens) :
    ss.length ≤ tokens.length := by
  induction h with
  | nil => exact Nat.le_refl _
  | last h =>
    cases h
    simp
  | cons _ _ ih =>
    simp only [List.length_cons, List.length_append]
    omega

/-- Where nothing is left, there are no more statements. -/
theorem readStatements_nil (fuel : Nat) (known : List String) :
    readStatements fuel known [] = .ok [] := by
  cases fuel <;> rfl

/-- Statements are read from the tokens that spell them, if their sources are known. -/
theorem Statements.read {ss : List Statement} {tokens : List Token} (h : Statements ss tokens)
    {known : List String} (hsourced : Sourced known ss) {fuel : Nat} (hfuel : ss.length ≤ fuel) :
    readStatements fuel known tokens = .ok ss := by
  induction h generalizing known fuel with
  | nil => exact readStatements_nil fuel known
  | last h =>
    -- the end of the text stands for the semicolon
    cases fuel with
    | zero => simp at hfuel
    | succ fuel =>
      have hread := h.read hsourced.1 .nil fuel
      rw [List.append_nil] at hread
      simp only [hread, readEnd, ok_bind, readStatements_nil]
      rfl
  | cons h _ ih =>
    cases fuel with
    | zero => simp at hfuel
    | succ fuel =>
      simp only [List.length_cons, Nat.add_le_add_iff_right] at hfuel
      rw [h.read hsourced.1 (.semicolon _)]
      simp only [readEnd, ok_bind, ih hsourced.2 hfuel]
      rfl

namespace Program

/-- A program is read from the tokens that spell it. -/
theorem Spelled.ofTokens {p : Program} {tokens : List Token} (h : p.Spelled tokens)
    (hsourced : Sourced [p.loaded] p.statements) : Program.ofTokens tokens = .ok p := by
  cases h with
  | loadOnly loaded dataset hload =>
    have hassign := readAssignment_cons (by decide) hload loaded [.str dataset]
    simp only [Program.ofTokens, hassign, ok_bind, readEnd, readStatements_nil]
    rfl
  | mk loaded dataset hload h =>
    rename_i ss load tokens
    have hassign := readAssignment_cons (by decide) hload loaded
      (.str dataset :: .semicolon :: tokens)
    have hread := h.read hsourced h.length_le
    simp only [Program.ofTokens, hassign, ok_bind, readEnd, hread]
    rfl

/-- A documented program is read from every text that writes it. -/
theorem Written.parse {p : Program} {text : String} (h : p.Written text) (hp : p.Documented) :
    parse text = .ok p := by
  rcases h with ⟨tokens, htokens, htext⟩
  rw [Program.parse, htext.scan]
  exact htokens.ofTokens hp.sourced

/-- Every documented program can be written, and all its texts are read back as this program; and
whatever the dataset and the steps are, there is a program of them on a single stream. -/
theorem programs_read_back :
    (∀ p : Program, p.Documented →
      (∃ text, p.Written text) ∧ ∀ text, p.Written text → parse text = .ok p) ∧
    ∀ (stream dataset : String) (steps : List Step), Token.isName stream.toList →
      (∀ s ∈ steps, s.Documented) →
        (onStream stream dataset steps).Documented ∧
          (onStream stream dataset steps).dataset = dataset ∧
          (onStream stream dataset steps).steps = steps := by
  constructor
  · intro p hp
    exact ⟨hp.exists_written, fun text htext => htext.parse hp⟩
  · intro stream dataset steps hstream hsteps
    exact ⟨documented_onStream hstream dataset hsteps, rfl, steps_onStream stream dataset steps⟩

/-- Steps with a quote in a name, a negative number and an alias that goes unsaid. -/
def salesSteps : List Step := [
  .filter [⟨"Owner's", .ne, .text "a\\b"⟩, ⟨"Amount", .ge, .integer (-5)⟩],
  .generate [⟨.aggregate .avg (some "Amount"), "avg_Amount"⟩, ⟨.aggregate .count none, "n"⟩],
  .limit 3]

theorem salesSteps_documented : ∀ s ∈ salesSteps, s.Documented := by
  have hfirst : Test.Documented ⟨"Owner's", .ne, .text "a\\b"⟩ := ⟨by decide, .inl ⟨_, rfl⟩⟩
  have hsecond : Test.Documented ⟨"Amount", .ge, .integer (-5)⟩ := ⟨by decide, .inr ⟨_, rfl⟩⟩
  have hlimit : 3 < Nat.pow 2 64 := by decide
  simp only [salesSteps, List.forall_mem_cons, Step.Documented]
  exact ⟨⟨List.cons_ne_nil _ _, hfirst, hsecond, List.forall_mem_nil _⟩,
    ⟨List.cons_ne_nil _ _, trivial, rfl, List.forall_mem_nil _⟩, hlimit, List.forall_mem_nil _⟩

/-- A text with small and capital letters, little white space and no semicolon at the end. -/
def salesText : String :=
  "q=LOAD\"Q1 \\\"sales\\\"\";q = filter q By 'Owner\\'s'!=\"a\\\\b\"And'Amount'>=-5;" ++
    "q =Foreach q generate Average('Amount'),count()AS n;q=limit q 3\n"

/-- The tokens of the text, each with the white space before it. -/
def salesPieces : List (List Char × Token) := [
  ([], .name "q"), ([], .assign), ([], .name "LOAD"),
  ([], .str "Q1 \"sales\""), ([], .semicolon), ([], .name "q"), ([' '], .assign),
  ([' '], .name "filter"), ([' '], .name "q"), ([' '], .name "By"), ([' '], .field "Owner's"),
  ([], .op "!="), ([], .str "a\\b"), ([], .name "And"), ([], .field "Amount"), ([], .op ">="),
  ([], .number "-5"), ([], .semicolon), ([], .name "q"), ([' '], .assign), ([], .name "Foreach"),
  ([' '], .name "q"), ([' '], .name "generate"), ([' '], .name "Average"), ([], .lparen),
  ([], .field "Amount"), ([], .rparen), ([], .comma), ([], .name "count"), ([], .lparen),
  ([], .rparen), ([], .name "AS"), ([' '], .name "n"), ([], .semicolon), ([], .name "q"),
  ([], .assign), ([], .name "limit"), ([' '], .name "q"), ([' '], .number "3")]

theorem salesText_written : (onStream "q" "Q1 \"sales\"" salesSteps).Written salesText := by
  -- what the tokens say, step by step
  have hfirst : Test.Spelled ⟨"Owner's", .ne, .text "a\\b"⟩
      [.field "Owner's", .op "!=", .str "a\\b"] := .mk rfl (.str _)
  have hsecond : Test.Spelled ⟨"Amount", .ge, .integer (-5)⟩
      [.field "Amount", .op ">=", .number "-5"] := .mk rfl (.integer (by decide))
  have hand : IsAnd (.name "And") := .inr (by decide)
  have hby : (Token.name "By").isKeyword "by" := by decide
  have hfilter := Step.Spelled.filter hby (.more hfirst hand (.one hsecond))
  have haverage : (Token.name "Average").isKeyword "average" := by decide
  have hamount : Item.Spelled ⟨.aggregate .avg (some "Amount"), "avg_Amount"⟩
      [.name "Average", .lparen, .field "Amount", .rparen] :=
    .unsaid (.aggregate "Amount" (List.mem_cons_of_mem _ List.mem_cons_self) haverage)
  have hcount : (Token.name "count").isKeyword "count" := by decide
  have has : (Token.name "AS").isKeyword "as" := by decide
  have hn : Item.Spelled ⟨.aggregate .count none, "n"⟩
      [.name "count", .lparen, .rparen, .name "AS", .name "n"] :=
    .said (.count List.mem_cons_self hcount) has (.name "n")
  have hgenerate := Step.Spelled.generate (Token.isKeyword_name "generate")
    (.more hamount rfl (.one hn))
  have hlimit : Step.Spelled (.limit 3) [.number "3"] := .limit (by decide)
  have hforeach : (Token.name "Foreach").isKeyword "foreach" := by decide
  have hload : (Token.name "LOAD").isKeyword "load" := by decide
  have hstatements : Statements (onStream "q" "Q1 \"sales\"" salesSteps).statements _ :=
    .cons (.mk (Token.isKeyword_name "filter") hfilter)
      (.cons (.mk hforeach hgenerate) (.last (.mk (Token.isKeyword_name "limit") hlimit)))
  refine ⟨_, .mk "q" "Q1 \"sales\"" hload hstatements, ?_⟩
  -- how they are laid out
  have htext : salesText.toList = Token.layout ['\n'] salesPieces := by decide +kernel
  rw [htext]
  exact @Token.spaced_layout ['\n'] salesPieces (by decide +kernel)

/-- The text is read as the steps that it spells. -/
theorem salesText_reads_back :
    ∃ p, parse salesText = .ok p ∧ p.dataset = "Q1 \"sales\"" ∧ p.steps = salesSteps := by
  have hstream : Token.isName "q".toList := by decide
  rcases programs_read_back.2 "q" "Q1 \"sales\"" salesSteps hstream salesSteps_documented with
    ⟨hdocumented, hdataset, hsteps⟩
  have hparse := (programs_read_back.1 _ hdocumented).2 salesText salesText_written
  exact ⟨_, hparse, hdataset, hsteps⟩

end Program

end CrmEmulator.Saql
