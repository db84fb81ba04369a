import CrmEmulator.Proofs.Query.Parsing
import CrmEmulator.Query.Filter

/-!
# CrmEmulator.Proofs.Query.Acceptance — what is accepted, and what a test makes of it

1. A query that was read selects something, and each of its conditions pairs an operator with the
   kind of operand that it goes with.
2. `Value.verdict?` is the test of a value with the case that answers for mismatched operands left
   open; for the conditions of a query that was read it always has an answer.
3. `Soql.parse_documented`: all documented queries are read back from all their texts, and every
   query that is read is such that its conditions can be tested.
-/

namespace CrmEmulator

/-! ## Conditions that were read -/

theorem CompareOp.ofSymbol?_comparison {symbol : String} {op : CompareOp}
    (h : CompareOp.ofSymbol? symbol = some op) : op ∉ [.like, .isIn, .notIn] := by
  unfold CompareOp.ofSymbol? at h
  split at h <;> cases h <;> decide

/-- A list that is read has members. -/
theorem Token.members_ne_nil {tokens rest : List Token} {ms : List String}
    (h : Token.members tokens = .ok (ms, rest)) : ms ≠ [] := by
  unfold Token.members at h
  split at h
  case h_5 => cases h
  all_goals
    rw [bind_eq_ok] at h
    rcases h with ⟨_, _, ⟨⟩⟩
    exact List.cons_ne_nil _ _

theorem Token.list_ne_nil {tokens rest : List Token} {ms : List String}
    (h : Token.list tokens = .ok (ms, rest)) : ms ≠ [] := by
  rcases bind_eq_ok.mp h with ⟨_, _, hms⟩
  exact Token.members_ne_nil hms

/-- A condition without a symbol goes with the operand that was read for it. -/
theorem Condition.readSpecial_fits {field : String} {tokens rest : List Token} {c : Condition}
    (h : Condition.readSpecial field tokens = .ok (c, rest)) : c.op.Fits c.operand := by
  unfold Condition.readSpecial at h
  split at h
  · cases h
    exact .like _
  · cases h
  split at h
  · rcases bind_eq_ok.mp h with ⟨⟨ms, _⟩, hms, ⟨⟩⟩
    exact .isIn (Token.list_ne_nil hms)
  split at h
  · rcases bind_eq_ok.mp h with ⟨⟨ms, _⟩, hms, ⟨⟩⟩
    exact .notIn (Token.list_ne_nil hms)
  · cases h

/-- An operator that was read goes with its operand, and it is one of the dialect's. -/
theorem Condition.read_fits {dialect : Dialect} {tokens rest : List Token} {c : Condition}
    (h : Condition.read dialect tokens = .ok (c, rest)) :
    c.op.Fits c.operand ∧ dialect.Admits c.op := by
  rcases bind_eq_ok.mp h with ⟨⟨field, others⟩, -, h⟩
  dsimp only at h
  split at h
  · split at h
    · next hop =>
      rcases bind_eq_ok.mp h with ⟨⟨v, _⟩, _, ⟨⟩⟩
      have hcomparison := CompareOp.ofSymbol?_comparison hop
      refine ⟨.comparison hcomparison v, ?_⟩
      cases dialect with
      | full => trivial
      | comparisons => exact hcomparison
    · cases h
  · cases dialect with
    | full => exact ⟨Condition.readSpecial_fits h, trivial⟩
    | comparisons => cases h

/-- All further conditions go with their operands, and the dialect admits their operators. -/
theorem Where.readRest_fits {dialect : Dialect} {fuel : Nat} {tokens rest : List Token}
    {more : List (Connective × Condition)}
    (h : Where.readRest dialect fuel tokens = .ok (more, rest)) :
    ∀ c ∈ more.map Prod.snd, c.op.Fits c.operand ∧ dialect.Admits c.op := by
  induction fuel generalizing tokens more with
  | zero =>
    cases h
    simp
  | succ fuel ih =>
    unfold Where.readRest at h
    split at h
    · cases h
      simp
    · rcases bind_eq_ok.mp h with ⟨⟨c, _⟩, hc, h⟩
      rcases bind_eq_ok.mp h with ⟨⟨others, _⟩, hothers, ⟨⟩⟩
      exact List.forall_mem_cons.mpr ⟨Condition.read_fits hc, ih hothers⟩

/-- All conditions that are read go with their operands, and the dialect admits their operators. -/
theorem Where.read_fits {dialect : Dialect} {tokens rest : List Token} {w : Where}
    (h : Where.read dialect tokens = .ok (w, rest)) :
    ∀ c ∈ w.conditions, c.op.Fits c.operand ∧ dialect.Admits c.op := by
  rcases bind_eq_ok.mp h with ⟨⟨first, _⟩, hfirst, h⟩
  rcases bind_eq_ok.mp h with ⟨⟨more, _⟩, hmore, ⟨⟩⟩
  exact List.forall_mem_cons.mpr ⟨Condition.read_fits hfirst, Where.readRest_fits hmore⟩

/-! ## Queries that were read -/

namespace Soql

/-- Fields that are read are some. -/
theorem readFields_ne_nil {fuel : Nat} {tokens rest : List Token} {names : List String}
    (h : readFields fuel tokens = .ok (names, rest)) : names ≠ [] := by
  cases fuel with
  | zero => cases h
  | succ fuel =>
    rcases bind_eq_ok.mp h with ⟨⟨field, others⟩, -, h⟩
    dsimp only at h
    split at h
    · rcases bind_eq_ok.mp h with ⟨_, _, ⟨⟩⟩
      exact List.cons_ne_nil _ _
    · cases h
      exact List.cons_ne_nil _ _

/-- A selection that is read does not come out empty. -/
theorem readSelection_ne_nil {tokens rest : List Token} {s : Selection}
    (h : readSelection tokens = .ok (s, rest)) : s ≠ .fields [] := by
  unfold readSelection at h
  split at h
  · rcases bind_eq_ok.mp h with ⟨_, _, ⟨⟩⟩
    nofun
  · rcases bind_eq_ok.mp h with ⟨⟨names, _⟩, hnames, ⟨⟩⟩
    rintro ⟨⟩
    exact readFields_ne_nil hnames rfl

/-- An optional part that is there was read. -/
theorem readOptional_ok {α : Type} {keyword : String} {read : TokenReader α}
    {tokens rest : List Token} {o : Option α}
    (h : readOptional keyword read tokens = .ok (o, rest)) :
    ∀ x ∈ o, ∃ before, read before = .ok (x, rest) := by
  unfold readOptional at h
  split at h
  · rcases bind_eq_ok.mp h with ⟨⟨x, _⟩, hx, ⟨⟩⟩
    rintro _ ⟨⟩
    exact ⟨_, hx⟩
  · cases h
    nofun

/-- What is read has fields, and operands that go with their operators. -/
theorem ofTokens_fits {tokens : List Token} {q : Soql} (h : ofTokens tokens = .ok q) :
    q.select ≠ .fields [] ∧ ∀ w ∈ q.filter, ∀ c ∈ w.conditions, c.op.Fits c.operand := by
  -- of all that the steps have read, only the selection and the conditions matter
  simp only [ofTokens, bind_eq_ok] at h
  rcases h with ⟨_, -, ⟨select, _⟩, hselect, _, -, ⟨object, _⟩, -, ⟨filter, _⟩, hfilter,
    ⟨order, _⟩, -, ⟨page, _⟩, -, _, -, ⟨⟩⟩
  refine ⟨readSelection_ne_nil hselect, fun w hw c hc => ?_⟩
  rcases readOptional_ok hfilter w hw with ⟨_, hread⟩
  exact (Where.read_fits hread c hc).1

end Soql

/-! ## Tests -/

/-- The test of a value, with no answer where the operator does not go with the operand. -/
def Value.verdict? (actual : Value) (op : CompareOp) (operand : Operand) : Option Bool :=
  match op, operand with
  | .eq, .value expected => some (actual.coerceText == expected.coerceText)
  | .ne, .value expected => some (actual.coerceText != expected.coerceText)
  | .like, .value pattern =>
    some (!actual.isNull && Like.test actual.coerceText.toList pattern.coerceText.toList)
  | .isIn, .list texts => some (texts.contains actual.coerceText)
  | .notIn, .list texts => some (!texts.contains actual.coerceText)
  | .gt, .value expected | .ge, .value expected | .lt, .value expected | .le, .value expected =>
    match actual.coerceNumber?, expected.coerceNumber? with
    | some a, some b => some (op.holdsOf a b)
    | _, _ => some false
  | _, _ => none

/-- A test without an answer counts as failed. -/
theorem Value.satisfies_eq_verdict (actual : Value) (op : CompareOp) (operand : Operand) :
    actual.satisfies op operand = (actual.verdict? op operand).getD false := by
  cases operand with
  | list => cases op <;> rfl
  | value expected =>
    cases op with
    | gt | ge | lt | le =>
      simp only [Value.satisfies, Value.verdict?]
      cases actual.coerceNumber? <;> cases expected.coerceNumber? <;> rfl
    | _ => rfl

/-- Where operator and operand go together, the condition decides as the comparison says. -/
theorem CompareOp.Fits.verdict? {op : CompareOp} {operand : Operand} (h : op.Fits operand)
    (actual : Value) : actual.verdict? op operand = some (actual.satisfies op operand) := by
  have hanswer : (actual.verdict? op operand).isSome := by
    -- every pair that fits has a case of its own; only the numeric ones look at the values
    cases h with
    | comparison hop v =>
      cases op with
      | like | isIn | notIn => exact absurd (by decide) hop
      | eq | ne => rfl
      | gt | ge | lt | le =>
        simp only [Value.verdict?]
        split <;> rfl
    | _ => rfl
  rw [Value.satisfies_eq_verdict]
  rcases Option.isSome_iff_exists.mp hanswer with ⟨b, hb⟩
  rw [hb]
  rfl

/-! ## The language -/

namespace Soql

/-- A documented query is read from every text that writes it. -/
theorem Written.parse {q : Soql} {text : String} (h : q.Written text) (hq : q.Documented) :
    parse text = .ok q := by
  rcases h with ⟨tokens, htokens, htext⟩
  have hne : tokens ≠ [] := by
    cases htokens
    exact List.cons_ne_nil _ _
  rw [Soql.parse, htext.not_blank hne, htext.scan]
  exact htokens.ofTokens hq

/-- Every documented query can be written, and all its texts are read back as this query; a query
that is read selects something, and its conditions have an answer for every record. -/
theorem parse_documented :
    (∀ q : Soql, q.Documented →
      (∃ text, q.Written text) ∧ ∀ text, q.Written text → parse text = .ok q) ∧
    ∀ (text : String) (q : Soql), parse text = .ok q →
      q.select ≠ .fields [] ∧
        ∀ w ∈ q.filter, ∀ c ∈ w.conditions, c.op.Fits c.operand ∧
          ∀ r : Record, (r.getOrNull c.field).verdict? c.op c.operand = some (c.holds r) := by
  refine ⟨fun q hq => ⟨hq.exists_written, fun text htext => htext.parse hq⟩, fun text q h => ?_⟩
  unfold parse at h
  split at h
  · cases h
  rcases bind_eq_ok.mp h with ⟨tokens, -, htokens⟩
  rcases ofTokens_fits htokens with ⟨hselect, hfits⟩
  refine ⟨hselect, fun w hw c hc => ⟨hfits w hw c hc, fun r => ?_⟩⟩
  exact (hfits w hw c hc).verdict? _

/-- Accounts whose name begins with a quote. -/
def quotedAccounts : Soql where
  select := .fields ["Id", "*"]
  object := "Account"
  filter := some ⟨⟨"Name", .like, .value (.text "'%")⟩, []⟩
  orderBy := none
  limit := some 10
  offset := some 5

theorem quotedAccounts_documented : quotedAccounts.Documented where
  select := by
    rintro _ ⟨⟩
    refine ⟨by decide, List.forall_mem_cons.mpr ⟨.inr ⟨by decide, by decide⟩, ?_⟩⟩
    exact List.forall_mem_cons.mpr ⟨.inl rfl, List.forall_mem_nil _⟩
  object := by decide
  conditions := by
    rintro _ ⟨⟩
    refine List.forall_mem_cons.mpr ⟨⟨by decide, .like _, ?_⟩, List.forall_mem_nil _⟩
    rintro _ ⟨⟩
    trivial
  orderBy := nofun
  limit := by decide
  offset := by decide

/-- Small and capital letters, no blank after the literal, and the offset before the limit. -/
theorem quotedAccounts_written : quotedAccounts.Written
    "select Id,*\tFrom Account where Name liKe '\\'%'OFFSET 5 Limit 10\n" := by
  have hfields : Selected (.fields ["Id", "*"]) [.word "Id", .comma, .star] :=
    .fields (.more "Id" (.one "*"))
  have hcondition : Condition.Spelled ⟨"Name", .like, .value (.text "'%")⟩
      [.word "Name", .word "liKe", .str "'%"] := .like (by decide)
  have hfilter : Clause "WHERE" Where.Spelled quotedAccounts.filter
      [.word "where", .word "Name", .word "liKe", .str "'%"] :=
    .present (by decide) (.mk hcondition .nil)
  have hlimit : Clause "LIMIT" Counted (some 10) [.word "Limit", .word "10"] :=
    .present (by decide) rfl
  have hoffset : Clause "OFFSET" Counted (some 5) [.word "OFFSET", .word "5"] :=
    .present (by decide) rfl
  have hselect : (Token.word "select").isKeyword "SELECT" := by decide
  have hfrom : (Token.word "From").isKeyword "FROM" := by decide
  refine ⟨_, .mk hselect hfields hfrom hfilter .absent (.offsetFirst hlimit hoffset), ?_⟩
  exact @Token.spaced_layout ['\n'] [([], .word "select"), ([' '], .word "Id"), ([], .comma),
    ([], .star), (['\t'], .word "From"), ([' '], .word "Account"), ([' '], .word "where"),
    ([' '], .word "Name"), ([' '], .word "liKe"), ([' '], .str "'%"), ([], .word "OFFSET"),
    ([' '], .word "5"), ([' '], .word "Limit"), ([' '], .word "10")] (by decide)

/-- The text is read as the query, in whatever case its keywords are and with its last two clauses
exchanged. -/
theorem quotedAccounts_reads_back :
    parse "select Id,*\tFrom Account where Name liKe '\\'%'OFFSET 5 Limit 10\n" =
        .ok quotedAccounts ∧
      quotedAccounts.select ≠ .fields [] := by
  have hparse := (parse_documented.1 quotedAccounts quotedAccounts_documented).2 _
    quotedAccounts_written
  exact ⟨hparse, (parse_documented.2 _ _ hparse).1⟩

end Soql

end CrmEmulator
