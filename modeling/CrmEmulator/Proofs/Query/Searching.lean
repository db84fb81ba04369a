import CrmEmulator.Proofs.Query.Acceptance
import CrmEmulator.Proofs.Query.SearchGrammar
import CrmEmulator.Proofs.Text.Trimming

/-!
# CrmEmulator.Proofs.Query.Searching — written searches are read back

1. `Returning.Spelled.read`: what stands between parentheses.  Whether fields, a clause or nothing
   comes first shows in the first token, and so does where the fields and the conditions end:
   `Token.Closes`.
2. `Listed.read` and `Spelled.ofTokens`: all objects, by induction, then the whole search.
3. `Returning.Compares`: what was read compares only, object by object.
4. `Sosl.searches_read_back`: all documented searches are read back from all their texts, and every
   search that is read compares only.
-/

namespace CrmEmulator

open Token

/-! ## Reading between parentheses -/

/-- The closing parenthesis comes first, or one of some keywords. -/
inductive Token.Closes (keywords : List String) : List Token → Prop
  | rparen (rest : List Token) : Token.Closes keywords (.rparen :: rest)
  | keyword {k : String} (hk : k ∈ keywords) {t : Token} (ht : t.isKeyword k) (rest : List Token) :
      Token.Closes keywords (t :: rest)

/-- No other keyword comes first there. -/
theorem Token.Closes.afterKeyword? {keywords : List String} {tokens : List Token}
    (h : Closes keywords tokens) {k : String}
    (hne : ∀ other ∈ keywords, sameWord other.toList k.toList = false) :
    afterKeyword? k tokens = none := by
  cases h with
  | rparen => rfl
  | keyword hk ht rest => exact afterKeyword?_cons_other ht k (hne _ hk) rest

/-- An optional part is closed by what follows it, or closes by its own keyword. -/
theorem Soql.Clause.closes {α : Type} {keyword : String} {Says : α → List Token → Prop}
    {o : Option α} {tokens : List Token} (h : Clause keyword Says o tokens)
    {keywords : List String} (hkeyword : keyword ∈ keywords) {rest : List Token}
    (hrest : Closes keywords rest) : Closes keywords (tokens ++ rest) := by
  cases h with
  | absent => exact hrest
  | present ht _ => exact .keyword hkeyword ht _

/-- The clauses in parentheses after the fields. -/
def Returning.clauses : List String := ["WHERE", "LIMIT"]

namespace Sosl

/-- One field is read, and after a comma the next. -/
theorem readFields_cons {field : String} (h : field = "*" ∨ Token.isName field) (fuel : Nat)
    (tokens : List Token) :
    readFields (fuel + 1) (Soql.fieldToken field :: tokens) =
      match tokens with
      | .comma :: rest => do
        let (fields, rest) ← readFields fuel rest
        return (field :: fields, rest)
      | _ => .ok ([field], tokens) := by
  unfold Soql.fieldToken
  split
  · next hstar =>
    subst hstar
    rfl
  · next hstar =>
    have hname := Token.name_word (h.resolve_left hstar) "field name in RETURNING" tokens
    simp only [readFields, hname, ok_bind]
    rfl

/-- The last field is read where something closes. -/
theorem readFields_last {field : String} (h : field = "*" ∨ Token.isName field) (fuel : Nat)
    {keywords : List String} {rest : List Token} (hrest : Closes keywords rest) :
    readFields (fuel + 1) (Soql.fieldToken field :: rest) = .ok ([field], rest) := by
  rw [readFields_cons h]
  cases hrest with
  | rparen => rfl
  | keyword _ ht =>
    -- a keyword is a word, so no comma goes on with the list
    rcases Token.exists_of_isKeyword ht with ⟨text, rfl, -⟩
    rfl

/-- Fields are read up to where something closes. -/
theorem fields_read {names : List String} {tokens : List Token} (h : Soql.Fields names tokens)
    (hnames : ∀ n ∈ names, n = "*" ∨ Token.isName n) {keywords : List String} {rest : List Token}
    (hrest : Closes keywords rest) {fuel : Nat} (hfuel : names.length ≤ fuel) :
    readFields fuel (tokens ++ rest) = .ok (names, rest) := by
  induction h generalizing fuel with
  | one field =>
    cases fuel with
    | zero => simp at hfuel
    | succ fuel => exact readFields_last (hnames field List.mem_cons_self) fuel hrest
  | more field _ ih =>
    rw [List.forall_mem_cons] at hnames
    cases fuel with
    | zero => simp at hfuel
    | succ fuel =>
      simp only [List.length_cons, Nat.add_le_add_iff_right] at hfuel
      simp only [List.cons_append, readFields_cons hnames.1, ih hnames.2 hfuel, ok_bind]
      rfl

/-- There are no fields where a clause begins. -/
theorem atFields_closes {rest : List Token} (h : Closes Returning.clauses rest) :
    atFields rest = false := by
  cases h with
  | rparen => simp [atFields]
  | keyword hk ht rest =>
    simp only [Returning.clauses, List.mem_cons, List.not_mem_nil, or_false] at hk
    rcases hk with rfl | rfl
    · simp [atFields, Token.atKeyword, Token.afterKeyword?_cons ht]
    · simp [atFields, Token.atKeyword, Token.afterKeyword?_cons ht]

/-- There are fields where one comes that is not called like a clause. -/
theorem atFields_fieldToken {field : String}
    (h : ∀ k ∈ Returning.clauses, ¬ sameWord field.toList k.toList) (rest : List Token) :
    atFields (Soql.fieldToken field :: rest) = true := by
  have hwhere : sameWord field.toList "WHERE".toList = false := by simpa using h "WHERE" (by decide)
  have hlimit : sameWord field.toList "LIMIT".toList = false := by simpa using h "LIMIT" (by decide)
  unfold Soql.fieldToken
  split
  · rfl
  · simp only [atFields, Token.atKeyword, Token.afterKeyword?, Token.isKeyword, hwhere, hlimit]
    rfl

end Sosl

/-- Fields are told apart from what may stand in their place, and read. -/
theorem Returning.Shown.read {names : List String} {tokens : List Token} (h : Shown names tokens)
    (hnames : ∀ n ∈ names, n = "*" ∨ Token.isName n)
    (hfirst : ∀ n ∈ names.head?, ∀ k ∈ Returning.clauses, ¬ sameWord n.toList k.toList)
    {rest : List Token} (hrest : Closes Returning.clauses rest) :
    Sosl.atFields (tokens ++ rest) = true ∧
        Sosl.readFields ((tokens ++ rest).length + 1) (tokens ++ rest) = .ok (names, rest) ∨
      Sosl.atFields (tokens ++ rest) = false ∧ tokens = [] ∧ names = [] := by
  cases h with
  | unsaid => exact .inr ⟨Sosl.atFields_closes hrest, rfl, rfl⟩
  | fields h =>
    have hfuel : names.length ≤ (tokens ++ rest).length + 1 := by
      have := h.length_le
      rw [List.length_append]
      omega
    have hat : Sosl.atFields (tokens ++ rest) = true := by
      cases h with
      | one field => exact Sosl.atFields_fieldToken (hfirst field rfl) _
      | more field _ => exact Sosl.atFields_fieldToken (hfirst field rfl) _
    exact .inl ⟨hat, Sosl.fields_read h hnames hrest hfuel⟩

/-- A part is read from the tokens that spell it. -/
theorem Returning.Spelled.read {r : Returning} {tokens : List Token} (h : r.Spelled tokens)
    (hr : r.Documented) {rest : List Token} (hrest : rest.head? ≠ some .lparen) :
    Sosl.readReturning (tokens ++ rest) = .ok (r, rest) := by
  cases h with
  | bare object =>
    -- no parenthesis follows that could be taken for the object's own
    have hobject := Token.name_word hr.object "object name in RETURNING" rest
    simp only [Sosl.readReturning, List.cons_append, List.nil_append, hobject, ok_bind]
    split
    · exact absurd rfl hrest
    · rfl
  | listed hfields hfilter hlimit =>
    rename_i fields filter limit
    -- what is left after the fields, and after the conditions
    have hend : Closes ["LIMIT"] (.rparen :: rest) := .rparen rest
    have hafter : Closes ["LIMIT"] (limit ++ .rparen :: rest) := hlimit.closes (by decide) hend
    have hclauses : Closes Returning.clauses (filter ++ (limit ++ .rparen :: rest)) :=
      hfilter.closes (by decide) (hlimit.closes (by decide) (.rparen rest))
    have hwhere : Soql.readOptional "WHERE" (Where.read .comparisons)
        (filter ++ (limit ++ .rparen :: rest)) = .ok (r.filter, limit ++ .rparen :: rest) := by
      refine hfilter.readOptional (fun w hw tokens htokens => ?_)
        (hafter.afterKeyword? (by decide))
      -- neither a limit nor the parenthesis goes on with the conditions
      have hand := hafter.afterKeyword? (k := "AND") (by decide)
      have hor := hafter.afterKeyword? (k := "OR") (by decide)
      exact htokens.read (fun c hc => (hr.conditions w hw c hc).1.field)
        (fun c hc => (hr.conditions w hw c hc).2) (by simp [Connective.read?, hand, hor])
    have hcount : Soql.readOptional "LIMIT" (Token.count "LIMIT") (limit ++ .rparen :: rest) =
        .ok (r.limit, .rparen :: rest) := by
      refine hlimit.readOptional (fun n hn tokens htokens => ?_) rfl
      rw [htokens]
      exact Soql.count_word (hr.limit n hn) "LIMIT" _
    have hobject := Token.name_word hr.object "object name in RETURNING"
    simp only [Sosl.readReturning, List.cons_append, List.append_assoc, List.nil_append, hobject,
      ok_bind]
    -- the fields come first, or there are none and the clauses do
    rcases hfields.read hr.fields hr.first hclauses with ⟨hat, hshown⟩ | ⟨hat, hnil, hnone⟩
    · simp only [hat, hshown, ok_bind, hwhere, hcount, if_true]
      rfl
    · subst hnil
      rw [List.nil_append] at hat
      simp only [hat, List.nil_append, ok_bind, hwhere, hcount, ← hnone]
      rfl

/-! ## Reading searches -/

/-- A scope is read from its word in any case. -/
theorem SearchScope.ofWord?_text {text : String} {scope : SearchScope}
    (h : sameWord text.toList scope.text.toList) : ofWord? text = some scope := by
  simp only [sameWord, beq_iff_eq] at h
  have hupper : ∀ cs : List Char, (cs.map Char.toLower).map Char.toUpper = cs.map Char.toUpper := by
    intro cs
    rw [List.map_map]
    exact List.map_congr_left fun c _ => toUpper_toLower c
  have hword : text.toList.map Char.toUpper = scope.text.toList.map Char.toUpper := by
    rw [← hupper, h, hupper]
  unfold ofWord?
  rw [hword]
  cases scope <;> decide

/-- A scope is read, or the scope of all fields where there is none. -/
theorem SearchScope.Spelled.read {scope : SearchScope} {tokens : List Token}
    (h : scope.Spelled tokens) {t : Token} (ht : t.isKeyword "RETURNING") (rest : List Token) :
    ∃ found, Soql.readOptional "IN" Sosl.readScope (tokens ++ t :: rest) = .ok (found, t :: rest) ∧
      found.getD .all = scope := by
  cases h with
  | unsaid =>
    have hnone := Token.afterKeyword?_cons_other ht "IN" (by decide) rest
    exact ⟨none, by simp [Soql.readOptional, hnone], rfl⟩
  | said hinside hword hfields =>
    rcases Token.exists_of_isKeyword hword with ⟨text, rfl, htext⟩
    refine ⟨some scope, ?_, rfl⟩
    simp only [Soql.readOptional, List.cons_append, List.nil_append,
      Token.afterKeyword?_cons hinside, Sosl.readScope, SearchScope.ofWord?_text htext,
      Token.keyword_cons hfields, ok_bind]
    rfl

namespace Sosl

/-- Parts have at least as many tokens. -/
theorem Listed.length_le {rs : List Returning} {tokens : List Token} (h : Listed rs tokens) :
    rs.length ≤ tokens.length := by
  have hpos : ∀ {r : Returning} {tokens : List Token}, r.Spelled tokens → 0 < tokens.length := by
    intro r tokens h
    cases h <;> simp
  induction h with
  | one h => exact hpos h
  | more _ _ ih =>
    simp only [List.length_cons, List.length_append]
    omega

/-- All parts are read from the tokens that spell them. -/
theorem Listed.read {rs : List Returning} {tokens : List Token} (h : Listed rs tokens)
    (hrs : ∀ r ∈ rs, r.Documented) {fuel : Nat} (hfuel : rs.length ≤ fuel) :
    readReturnings fuel tokens = .ok (rs, []) := by
  induction h generalizing fuel with
  | one h =>
    cases fuel with
    | zero => simp at hfuel
    | succ fuel =>
      have hend : ([] : List Token).head? ≠ some .lparen := nofun
      have hread := h.read (hrs _ List.mem_cons_self) hend
      rw [List.append_nil] at hread
      simp only [readReturnings, hread, ok_bind]
      rfl
  | more h hmore ih =>
    rename_i r rs tokens others
    rw [List.forall_mem_cons] at hrs
    cases fuel with
    | zero => simp at hfuel
    | succ fuel =>
      simp only [List.length_cons, Nat.add_le_add_iff_right] at hfuel
      have hcomma : (Token.comma :: others).head? ≠ some .lparen := nofun
      have hread := h.read hrs.1 hcomma
      simp only [readReturnings, hread, ih hrs.2 hfuel, ok_bind]
      rfl

/-- The tokens of a search, with its term first, are read as this search. -/
theorem Spelled.ofTokens {q : Sosl} {tokens : List Token} (h : q.Spelled tokens)
    (hq : q.Documented) {find : Token} (hfind : find.isKeyword "FIND") (text : String) :
    Sosl.ofTokens text (find :: .braced q.term :: tokens) = .ok q := by
  cases h with
  | mk hscope ht hobjects =>
    rename_i t scope objects
    rcases hscope.read ht objects with ⟨found, hfound, hgot⟩
    have hterm : q.term.isEmpty = false := by
      have hne : q.term ≠ "" := fun h => hq.term_ne (by rw [h]; rfl)
      simpa using hne
    have hfuel : q.returning.length ≤ objects.length + 1 := by
      have := hobjects.length_le
      omega
    simp only [Sosl.ofTokens, Token.keyword_cons hfind, ok_bind, hterm, hfound,
      Token.afterKeyword?_cons ht, hobjects.read hq.returning hfuel, Token.finish, hgot]
    rfl

/-- A text that writes a search is scanned to the tokens that spell it. -/
theorem Written.scan {q : Sosl} {text : String} (h : q.Written text) (hq : q.Documented) :
    ∃ find tokens, Token.isKeyword "FIND" find ∧ q.Spelled tokens ∧
      Token.scan text.toList = .ok (find :: .braced q.term :: tokens) := by
  rcases h with ⟨hfind, hbefore, hfront, hback, htokens, hafter, htext⟩
  rename_i find tokens before front back after
  have hterm : trim (front ++ (q.term.toList ++ back)) = q.term.toList := by
    rw [trim_blank_append hfront, trim_append_blank hback, hq.term_trimmed]
  -- white space around the term does not hide a brace
  have hclosed : '\x7d' ∉ front ++ (q.term.toList ++ back) := by
    have hblank : isBlank '\x7d' = false := by decide
    intro hmem
    rcases List.mem_append.mp hmem with hmem | hmem
    · exact absurd (hfront _ hmem) (by simp [hblank])
    rcases List.mem_append.mp hmem with hmem | hmem
    · exact hq.term_closed hmem
    · exact absurd (hback _ hmem) (by simp [hblank])
  refine ⟨find, tokens, hfind, htokens, ?_⟩
  have hbraces := Token.Scans.braces hclosed hafter.scans
  have hscans := Token.Scans.append (.inr rfl) hbefore.scans hbraces
  rw [hterm, String.ofList_toList] at hscans
  rw [Token.scan_eq_ok, htext]
  simpa using hscans

end Sosl

/-! ## Searches that were read -/

/-- Every condition is a comparison, with an operand that it goes with. -/
def Returning.Compares (r : Returning) : Prop :=
  ∀ w ∈ r.filter, ∀ c ∈ w.conditions, c.op.Fits c.operand ∧ Dialect.comparisons.Admits c.op

namespace Sosl

/-- The conditions of a part that is read are comparisons. -/
theorem readReturning_compares {tokens rest : List Token} {r : Returning}
    (h : readReturning tokens = .ok (r, rest)) : r.Compares := by
  rcases bind_eq_ok.mp h with ⟨⟨object, others⟩, -, h⟩
  dsimp only at h
  split at h
  · -- whatever the fields are, the conditions come next
    have hfilter : ∃ tokens rest,
        Soql.readOptional "WHERE" (Where.read .comparisons) tokens = .ok (r.filter, rest) := by
      split at h
      all_goals
        simp only [bind_eq_ok] at h
        rcases h with ⟨_, -, ⟨filter, _⟩, hfilter, ⟨limit, _⟩, -, _, -, ⟨⟩⟩
        exact ⟨_, _, hfilter⟩
    rcases hfilter with ⟨_, _, hfilter⟩
    intro w hw
    rcases Soql.readOptional_ok hfilter w hw with ⟨_, hread⟩
    exact Where.read_fits hread
  · cases h
    intro w hw
    cases hw

/-- The conditions of all parts that are read are comparisons. -/
theorem readReturnings_compares {fuel : Nat} {tokens rest : List Token} {rs : List Returning}
    (h : readReturnings fuel tokens = .ok (rs, rest)) : ∀ r ∈ rs, r.Compares := by
  induction fuel generalizing tokens rs with
  | zero => cases h
  | succ fuel ih =>
    rcases bind_eq_ok.mp h with ⟨⟨r, others⟩, hr, h⟩
    have hfirst := readReturning_compares hr
    dsimp only at h
    split at h
    · rcases bind_eq_ok.mp h with ⟨⟨rs', _⟩, hrs, ⟨⟩⟩
      exact List.forall_mem_cons.mpr ⟨hfirst, ih hrs⟩
    · cases h
      exact List.forall_mem_cons.mpr ⟨hfirst, List.forall_mem_nil _⟩

/-- The conditions of a search that is read are comparisons. -/
theorem ofTokens_compares {text : String} {tokens : List Token} {q : Sosl}
    (h : ofTokens text tokens = .ok q) : ∀ r ∈ q.returning, r.Compares := by
  rcases bind_eq_ok.mp h with ⟨_, -, h⟩
  -- without a term and without the keyword before the objects, nothing is read
  split at h
  · split at h
    · cases h
    · dsimp only at h
      rcases bind_eq_ok.mp h with ⟨_, -, h⟩
      rcases bind_eq_ok.mp h with ⟨_, -, h⟩
      split at h
      · simp only [bind_eq_ok] at h
        rcases h with ⟨_, -, ⟨returning, _⟩, hreturning, _, -, ⟨⟩⟩
        exact readReturnings_compares hreturning
      · cases h
  · cases h

/-! ## The language -/

/-- A documented search is read from every text that writes it. -/
theorem Written.parse {q : Sosl} {text : String} (h : q.Written text) (hq : q.Documented) :
    parse text = .ok q := by
  rcases h.scan hq with ⟨find, tokens, hfind, htokens, hscan⟩
  have hblank : text.toList.all isBlank = false := by
    rcases h with ⟨_, _, _, _, _, _, htext⟩
    rw [htext]
    simp only [List.all_append, List.all_cons, List.append_assoc]
    have hbrace : isBlank '\x7b' = false := by decide
    simp [hbrace]
  rw [Sosl.parse, hblank, hscan]
  exact htokens.ofTokens hq hfind _

/-- Every documented search can be written, and all its texts are read back as this search; and
whatever is read as a search has no conditions but comparisons with a single value. -/
theorem searches_read_back :
    (∀ q : Sosl, q.Documented →
      (∃ text, q.Written text) ∧ ∀ text, q.Written text → parse text = .ok q) ∧
    ∀ (text : String) (q : Sosl), parse text = .ok q →
      ∀ r ∈ q.returning, ∀ w ∈ r.filter, ∀ c ∈ w.conditions,
        c.op ∉ [.like, .isIn, .notIn] ∧ ∃ v, c.operand = .value v := by
  refine ⟨fun q hq => ⟨hq.exists_written, fun text htext => htext.parse hq⟩, ?_⟩
  intro text q h r hr w hw c hc
  unfold parse at h
  split at h
  · cases h
  rcases bind_eq_ok.mp h with ⟨tokens, -, htokens⟩
  rcases ofTokens_compares htokens r hr w hw c hc with ⟨hfits, hcomparison⟩
  refine ⟨hcomparison, ?_⟩
  rcases c with ⟨field, op, operand⟩
  have hnot : op ∉ [.like, .isIn, .notIn] := hcomparison
  cases hfits with
  | comparison _ v => exact ⟨v, rfl⟩
  | like _ | isIn _ | notIn _ => exact absurd (by decide) hnot

/-- Names with a quote in them, in some accounts and in all contacts. -/
def quotedTerm : Sosl where
  term := "it's"
  scope := .name
  returning := [⟨"Account", ["Id", "*"], some ⟨⟨"Rating", .ne, .value .null⟩, []⟩, some 5⟩,
    ⟨"Contact", [], none, none⟩]

theorem quotedTerm_documented : quotedTerm.Documented where
  term_ne := by decide
  term_trimmed := by decide
  term_closed := by decide
  returning_ne := by decide
  returning := by
    refine List.forall_mem_cons.mpr ⟨?_, List.forall_mem_cons.mpr ⟨?_, List.forall_mem_nil _⟩⟩
    · refine ⟨by decide, by decide, by decide, ?_, by decide⟩
      rintro _ ⟨⟩
      refine List.forall_mem_cons.mpr ⟨⟨⟨by decide, .comparison (by decide) _, ?_⟩, by decide⟩,
        List.forall_mem_nil _⟩
      rintro _ ⟨⟩
      trivial
    · refine ⟨by decide, by decide, by decide, ?_, by decide⟩
      rintro _ ⟨⟩

/-- A text with small and capital letters, white space inside the braces and empty parentheses. -/
def quotedTermText : String :=
  "find \x7b it's\t\x7dIN Name Fields Returning Account(Id,*WHERE Rating<>NULL Limit 5),Contact()"

theorem quotedTerm_written : quotedTerm.Written quotedTermText := by
  -- what the tokens say, from the inside out
  have hscope : quotedTerm.scope.Spelled [.word "IN", .word "Name", .word "Fields"] :=
    .said (by decide) (by decide) (by decide)
  have hshown : Returning.Shown ["Id", "*"] [.word "Id", .comma, .star] :=
    .fields (.more "Id" (.one "*"))
  have hcondition : Condition.Spelled ⟨"Rating", .ne, .value .null⟩
      [.word "Rating", .op "<>", .word "NULL"] := .comparison rfl (.null (by decide))
  have hfilter : Soql.Clause "WHERE" Where.Spelled
      (some ⟨⟨"Rating", .ne, .value .null⟩, []⟩)
      [.word "WHERE", .word "Rating", .op "<>", .word "NULL"] :=
    .present (by decide) (.mk hcondition .nil)
  have hlimit : Soql.Clause "LIMIT" Soql.Counted (some 5) [.word "Limit", .word "5"] :=
    .present (by decide) rfl
  have hobjects : Listed quotedTerm.returning _ :=
    .more (.listed hshown hfilter hlimit) (.one (.listed .unsaid .absent .absent))
  have htokens : quotedTerm.Spelled _ :=
    .mk (t := .word "Returning") hscope (by decide) hobjects
  -- how they are laid out
  have hafter := @Token.spaced_layout [] [([], .word "IN"), ([' '], .word "Name"),
    ([' '], .word "Fields"), ([' '], .word "Returning"), ([' '], .word "Account"), ([], .lparen),
    ([], .word "Id"), ([], .comma), ([], .star), ([], .word "WHERE"), ([' '], .word "Rating"),
    ([], .op "<>"), ([], .word "NULL"), ([' '], .word "Limit"), ([' '], .word "5"), ([], .rparen),
    ([], .comma), ([], .word "Contact"), ([], .lparen), ([], .rparen)] (by decide)
  have hbefore := @Token.spaced_layout [' '] [([], .word "find")] (by decide)
  have hfind : (Token.word "find").isKeyword "FIND" := by decide
  have hfront : ∀ c ∈ [' '], isBlank c := List.forall_mem_singleton.mpr (by decide)
  have hback : ∀ c ∈ ['\t'], isBlank c := List.forall_mem_singleton.mpr (by decide)
  exact .mk hfind hbefore hfront hback htokens hafter (by decide)

/-- The text is read as the search, and the conditions of its filter compare with single values. -/
theorem quotedTerm_reads_back :
    parse quotedTermText = .ok quotedTerm ∧
      ∀ r ∈ quotedTerm.returning, ∀ w ∈ r.filter, ∀ c ∈ w.conditions,
        c.op ∉ [.like, .isIn, .notIn] ∧ ∃ v, c.operand = .value v := by
  have hparse := (searches_read_back.1 quotedTerm quotedTerm_documented).2 _ quotedTerm_written
  exact ⟨hparse, searches_read_back.2 _ _ hparse⟩

end Sosl

end CrmEmulator
