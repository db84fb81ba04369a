import CrmEmulator.Proofs.Query.Parsing
import CrmEmulator.Query.Sosl

/-!
# CrmEmulator.Proofs.Query.SearchGrammar — how searches are written

SOSL has the tokens and the conditions of SOQL, but its term stands between braces, and no other
conditions than comparisons are admitted.

1. `Spelled` relations from a scope up to all that follows the term, and `Sosl.Written` between a
   search and its texts.
2. `Sosl.Documented`: the searches that can be written.
3. Every documented search has a text: `Sosl.Documented.exists_written`.
-/

namespace CrmEmulator

/-! ## How searches are written -/

/-- A scope between its keywords; where none is said, all fields are meant. -/
inductive SearchScope.Spelled : SearchScope → List Token → Prop
  | unsaid : SearchScope.Spelled .all []
  | said {scope : SearchScope} {inside t fields : Token} (hinside : inside.isKeyword "IN")
      (ht : t.isKeyword scope.text) (hfields : fields.isKeyword "FIELDS") :
      SearchScope.Spelled scope [inside, t, fields]

/-- Fields with commas between them; where none is said, all are shown. -/
inductive Returning.Shown : List String → List Token → Prop
  | unsaid : Returning.Shown [] []
  | fields {names : List String} {tokens : List Token} (h : Soql.Fields names tokens) :
      Returning.Shown names tokens

/-- An object on its own, or with fields and clauses in parentheses. -/
inductive Returning.Spelled : Returning → List Token → Prop
  | bare (object : String) : Returning.Spelled ⟨object, [], none, none⟩ [.word object]
  | listed {r : Returning} {fields filter limit : List Token} (hfields : Shown r.fields fields)
      (hfilter : Soql.Clause "WHERE" Where.Spelled r.filter filter)
      (hlimit : Soql.Clause "LIMIT" Soql.Counted r.limit limit) :
      Returning.Spelled r
        (.word r.object :: .lparen :: (fields ++ (filter ++ (limit ++ [.rparen]))))

namespace Sosl

/-- Objects with commas between them. -/
inductive Listed : List Returning → List Token → Prop
  | one {r : Returning} {tokens : List Token} (h : r.Spelled tokens) : Listed [r] tokens
  | more {r : Returning} {rs : List Returning} {tokens others : List Token} (h : r.Spelled tokens)
      (hmore : Listed rs others) : Listed (r :: rs) (tokens ++ .comma :: others)

/-- The tokens after the term. -/
inductive Spelled (q : Sosl) : List Token → Prop
  | mk {t : Token} {scope objects : List Token} (hscope : q.scope.Spelled scope)
      (ht : t.isKeyword "RETURNING") (hobjects : Listed q.returning objects) :
      Spelled q (scope ++ t :: objects)

/-- A text of a search.  There may be white space around the term, inside the braces. -/
inductive Written (q : Sosl) (text : String) : Prop
  | mk {find : Token} {tokens : List Token} {before front back after : List Char}
      (hfind : find.isKeyword "FIND") (hbefore : Token.Spaced [find] before)
      (hfront : ∀ c ∈ front, isBlank c) (hback : ∀ c ∈ back, isBlank c) (htokens : q.Spelled tokens)
      (hafter : Token.Spaced tokens after)
      (htext : text.toList =
        before ++ '\x7b' :: (front ++ (q.term.toList ++ back)) ++ '\x7d' :: after)

end Sosl

/-! ## Documented searches -/

/-- A named object with fields that can be shown, the first of which is not taken for a clause, and
with comparisons only. -/
structure Returning.Documented (r : Returning) : Prop where
  object : Token.isName r.object
  fields : ∀ f ∈ r.fields, f = "*" ∨ Token.isName f
  first : ∀ f ∈ r.fields.head?, ∀ k ∈ ["WHERE", "LIMIT"], ¬ sameWord f.toList k.toList
  conditions : ∀ w ∈ r.filter, ∀ c ∈ w.conditions,
    c.Documented ∧ Dialect.comparisons.Admits c.op
  limit : ∀ n ∈ r.limit, n < Nat.pow 2 64

/-- A search for something in at least one object; the term does not end before its braces do. -/
structure Sosl.Documented (q : Sosl) : Prop where
  term_ne : q.term.toList ≠ []
  term_trimmed : trim q.term.toList = q.term.toList
  term_closed : '\x7d' ∉ q.term.toList
  returning_ne : q.returning ≠ []
  returning : ∀ r ∈ q.returning, r.Documented

/-! ## Texts of documented searches -/

open Token

theorem SearchScope.exists_spelled (scope : SearchScope) : Sayable scope.Spelled := by
  refine ⟨_, .said (isKeyword_word _) (isKeyword_word _) (isKeyword_word _), ?_⟩
  cases scope <;> decide

/-- The fields of a part can be spelled. -/
theorem Returning.exists_shown {names : List String} (h : ∀ n ∈ names, n = "*" ∨ Token.isName n) :
    Sayable (Shown names) := by
  cases names with
  | nil => exact ⟨_, .unsaid, by simp⟩
  | cons n names =>
    rcases Soql.exists_fields (List.cons_ne_nil n names) h with ⟨tokens, htokens, hspell⟩
    exact ⟨tokens, .fields htokens, hspell⟩

/-- Every documented part can be spelled. -/
theorem Returning.Documented.exists_spelled {r : Returning} (h : r.Documented) :
    Sayable r.Spelled := by
  rcases Returning.exists_shown h.fields with ⟨fields, hfields, hs₁⟩
  rcases Soql.exists_clause (by decide : (word "WHERE").spellable) (fun w hw =>
    Where.exists_spelled fun c hc => (h.conditions w hw c hc).1) with ⟨filter, hfilter, hs₂⟩
  rcases Soql.exists_clause (by decide : (word "LIMIT").spellable) (o := r.limit)
    (fun n _ => Soql.exists_counted n) with ⟨limit, hlimit, hs₃⟩
  refine ⟨_, .listed hfields hfilter hlimit, ?_⟩
  simp only [List.forall_mem_cons, List.forall_mem_append]
  exact ⟨spellable_name h.object, rfl, hs₁, hs₂, hs₃, rfl, List.forall_mem_nil _⟩

namespace Sosl

/-- Several documented parts can be spelled. -/
theorem exists_listed {rs : List Returning} (hne : rs ≠ []) (h : ∀ r ∈ rs, r.Documented) :
    Sayable (Listed rs) := by
  induction rs with
  | nil => exact absurd rfl hne
  | cons r rs ih =>
    rw [List.forall_mem_cons] at h
    rcases h.1.exists_spelled with ⟨tokens, htokens, hspell⟩
    cases rs with
    | nil => exact ⟨_, .one htokens, hspell⟩
    | cons r' rs =>
      rcases ih (List.cons_ne_nil _ _) h.2 with ⟨others, hothers, hspells⟩
      refine ⟨_, .more htokens hothers, ?_⟩
      simp only [List.forall_mem_append, List.forall_mem_cons]
      exact ⟨hspell, rfl, hspells⟩

/-- Every documented search has a text. -/
theorem Documented.exists_written {q : Sosl} (h : q.Documented) : ∃ text, q.Written text := by
  rcases q.scope.exists_spelled with ⟨scope, hscope, hs₁⟩
  rcases exists_listed h.returning_ne h.returning with ⟨objects, hobjects, hs₂⟩
  have htokens : q.Spelled (scope ++ word "RETURNING" :: objects) :=
    .mk hscope (isKeyword_word _) hobjects
  have hspell : ∀ t ∈ scope ++ word "RETURNING" :: objects, t.spellable := by
    simp only [List.forall_mem_append, List.forall_mem_cons]
    exact ⟨hs₁, by decide, hs₂⟩
  have hfind : ∀ t ∈ [word "FIND"], t.spellable := by decide
  rcases exists_spaced hfind with ⟨before, hbefore⟩
  rcases exists_spaced hspell with ⟨after, hafter⟩
  have hblank : ∀ c ∈ ([] : List Char), isBlank c := List.forall_mem_nil _
  exact ⟨_, .mk (isKeyword_word _) hbefore hblank hblank htokens hafter String.toList_ofList⟩

end Sosl

end CrmEmulator
