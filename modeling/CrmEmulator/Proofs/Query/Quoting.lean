import CrmEmulator.Proofs.Query.Scanning

/-!
# CrmEmulator.Proofs.Query.Quoting — literals cannot be broken out of

1. `quote` writes a text as a string literal; `quoted?` reads it back, whatever follows.
2. A search term between braces ends at the first closing brace, and at no other place.
3. Put between two texts that split on their own, a literal is one token that holds exactly its
   content, and the tokens on either side stay what they are.
-/

namespace CrmEmulator

namespace Token

/-! ## String literals -/

/-- A text with a backslash before every backslash and every single quote. -/
def escape (cs : List Char) : List Char :=
  cs.flatMap fun c => if c = '\\' ∨ c = '\'' then ['\\', c] else [c]

/-- A text as a string literal. -/
def quote (cs : List Char) : List Char := '\'' :: escape cs ++ ['\'']

/-- The opening quote of a literal is closed by its own closing quote. -/
theorem quoted?_escape (cs rest : List Char) :
    quoted? (escape cs ++ '\'' :: rest) = some (cs, rest) := by
  induction cs with
  | nil => rfl
  | cons c cs ih =>
    simp only [escape, List.flatMap_cons, List.append_assoc] at ih ⊢
    by_cases hbackslash : c = '\\'
    · subst hbackslash
      simp [quoted?, ih, unescape]
    by_cases hquote : c = '\''
    · subst hquote
      simp [quoted?, ih, unescape]
    -- any other character stands for itself
    simp [quoted?, ih, hbackslash, hquote]

/-- A quoted text before others is scanned as one token. -/
theorem Scans.quote {rest : List Char} {tokens : List Token} (cs : List Char)
    (h : Scans rest tokens) : Scans (quote cs ++ rest) (str (String.ofList cs) :: tokens) := by
  have hnext : next 0 (Token.quote cs ++ rest) = .ok (str (String.ofList cs), rest) := by
    simp [Token.quote, next, quoted?_escape]
  exact .token (by decide) hnext h

/-! ## Search terms -/

/-- A text is cut at the first separator. -/
theorem cutAt?_of_not_mem {separator : Char} {cs : List Char} (h : separator ∉ cs)
    (rest : List Char) : cutAt? separator (cs ++ separator :: rest) = some (cs, rest) := by
  induction cs with
  | nil => simp [cutAt?]
  | cons c cs ih =>
    rw [List.mem_cons, not_or] at h
    rcases h with ⟨hc, hcs⟩
    simp [cutAt?, Ne.symm hc, ih hcs]

/-- A text in braces is scanned as one token, without the white space around it. -/
theorem Scans.braces {cs rest : List Char} {tokens : List Token} (hcs : '\x7d' ∉ cs)
    (h : Scans rest tokens) :
    Scans ('\x7b' :: cs ++ '\x7d' :: rest) (braced (String.ofList (trim cs)) :: tokens) := by
  have hnext : next 0 ('\x7b' :: cs ++ '\x7d' :: rest) =
      .ok (braced (String.ofList (trim cs)), rest) := by
    simp [next, cutAt?_of_not_mem hcs]
  exact .token (by decide) hnext h

/-! ## Literals between texts -/

/-- A literal between two texts is one token with exactly its content, whatever the content is made
of; so is a search term, as long as it holds no closing brace. -/
theorem scan_literal_between {a b : List Char} {ta tb : List Token} (ha : scan a = .ok ta)
    (hb : scan b = .ok tb) :
    (∀ cs, scan (a ++ quote cs ++ b) = .ok (ta ++ [str (String.ofList cs)] ++ tb)) ∧
      ∀ cs, '\x7d' ∉ cs →
        scan (a ++ '\x7b' :: cs ++ '\x7d' :: b) =
          .ok (ta ++ [braced (String.ofList (trim cs))] ++ tb) := by
  rw [scan_eq_ok] at ha hb
  constructor
  · intro cs
    have h := ha.append (.inl rfl) (hb.quote cs)
    simpa [scan_eq_ok, quote] using h
  · intro cs hcs
    have h := ha.append (.inr rfl) (hb.braces hcs)
    simpa [scan_eq_ok] using h

/-- A name that tries to end its literal and to add a condition of its own. -/
theorem scan_injection_between :
    scan "Name<".toList = .ok [word "Name", op "<"] ∧ scan "LIMIT".toList = .ok [word "LIMIT"] ∧
      scan ("Name<".toList ++ quote "\\' OR a%!='".toList ++ "LIMIT".toList) =
        .ok [word "Name", op "<", str "\\' OR a%!='", word "LIMIT"] ∧
      scan ("Name<".toList ++ '\x7b' :: " 'a ".toList ++ '\x7d' :: "LIMIT".toList) =
        .ok [word "Name", op "<", braced "'a", word "LIMIT"] := by
  have ha : scan "Name<".toList = .ok [word "Name", op "<"] := by rfl
  have hb : scan "LIMIT".toList = .ok [word "LIMIT"] := by rfl
  have h := scan_literal_between ha hb
  refine ⟨ha, hb, ?_, ?_⟩
  · rw [h.1]
    rfl
  · rw [h.2 _ (by decide)]
    rfl

end Token

end CrmEmulator
