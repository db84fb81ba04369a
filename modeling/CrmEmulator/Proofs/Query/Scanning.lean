import CrmEmulator.Proofs.Outcome
import CrmEmulator.Query.Token

/-!
# CrmEmulator.Proofs.Query.Scanning — tokens without positions

`Scans cs tokens` says that a text splits into tokens, with no account of positions and steps left;
it holds exactly when `scan` gives the tokens (`scan_eq_ok`).  Since every token is found from the
characters up to its end, a text may be cut before a quote or a brace: `Scans.append`.
-/

namespace CrmEmulator

namespace Token

/-! ## The rest of a text -/

/-- Reading up to a closing quote leaves less of the text. -/
theorem length_of_quoted? {cs text rest : List Char} (h : quoted? cs = some (text, rest)) :
    rest.length < cs.length := by
  fun_induction quoted? cs generalizing text with
  | case1 => cases h
  | case2 cs =>
    cases h
    exact Nat.lt_succ_self _
  | case3 c cs ih =>
    rcases Option.map_eq_some_iff.mp h with ⟨⟨text', rest'⟩, hcs, heq⟩
    cases heq
    have := ih hcs
    simp only [List.length_cons]
    omega
  | case4 c cs _ _ ih =>
    rcases Option.map_eq_some_iff.mp h with ⟨⟨text', rest'⟩, hcs, heq⟩
    cases heq
    have := ih hcs
    simp only [List.length_cons]
    omega

/-- Cutting at a separator leaves less of the text. -/
theorem length_of_cutAt? {separator : Char} {cs before after : List Char}
    (h : cutAt? separator cs = some (before, after)) : after.length < cs.length := by
  induction cs generalizing before with
  | nil => cases h
  | cons c cs ih =>
    unfold cutAt? at h
    split at h
    · cases h
      exact Nat.lt_succ_self _
    · rcases Option.map_eq_some_iff.mp h with ⟨⟨before', after'⟩, hcs, heq⟩
      cases heq
      have := ih hcs
      simp only [List.length_cons]
      omega

/-- A token takes at least one character. -/
theorem length_of_next {position : Nat} {c : Char} {cs rest : List Char} {token : Token}
    (h : next position (c :: cs) = .ok (token, rest)) : rest.length ≤ cs.length := by
  unfold next at h
  split at h
  case h_1 heq => cases heq
  -- only quotes, braces and words take more than their first character
  case h_6 heq =>
    cases heq
    split at h
    · next hquoted =>
      cases h
      exact Nat.le_of_lt (length_of_quoted? hquoted)
    · cases h
  case h_7 heq =>
    cases heq
    split at h
    · next hcut =>
      cases h
      exact Nat.le_of_lt (length_of_cutAt? hcut)
    · cases h
  case h_15 heq =>
    cases heq
    split at h
    · cases h
    · cases h
      exact (List.dropWhile_suffix _).length_le
  all_goals
    rename_i heq
    cases heq
    cases h
    simp

/-- The position is told in failures only. -/
theorem next_position {position : Nat} {cs rest : List Char} {token : Token}
    (h : next position cs = .ok (token, rest)) (other : Nat) :
    next other cs = .ok (token, rest) := by
  unfold next at h ⊢
  split at h
  case h_15 =>
    split at h
    · cases h
    · simp_all
  all_goals simp_all

/-! ## Tokens of a text -/

/-- A text splits into tokens. -/
inductive Scans : List Char → List Token → Prop
  | nil : Scans [] []
  | blank {c : Char} {cs : List Char} {tokens : List Token} (hblank : isBlank c)
      (h : Scans cs tokens) : Scans (c :: cs) tokens
  | token {c : Char} {cs rest : List Char} {token : Token} {tokens : List Token}
      (hblank : ¬ isBlank c) (hnext : next 0 (c :: cs) = .ok (token, rest))
      (h : Scans rest tokens) : Scans (c :: cs) (token :: tokens)

/-- Scanning with enough fuel scans by the rules. -/
theorem scans_of_scanWith {fuel position : Nat} {cs : List Char} {tokens : List Token}
    (hfuel : cs.length ≤ fuel) (h : scanWith fuel position cs = .ok tokens) : Scans cs tokens := by
  induction fuel generalizing position cs tokens with
  | zero =>
    obtain rfl := List.eq_nil_of_length_eq_zero (Nat.le_zero.mp hfuel)
    cases h
    exact .nil
  | succ fuel ih =>
    cases cs with
    | nil =>
      cases h
      exact .nil
    | cons c cs =>
      simp only [List.length_cons, Nat.add_le_add_iff_right] at hfuel
      unfold scanWith at h
      split at h
      · next hblank => exact .blank hblank (ih hfuel h)
      · next hblank =>
        simp only [bind_eq_ok] at h
        rcases h with ⟨⟨token, rest⟩, hnext, later, hrest, heq⟩
        cases heq
        -- the rest is shorter, so there is fuel enough for it
        have hlength := length_of_next hnext
        exact .token hblank (next_position hnext 0) (ih (Nat.le_trans hlength hfuel) hrest)

/-- What the rules scan is scanned with enough fuel. -/
theorem Scans.scanWith {cs : List Char} {tokens : List Token} (h : Scans cs tokens)
    {fuel : Nat} (hfuel : cs.length ≤ fuel) (position : Nat) :
    scanWith fuel position cs = .ok tokens := by
  induction h generalizing fuel position with
  | nil => cases fuel <;> rfl
  | blank hblank _ ih =>
    cases fuel with
    | zero => simp at hfuel
    | succ fuel =>
      simp only [List.length_cons, Nat.add_le_add_iff_right] at hfuel
      simp [Token.scanWith, hblank, ih hfuel]
  | token hblank hnext _ ih =>
    cases fuel with
    | zero => simp at hfuel
    | succ fuel =>
      simp only [List.length_cons, Nat.add_le_add_iff_right] at hfuel
      have hlength := length_of_next hnext
      simp [Token.scanWith, hblank, next_position hnext position,
        ih (Nat.le_trans hlength hfuel), bind, Except.bind, pure, Except.pure]

theorem scan_eq_ok {cs : List Char} {tokens : List Token} :
    scan cs = .ok tokens ↔ Scans cs tokens :=
  ⟨scans_of_scanWith (Nat.le_refl _), fun h => h.scanWith (Nat.le_refl _) 0⟩

/-! ## A text cut before a quote or a brace -/

/-- What stands behind a closing quote does not matter. -/
theorem quoted?_append {cs text rest : List Char} (h : quoted? cs = some (text, rest))
    (more : List Char) : quoted? (cs ++ more) = some (text, rest ++ more) := by
  fun_induction quoted? cs generalizing text with
  | case1 => cases h
  | case2 cs =>
    cases h
    rfl
  | case3 c cs ih =>
    rcases Option.map_eq_some_iff.mp h with ⟨⟨text', rest'⟩, hcs, heq⟩
    cases heq
    simp [quoted?, ih hcs]
  | case4 c cs hquote hescape ih =>
    rcases Option.map_eq_some_iff.mp h with ⟨⟨text', rest'⟩, hcs, heq⟩
    cases heq
    -- a backslash at the very end would take the first character after it
    cases cs with
    | nil => cases hcs
    | cons e es =>
      have hnot : c ≠ '\\' := fun hc => hescape e es hc rfl
      simp_all [quoted?]

/-- What stands behind a separator does not matter for cutting. -/
theorem cutAt?_append {separator : Char} {cs before after : List Char}
    (h : cutAt? separator cs = some (before, after)) (more : List Char) :
    cutAt? separator (cs ++ more) = some (before, after ++ more) := by
  induction cs generalizing before with
  | nil => cases h
  | cons c cs ih =>
    unfold cutAt? at h
    split at h
    · next hc =>
      cases h
      simp [cutAt?, hc]
    · next hc =>
      rcases Option.map_eq_some_iff.mp h with ⟨⟨before', after'⟩, hcs, heq⟩
      cases heq
      simp [cutAt?, hc, ih hcs]

/-- The characters that begin a token whatever stands before them. -/
def IsSeam (c : Char) : Prop := c = '\'' ∨ c = '\x7b'

theorem IsSeam.not_wordChar {c : Char} (h : IsSeam c) : isWordChar c = false := by
  rcases h with rfl | rfl <;> decide

theorem IsSeam.not_operator {c : Char} (h : IsSeam c) : c ≠ '=' ∧ c ≠ '>' := by
  rcases h with rfl | rfl <;> decide

/-- A word ends at a seam. -/
theorem takeWhile_seam {c : Char} (hc : IsSeam c) (cs more : List Char) :
    (cs ++ c :: more).takeWhile isWordChar = cs.takeWhile isWordChar := by
  induction cs with
  | nil => simp [hc.not_wordChar]
  | cons e es ih => simp [List.takeWhile_cons, ih]

/-- What is left after a word goes on behind a seam. -/
theorem dropWhile_seam {c : Char} (hc : IsSeam c) (cs more : List Char) :
    (cs ++ c :: more).dropWhile isWordChar = cs.dropWhile isWordChar ++ c :: more := by
  induction cs with
  | nil => simp [hc.not_wordChar]
  | cons e es ih =>
    simp only [List.cons_append, List.dropWhile_cons, ih]
    split <;> rfl

/-- A token that ends before a seam does not look beyond it. -/
theorem next_seam {position : Nat} {cs rest : List Char} {token : Token} {c : Char}
    (hc : IsSeam c) (h : next position cs = .ok (token, rest)) (more : List Char) :
    next position (cs ++ c :: more) = .ok (token, rest ++ c :: more) := by
  have hoperator := hc.not_operator
  unfold next at h
  split at h
  case h_1 => cases h
  case h_6 cs =>
    split at h
    · next hquoted =>
      cases h
      simp [next, quoted?_append hquoted]
    · cases h
  case h_7 cs =>
    split at h
    · next hcut =>
      cases h
      simp [next, cutAt?_append hcut]
    · cases h
  case h_13 hequal hgreater =>
    -- a seam makes no longer operator out of this one
    cases h
    cases rest with
    | nil => simp [next, hoperator]
    | cons e es =>
      have he : e ≠ '=' := fun he => hequal es (he ▸ rfl)
      have he' : e ≠ '>' := fun he => hgreater es (he ▸ rfl)
      simp [next, he, he']
  case h_14 hequal =>
    cases h
    cases rest with
    | nil => simp [next, hoperator]
    | cons e es =>
      have he : e ≠ '=' := fun he => hequal es (he ▸ rfl)
      simp [next, he]
  case h_15 =>
    split at h
    · cases h
    · cases h
      simp_all [next, takeWhile_seam hc, dropWhile_seam hc]
  all_goals
    cases h
    simp [next]

/-- Texts on either side of a seam split on their own. -/
theorem Scans.append {cs more : List Char} {tokens others : List Token} {c : Char}
    (hc : IsSeam c) (h : Scans cs tokens) (hmore : Scans (c :: more) others) :
    Scans (cs ++ c :: more) (tokens ++ others) := by
  induction h with
  | nil => exact hmore
  | blank hblank _ ih => exact .blank hblank ih
  | token hblank hnext _ ih => exact .token hblank (next_seam hc hnext more) ih

end Token

end CrmEmulator
