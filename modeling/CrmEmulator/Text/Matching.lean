import CrmEmulator.Text.LetterCase
import CrmEmulator.Text.Basic

/-!
# CrmEmulator.Text.Matching — all matches of a pattern in a text

A pattern is a function that says what it finds at the beginning of a text and what is left after
it.  Matches are looked for from left to right and do not overlap.
-/

namespace CrmEmulator

/-- What a pattern finds at the beginning of a text, and the text after it. -/
abbrev Pattern (α : Type) := List Char → Option (α × List Char)

/-- All matches, after passing over some characters. -/
def findFrom {α : Type} (p : Pattern α) : (skip : Nat) → List Char → List α
  | _, [] => []
  | skip + 1, _ :: cs => findFrom p skip cs
  | 0, c :: cs =>
    match p (c :: cs) with
    | some (x, rest) => x :: findFrom p (cs.length - rest.length) cs
    | none => findFrom p 0 cs

/-- All matches of a pattern. -/
def findAll {α : Type} (p : Pattern α) (cs : List Char) : List α := findFrom p 0 cs

/-- Replace all occurrences, after passing over some characters. -/
def replaceFrom (part replacement : List Char) : (skip : Nat) → List Char → List Char
  | _, [] => []
  | skip + 1, _ :: cs => replaceFrom part replacement skip cs
  | 0, c :: cs =>
    if part.isPrefixOf (c :: cs) then
      replacement ++ replaceFrom part replacement (part.length - 1) cs
    else c :: replaceFrom part replacement 0 cs

/-- Replace all occurrences of a part, from left to right. -/
def replaceAll (part replacement cs : List Char) : List Char := replaceFrom part replacement 0 cs

/-- The text after a word, where letter case does not matter. -/
def afterFolded? (word cs : List Char) : Option (List Char) :=
  if word.length ≤ cs.length ∧ (word.zip cs).all fun (a, b) => sameFolded a b then
    some (cs.drop word.length)
  else none

/-- The text before the first place where a pattern matches, and the text after the match. -/
def untilMatch? {α : Type} (p : Pattern α) : List Char → Option (List Char × List Char)
  | [] => none
  | c :: cs =>
    match p (c :: cs) with
    | some (_, rest) => some ([], rest)
    | none => (untilMatch? p cs).map fun (before, rest) => (c :: before, rest)

end CrmEmulator
