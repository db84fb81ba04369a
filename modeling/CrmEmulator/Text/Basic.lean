import CrmEmulator.Text.CharClass

/-!
# CrmEmulator.Text.Basic — trimming, searching and splitting

Operations on texts as lists of characters.  Cuts lose nothing: `cutAt` gives the text before and
after the first character that satisfies a test.
-/

namespace CrmEmulator

/-- The text without white space at either end. -/
def trim (cs : List Char) : List Char :=
  ((cs.dropWhile isBlank).reverse.dropWhile isBlank).reverse

/-- Does one text occur inside another? -/
def occursIn (part : List Char) : List Char → Bool
  | [] => part.isEmpty
  | c :: cs => part.isPrefixOf (c :: cs) || occursIn part cs

/-- The text without a given beginning, if it begins so. -/
def afterBeginning? (beginning cs : List Char) : Option (List Char) :=
  if beginning.isPrefixOf cs then some (cs.drop beginning.length) else none

/-- The pieces of a text between occurrences of a separator; there is at least one. -/
def splitAtChar (separator : Char) : List Char → List (List Char)
  | [] => [[]]
  | c :: cs =>
    if c = separator then [] :: splitAtChar separator cs
    else match splitAtChar separator cs with
      | piece :: pieces => (c :: piece) :: pieces
      | [] => [[c]]

/-- The text before the first occurrence of a character and the text after it. -/
def cutAt? (separator : Char) : List Char → Option (List Char × List Char)
  | [] => none
  | c :: cs =>
    if c = separator then some ([], cs)
    else (cutAt? separator cs).map fun (before, after) => (c :: before, after)

/-- Texts with a separator between neighbours. -/
def joinWith (separator : List Char) : List (List Char) → List Char
  | [] => []
  | [piece] => piece
  | piece :: pieces => piece ++ separator ++ joinWith separator pieces

end CrmEmulator
