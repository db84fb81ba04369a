import CrmEmulator.Text.Basic
import CrmEmulator.Text.LetterCase

/-!
# CrmEmulator.Query.Like — LIKE patterns

A percent sign matches any run of characters, an underscore any single one, and a backslash takes
the next character literally.  Letter case does not matter.

1. `matchesGlobs` is the general matcher; it compares characters by case folding, and asks every
   piece about every place of the text once.
2. `plain?` answers for patterns without underscores and backslashes whose percent signs stand at
   the ends only; it compares whole texts in lower case.  The two notions of case differ for a few
   letters, and `like` prefers `plain?`.
-/

namespace CrmEmulator

namespace Like

/-! ## General patterns -/

/-- A piece of a pattern. -/
inductive Glob
  | any
  | one
  | char (c : Char)
deriving Repr, DecidableEq

/-- The pieces of a pattern; a backslash at the very end stands for itself. -/
def globs : List Char → List Glob
  | [] => []
  | '\\' :: c :: cs => .char c :: globs cs
  | '%' :: cs => .any :: globs cs
  | '_' :: cs => .one :: globs cs
  | c :: cs => .char c :: globs cs

/-- Turn the answers for every place of a text into answers for every place or a later one. -/
def orLater : List Bool → List Bool
  | [] => []
  | [b] => [b]
  | b :: bs =>
    let later := orLater bs
    (b || later.headD false) :: later

/-- For every place of a text, the end included, the answer whether the rest of the text from there
on matches the pieces. -/
def matchesFrom : List Glob → List Char → List Bool
  | [], cs => List.replicate cs.length false ++ [true]
  | .any :: gs, cs => orLater (matchesFrom gs cs)
  | .one :: gs, cs => (matchesFrom gs cs).drop 1 ++ [false]
  | .char d :: gs, cs =>
    List.zipWith (fun c b => b && sameFolded d c) cs ((matchesFrom gs cs).drop 1) ++ [false]

/-- Does the whole text match the pieces? -/
def matchesGlobs (gs : List Glob) (cs : List Char) : Bool := (matchesFrom gs cs).headD false

/-! ## Plain patterns -/

/-- The answer for a plain pattern, none for any other. -/
def plain? (text pattern : List Char) : Option Bool :=
  if pattern.contains '_' ∨ pattern.contains '\\' then none
  else
    let text := lowercase text
    let pattern := lowercase pattern
    let leading := pattern.head? == some '%'
    let trailing := 1 < pattern.length && pattern.getLast? == some '%'
    let inner := if leading then pattern.drop 1 else pattern
    let inner := if trailing then inner.dropLast else inner
    if inner.contains '%' then none
    else match leading, trailing with
      | false, false => some (text == inner)
      | false, true => some (inner.isPrefixOf text)
      | true, false => some (inner.isSuffixOf text)
      | true, true => some (occursIn inner text)

/-- Does the whole text match the pattern? -/
def test (text pattern : List Char) : Bool :=
  (plain? text pattern).getD (matchesGlobs (globs pattern) text)

end Like

end CrmEmulator
