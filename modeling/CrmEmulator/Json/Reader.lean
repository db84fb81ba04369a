import CrmEmulator.Json.Basic
import CrmEmulator.Double.Reading

/-!
# CrmEmulator.Json.Reader — reading JSON text

1. Strings and numbers, with the limits that the reader puts on them: no lone surrogates, no raw
   control characters, no number beyond the range of doubles.
2. `read?` reads a document and keeps repeated members; containers nest at most 127 deep.
3. `parse?` also settles repeated members: the last value stands at the first place.
4. `readFor?` reads the top-level members with given names and passes over all others, of which
   only the grammar is checked.
-/

namespace CrmEmulator.Json

/-! ## White space and words -/

def isSpace (c : Char) : Bool := c == ' ' || c == '\n' || c == '\t' || c == '\r'

def skipSpace (cs : List Char) : List Char := cs.dropWhile isSpace

/-- The text after a given beginning. -/
def after? (beginning cs : List Char) : Option (List Char) :=
  if beginning.isPrefixOf cs then some (cs.drop beginning.length) else none

/-! ## Strings -/

def hexValue? (c : Char) : Option Nat :=
  if c.isDigit then some (c.toNat - '0'.toNat)
  else if 'a' ≤ c ∧ c ≤ 'f' then some (c.toNat - 'a'.toNat + 10)
  else if 'A' ≤ c ∧ c ≤ 'F' then some (c.toNat - 'A'.toNat + 10)
  else none

def hexValue4? (a b c d : Char) : Option Nat := do
  return 4096 * (← hexValue? a) + 256 * (← hexValue? b) + 16 * (← hexValue? c) + (← hexValue? d)

/-- The code unit of an escape of one letter. -/
def escapeUnit? : Char → Option Nat
  | '"' => some 34
  | '\\' => some 92
  | '/' => some 47
  | 'b' => some 8
  | 'f' => some 12
  | 'n' => some 10
  | 'r' => some 13
  | 't' => some 9
  | _ => none

/-- Code points and escaped code units up to the closing quote, and the text after it. -/
def stringUnits? : List Char → Option (List Nat × List Char)
  | [] => none
  | '"' :: cs => some ([], cs)
  | '\\' :: 'u' :: a :: b :: c :: d :: cs => do
    let unit ← hexValue4? a b c d
    let (units, rest) ← stringUnits? cs
    return (unit :: units, rest)
  | '\\' :: c :: cs => do
    let unit ← escapeUnit? c
    let (units, rest) ← stringUnits? cs
    return (unit :: units, rest)
  | c :: cs =>
    if c.toNat < 32 ∨ c = '\\' then none
    else do
      let (units, rest) ← stringUnits? cs
      return (c.toNat :: units, rest)

def isHighSurrogate (n : Nat) : Bool := 0xd800 ≤ n && n < 0xdc00

def isLowSurrogate (n : Nat) : Bool := 0xdc00 ≤ n && n < 0xe000

/-- Join pairs of surrogates; one that stands alone is refused. -/
def joinSurrogates? : List Nat → Option (List Char)
  | [] => some []
  | [n] => if isHighSurrogate n || isLowSurrogate n then none else some [Char.ofNat n]
  | n :: m :: rest =>
    if isHighSurrogate n then
      if isLowSurrogate m then
        (joinSurrogates? rest).map
          (Char.ofNat (0x10000 + (n - 0xd800) * 0x400 + (m - 0xdc00)) :: ·)
      else none
    else if isLowSurrogate n then none
    else (joinSurrogates? (m :: rest)).map (Char.ofNat n :: ·)

/-- The string that begins after an opening quote. -/
def string? (cs : List Char) : Option (String × List Char) := do
  let (units, rest) ← stringUnits? cs
  return (String.ofList (← joinSurrogates? units), rest)

/-! ## Numbers -/

/-- The parts of a number: digits before and after the point, and the exponent. -/
structure Numeral where
  negative : Bool
  whole : List Char
  places : Option (List Char)
  exponent : Option Int
deriving Repr, DecidableEq

/-- A number without leading zeros; a point and an exponent need digits after them. -/
def numeral? (cs : List Char) : Option (Numeral × List Char) := do
  let (negative, cs) := match cs with
    | '-' :: cs => (true, cs)
    | cs => (false, cs)
  let whole := cs.takeWhile Char.isDigit
  let rest := cs.dropWhile Char.isDigit
  if whole = [] ∨ (whole.head? = some '0' ∧ whole ≠ ['0']) then none
  let (places, rest) ← match rest with
    | '.' :: rest =>
      let places := rest.takeWhile Char.isDigit
      if places = [] then none else some (some places, rest.dropWhile Char.isDigit)
    | rest => some (none, rest)
  match rest with
  | c :: tail =>
    if c = 'e' ∨ c = 'E' then
      let (down, tail) := match tail with
        | '+' :: tail => (false, tail)
        | '-' :: tail => (true, tail)
        | tail => (false, tail)
      let digits := tail.takeWhile Char.isDigit
      if digits = [] then none
      else
        let e := (digitsValue digits : Int)
        some (⟨negative, whole, places, some (if down then -e else e)⟩,
          tail.dropWhile Char.isDigit)
    else some (⟨negative, whole, places, none⟩, rest)
  | [] => some (⟨negative, whole, places, none⟩, [])

/-- Digits are taken as long as their value stays below `2 ^ 64`; the value and the digits left. -/
def significand : Nat → List Char → Nat × List Char
  | n, [] => (n, [])
  | n, c :: cs =>
    if 10 * n + digitValue c < Nat.pow 2 64 then significand (10 * n + digitValue c) cs
    else (n, c :: cs)

/-- The value of a number: whole numbers of 64 bits stay whole, all others become doubles. -/
def Numeral.value? (n : Numeral) : Option Json :=
  let (value, dropped) := significand 0 n.whole
  match n.places, n.exponent with
  | none, none =>
    if dropped ≠ [] then (Double.ofScaled? n.negative value dropped.length).map .double
    else if !n.negative then some (.int value)
    else if value = 0 ∨ Nat.pow 2 63 < value then
      (Double.ofScaled? true value 0).map .double
    else some (.int (-(value : Int)))
  | places, exponent =>
    let places := places.getD []
    let (value, unread) := significand value places
    let shift := (dropped.length : Int) - (places.length - unread.length : Nat)
    (Double.ofScaled? n.negative value (shift + exponent.getD 0)).map .double

/-! ## Documents -/

mutual

/-- A value, with containers nested at most `depth` deep. -/
def value? : (fuel depth : Nat) → List Char → Option (Json × List Char)
  | 0, _, _ => none
  | fuel + 1, depth, cs =>
    match skipSpace cs with
    | '"' :: cs => (string? cs).map fun (s, rest) => (.str s, rest)
    | '[' :: cs =>
      match depth, skipSpace cs with
      | 0, _ => none
      | _ + 1, ']' :: rest => some (.arr [], rest)
      | depth + 1, rest => (items? fuel depth rest).map fun (items, rest) => (.arr items, rest)
    | '\x7b' :: cs =>
      match depth, skipSpace cs with
      | 0, _ => none
      | _ + 1, '\x7d' :: rest => some (.obj [], rest)
      | depth + 1, rest =>
        (members? fuel depth rest).map fun (members, rest) => (.obj members, rest)
    | 'n' :: cs => (after? "ull".toList cs).map (.null, ·)
    | 't' :: cs => (after? "rue".toList cs).map (.bool true, ·)
    | 'f' :: cs => (after? "alse".toList cs).map (.bool false, ·)
    | cs => do
      let (n, rest) ← numeral? cs
      return (← n.value?, rest)

/-- The items of an array up to its end; there is at least one. -/
def items? : (fuel depth : Nat) → List Char → Option (List Json × List Char)
  | 0, _, _ => none
  | fuel + 1, depth, cs => do
    let (item, rest) ← value? fuel depth cs
    match skipSpace rest with
    | ',' :: rest =>
      let (items, rest) ← items? fuel depth rest
      return (item :: items, rest)
    | ']' :: rest => return ([item], rest)
    | _ => none

/-- The members of an object up to its end; there is at least one. -/
def members? : (fuel depth : Nat) → List Char → Option (List (String × Json) × List Char)
  | 0, _, _ => none
  | fuel + 1, depth, cs =>
    match skipSpace cs with
    | '"' :: cs => do
      let (key, rest) ← string? cs
      match skipSpace rest with
      | ':' :: rest =>
        let (value, rest) ← value? fuel depth rest
        match skipSpace rest with
        | ',' :: rest =>
          let (members, rest) ← members? fuel depth rest
          return ((key, value) :: members, rest)
        | '\x7d' :: rest => return ([(key, value)], rest)
        | _ => none
      | _ => none
    | _ => none

end

/-- How deep containers may nest. -/
def maxDepth : Nat := 127

/-- Enough fuel for any document: every call but the outermost follows a character. -/
def fuelFor (cs : List Char) : Nat := 2 * cs.length + 2

/-- A whole text as a document, with repeated members. -/
def read? (cs : List Char) : Option Json := do
  let (doc, rest) ← value? (fuelFor cs) maxDepth cs
  if skipSpace rest = [] then some doc else none

mutual

/-- Settle repeated members: the last value stands at the first place. -/
def settle : Json → Json
  | .arr items => .arr (settleItems items)
  | .obj members => .obj (settleMembers [] members)
  | doc => doc

def settleItems : List Json → List Json
  | [] => []
  | x :: xs => settle x :: settleItems xs

def settleMembers (done : List (String × Json)) : List (String × Json) → List (String × Json)
  | [] => done
  | (key, x) :: rest => settleMembers (setMember key (settle x) done) rest

end

/-- A whole text as a document. -/
def parse? (cs : List Char) : Option Json := (read? cs).map settle

/-! ## Reading some members only -/

mutual

/-- Pass over a value of which only the grammar matters. -/
def skipValue? : (fuel : Nat) → List Char → Option (List Char)
  | 0, _ => none
  | fuel + 1, cs =>
    match skipSpace cs with
    | '"' :: cs => (stringUnits? cs).map (·.2)
    | '[' :: cs =>
      match skipSpace cs with
      | ']' :: rest => some rest
      | rest => skipItems? fuel rest
    | '\x7b' :: cs =>
      match skipSpace cs with
      | '\x7d' :: rest => some rest
      | rest => skipMembers? fuel rest
    | 'n' :: cs => after? "ull".toList cs
    | 't' :: cs => after? "rue".toList cs
    | 'f' :: cs => after? "alse".toList cs
    | cs => (numeral? cs).map (·.2)

def skipItems? : (fuel : Nat) → List Char → Option (List Char)
  | 0, _ => none
  | fuel + 1, cs => do
    let rest ← skipValue? fuel cs
    match skipSpace rest with
    | ',' :: rest => skipItems? fuel rest
    | ']' :: rest => return rest
    | _ => none

def skipMembers? : (fuel : Nat) → List Char → Option (List Char)
  | 0, _ => none
  | fuel + 1, cs =>
    match skipSpace cs with
    | '"' :: cs => do
      let (_, rest) ← stringUnits? cs
      match skipSpace rest with
      | ':' :: rest =>
        let rest ← skipValue? fuel rest
        match skipSpace rest with
        | ',' :: rest => skipMembers? fuel rest
        | '\x7d' :: rest => return rest
        | _ => none
      | _ => none
    | _ => none

end

/-- The members with given names of an object, and the text after the object. -/
def membersFor? (names : List String) :
    (fuel : Nat) → List Char → Option (List (String × Json) × List Char)
  | 0, _ => none
  | fuel + 1, cs =>
    match skipSpace cs with
    | '"' :: cs => do
      let (key, rest) ← string? cs
      match skipSpace rest with
      | ':' :: rest =>
        let (found, rest) ←
          if key ∈ names then
            (value? fuel (maxDepth - 1) rest).map fun (value, rest) =>
              ([(key, settle value)], rest)
          else (skipValue? fuel rest).map (([], ·))
        match skipSpace rest with
        | ',' :: rest =>
          let (members, rest) ← membersFor? names fuel rest
          return (found ++ members, rest)
        | '\x7d' :: rest => return (found, rest)
        | _ => none
      | _ => none
    | _ => none

/-- A whole text as a document; of a top-level object only the members with the given names, each
as often as it is written. -/
def readFor? (names : List String) (cs : List Char) : Option Json :=
  match skipSpace cs with
  | '\x7b' :: inner => do
    let (members, rest) ← match skipSpace inner with
      | '\x7d' :: rest => some ([], rest)
      | rest => membersFor? names (fuelFor cs) rest
    if skipSpace rest = [] then some (.obj members) else none
  | _ => parse? cs

end CrmEmulator.Json
