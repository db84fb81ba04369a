import CrmEmulator.Query.Token
import CrmEmulator.Value

/-!
# CrmEmulator.Query.Condition — conditions and their grammar

1. `Condition` and `Where`: comparisons joined from left to right, where `AND` does not bind
   tighter than `OR`.
2. The steps of reading that SOQL and SOSL share: names, counts, literals.
3. `Where.read`: SOQL admits all conditions, a SOSL object list only comparisons.
-/

namespace CrmEmulator

/-! ## Conditions -/

inductive CompareOp
  | eq
  | ne
  | gt
  | ge
  | lt
  | le
  | like
  | isIn
  | notIn
deriving Repr, DecidableEq

/-- The operator with a symbol. -/
def CompareOp.ofSymbol? : String → Option CompareOp
  | "=" => some .eq
  | "!=" | "<>" => some .ne
  | ">" => some .gt
  | ">=" => some .ge
  | "<" => some .lt
  | "<=" => some .le
  | _ => none

/-- What a field is compared with. -/
inductive Operand
  | value (value : Value)
  /-- The members of a list, compared as texts. -/
  | list (members : List String)
deriving DecidableEq

structure Condition where
  field : String
  op : CompareOp
  operand : Operand
deriving DecidableEq

inductive Connective
  | and
  | or
deriving Repr, DecidableEq

/-- Conditions joined strictly from left to right. -/
structure Where where
  first : Condition
  rest : List (Connective × Condition)
deriving DecidableEq

/-- Which conditions may occur. -/
inductive Dialect
  /-- Comparisons, `LIKE`, `IN` and `NOT IN`. -/
  | full
  /-- Comparisons only. -/
  | comparisons
deriving Repr, DecidableEq

/-! ## Shared steps of reading -/

/-- A reader of something at the beginning of a list of tokens. -/
abbrev TokenReader (α : Type) := List Token → Except QueryFault (α × List Token)

namespace Token

/-- The refusal of what stands at the beginning of a list of tokens. -/
def refuse {α : Type} (what : String) (tokens : List Token) : Except QueryFault α :=
  .error (.expected what (tokens.head?.map describe))

/-- The tokens after a keyword, if it comes first. -/
def afterKeyword? (keyword : String) : List Token → Option (List Token)
  | t :: rest => if t.isKeyword keyword then some rest else none
  | [] => none

/-- Does a keyword come first? -/
def atKeyword (keyword : String) (tokens : List Token) : Bool :=
  (afterKeyword? keyword tokens).isSome

/-- The tokens after a keyword that has to come first. -/
def keyword (keyword : String) (tokens : List Token) : Except QueryFault (List Token) :=
  match afterKeyword? keyword tokens with
  | some rest => .ok rest
  | none => refuse keyword tokens

/-- The tokens after a punctuation mark that has to come first. -/
def mark (t : Token) (tokens : List Token) : Except QueryFault (List Token) :=
  match tokens with
  | u :: rest => if u = t then .ok rest else refuse ("'" ++ t.describe ++ "'") tokens
  | [] => refuse ("'" ++ t.describe ++ "'") tokens

/-- Letters, numbers, underscores, and dots for paths. -/
def isName (text : String) : Bool :=
  !text.toList.isEmpty && text.toList.all fun c => isAlphanumeric c || c == '_' || c == '.'

/-- A name; `what` says in messages which one is expected. -/
def name (what : String) : TokenReader String
  | word text :: rest =>
    if isName text then .ok (text, rest) else refuse what (word text :: rest)
  | tokens => refuse what tokens

/-- The number of a clause. -/
def count (clause : String) : TokenReader Nat
  | word text :: rest =>
    match Numeral.count? 64 text.toList with
    | some n => .ok (n, rest)
    | none => .error (.notACount clause (some text))
  | tokens => .error (.notACount clause (tokens.head?.map describe))

/-- Nothing may be left. -/
def finish : List Token → Except QueryFault Unit
  | [] => .ok ()
  | t :: _ => .error (.unexpectedToken t.describe)

/-- What a bare word stands for: a truth value, null, an integer, a double, or itself. -/
def literalOfWord (text : String) : Value :=
  let cs := text.toList
  if sameWord cs "true".toList then .boolean true
  else if sameWord cs "false".toList then .boolean false
  else if sameWord cs "null".toList then .null
  else match Numeral.int64? cs with
    | some n => .integer n
    | none =>
      if cs.any Char.isDigit then
        match Double.ofText? cs with
        | some x => .double x
        | none => .text text
      else .text text

/-- A single value. -/
def literal : TokenReader Value
  | str text :: rest => .ok (.text text, rest)
  | word text :: rest => .ok (literalOfWord text, rest)
  | tokens => refuse "a value" tokens

/-- The members of a list after its opening parenthesis; they are texts, whether quoted or not. -/
def members : TokenReader (List String)
  | str text :: comma :: rest | word text :: comma :: rest => do
    let (texts, rest) ← members rest
    return (text :: texts, rest)
  | str text :: rest | word text :: rest => do
    let rest ← mark rparen rest
    return ([text], rest)
  | tokens => refuse "a list value" tokens

/-- A list of values between parentheses. -/
def list (tokens : List Token) : Except QueryFault (List String × List Token) := do
  members (← mark lparen tokens)

end Token

/-! ## Reading conditions -/

/-- The conditions that go beyond comparisons, after the field they test. -/
def Condition.readSpecial (field : String) (tokens : List Token) :
    Except QueryFault (Condition × List Token) :=
  match Token.afterKeyword? "LIKE" tokens with
  | some (.str pattern :: rest) => .ok (⟨field, .like, .value (.text pattern)⟩, rest)
  | some rest => .error (.notAPattern (rest.head?.map Token.describe))
  | none =>
    match Token.afterKeyword? "IN" tokens with
    | some rest => do
      let (texts, rest) ← Token.list rest
      return (⟨field, .isIn, .list texts⟩, rest)
    | none =>
      match (Token.afterKeyword? "NOT" tokens).bind (Token.afterKeyword? "IN") with
      | some rest => do
        let (texts, rest) ← Token.list rest
        return (⟨field, .notIn, .list texts⟩, rest)
      | none => Token.refuse ("operator after '" ++ field ++ "'") tokens

/-- A condition of a dialect. -/
def Condition.read (dialect : Dialect) : TokenReader Condition := fun tokens => do
  let (field, rest) ← Token.name "field name in condition" tokens
  match rest with
  | .op symbol :: rest =>
    match CompareOp.ofSymbol? symbol with
    | some op => do
      let (value, rest) ← Token.literal rest
      return (⟨field, op, .value value⟩, rest)
    | none => .error (.unknownOperator symbol)
  | _ =>
    match dialect with
    | .full => Condition.readSpecial field rest
    | .comparisons => Token.refuse ("operator after '" ++ field ++ "'") rest

/-- The connective that comes first. -/
def Connective.read? (tokens : List Token) : Option (Connective × List Token) :=
  match Token.afterKeyword? "AND" tokens with
  | some rest => some (.and, rest)
  | none => (Token.afterKeyword? "OR" tokens).map (.or, ·)

/-- Further conditions, each after a connective.  Every round takes at least one token. -/
def Where.readRest (dialect : Dialect) :
    (fuel : Nat) → TokenReader (List (Connective × Condition))
  | 0, tokens => .ok ([], tokens)
  | fuel + 1, tokens =>
    match Connective.read? tokens with
    | none => .ok ([], tokens)
    | some (connective, rest) => do
      let (condition, rest) ← Condition.read dialect rest
      let (more, rest) ← Where.readRest dialect fuel rest
      return ((connective, condition) :: more, rest)

/-- One or more conditions. -/
def Where.read (dialect : Dialect) : TokenReader Where := fun tokens => do
  let (first, rest) ← Condition.read dialect tokens
  let (more, rest) ← Where.readRest dialect rest.length rest
  return (⟨first, more⟩, rest)

end CrmEmulator
