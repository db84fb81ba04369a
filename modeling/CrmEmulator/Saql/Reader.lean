import CrmEmulator.Saql.Basic
import CrmEmulator.Saql.Token

/-!
# CrmEmulator.Saql.Reader — reading programs

`q = load "dataset"; q = filter q by ...; q = group q by ...; q = foreach q generate ...;
q = order q by ...; q = limit q n`, where the last semicolon may be missing.  A statement may only
use streams that were assigned before it.
-/

namespace CrmEmulator.Saql

/-- A reader of something at the beginning of a list of tokens. -/
abbrev Reader (α : Type) := List Token → Except QueryFault (α × List Token)

/-! ## Shared steps -/

def refuse {α : Type} (what : String) (tokens : List Token) : Except QueryFault α :=
  .error (.expected what (tokens.head?.map Token.describe))

/-- The tokens after a keyword, if it comes first. -/
def afterKeyword? (keyword : String) : List Token → Option (List Token)
  | t :: rest => if t.isKeyword keyword then some rest else none
  | [] => none

def keyword (keyword : String) (tokens : List Token) : Except QueryFault (List Token) :=
  match afterKeyword? keyword tokens with
  | some rest => .ok rest
  | none => refuse keyword tokens

/-- The tokens after a punctuation mark that has to come first. -/
def mark (t : Token) (tokens : List Token) : Except QueryFault (List Token) :=
  match tokens with
  | u :: rest => if u = t then .ok rest else refuse ("'" ++ t.describe ++ "'") tokens
  | [] => refuse ("'" ++ t.describe ++ "'") tokens

def readName (what : String) : Reader String
  | .name text :: rest => .ok (text, rest)
  | tokens => refuse what tokens

def readField : Reader String
  | .field text :: rest => .ok (text, rest)
  | tokens => refuse "a quoted field name" tokens

/-- The name of a stream that is among the known ones. -/
def readStream (known : List String) : Reader String := fun tokens => do
  let (name, rest) ← readName "a stream name" tokens
  if known.contains name then return (name, rest) else .error (.undefinedStream name)

/-- One or more things with a separator between them, given by the tokens after it.  Every round
takes at least one token. -/
def readSeparated {α : Type} (read : Reader α) (afterSeparator? : List Token → Option (List Token)) :
    (fuel : Nat) → Reader (List α)
  | 0, tokens => do
    let (x, rest) ← read tokens
    return ([x], rest)
  | fuel + 1, tokens => do
    let (x, rest) ← read tokens
    match afterSeparator? rest with
    | some rest =>
      let (xs, rest) ← readSeparated read afterSeparator? fuel rest
      return (x :: xs, rest)
    | none => return ([x], rest)

def afterComma? : List Token → Option (List Token)
  | .comma :: rest => some rest
  | _ => none

/-- Two ampersands or the keyword. -/
def afterAnd? : List Token → Option (List Token)
  | .and :: rest => some rest
  | tokens => afterKeyword? "and" tokens

def readList {α : Type} (read : Reader α) : Reader (List α) := fun tokens =>
  readSeparated read afterComma? tokens.length tokens

/-- One thing, or several between parentheses. -/
def readOneOrMore {α : Type} (read : Reader α) : Reader (List α)
  | .lparen :: rest => do
    let (xs, rest) ← readList read rest
    return (xs, ← mark .rparen rest)
  | tokens => do
    let (x, rest) ← read tokens
    return ([x], rest)

/-! ## Steps -/

/-- A number with a point is a double, any other a 64-bit integer. -/
def numberValue (text : String) : Except QueryFault Value :=
  let cs := text.toList
  let value :=
    if cs.contains '.' then (Double.ofText? cs).map Value.double
    else (Numeral.int64? cs).map Value.integer
  match value with
  | some v => .ok v
  | none => .error (.invalidNumber text)

def readOperator : Reader CompareOp
  | .op "==" :: rest => .ok (.eq, rest)
  | .op "!=" :: rest => .ok (.ne, rest)
  | .op ">" :: rest => .ok (.gt, rest)
  | .op ">=" :: rest => .ok (.ge, rest)
  | .op "<" :: rest => .ok (.lt, rest)
  | .op "<=" :: rest => .ok (.le, rest)
  | tokens => refuse "a comparison operator" tokens

def readLiteral : Reader Value
  | .str text :: rest | .field text :: rest => .ok (.text text, rest)
  | .number text :: rest => do return (← numberValue text, rest)
  | tokens => refuse "a literal" tokens

def readTest : Reader Test := fun tokens => do
  let (field, rest) ← readField tokens
  let (op, rest) ← readOperator rest
  let (value, rest) ← readLiteral rest
  return (⟨field, op, value⟩, rest)

def readColumn : Reader Column
  | .field name :: rest => .ok (.field name, rest)
  | .name written :: rest => do
    match Aggregate.ofName? written with
    | none => .error (.unknownFunction written)
    | some function =>
      let rest ← mark .lparen rest
      let (field, rest) ← match rest with
        | .rparen :: _ => .ok (none, rest)
        | _ => do
          let (field, rest) ← readField rest
          pure (some field, rest)
      let rest ← mark .rparen rest
      if field.isNone ∧ function ≠ .count then .error (.aggregateField function.name)
      else return (.aggregate function field, rest)
  | tokens => refuse "a field or aggregate" tokens

def readAlias : Reader String
  | .field text :: rest | .str text :: rest | .name text :: rest => .ok (text, rest)
  | _ => .error .noAlias

def readItem : Reader Item := fun tokens => do
  let (column, rest) ← readColumn tokens
  match afterKeyword? "as" rest with
  | some rest =>
    let (name, rest) ← readAlias rest
    return (⟨column, name⟩, rest)
  | none => return (⟨column, column.defaultAlias⟩, rest)

def readKey : Reader (String × SortDirection) := fun tokens => do
  let (field, rest) ← readField tokens
  match afterKeyword? "desc" rest with
  | some rest => return ((field, .desc), rest)
  | none => return ((field, .asc), (afterKeyword? "asc" rest).getD rest)

/-- The fields of a group; the keyword `all` stands for none. -/
def readGroupFields : Reader (List String) := fun tokens =>
  match afterKeyword? "all" tokens with
  | some rest => .ok ([], rest)
  | none => readOneOrMore readField tokens

def readLimit : Reader Nat
  | .number text :: rest =>
    match Numeral.count? 64 text.toList with
    | some n => .ok (n, rest)
    | none => .error .limitCount
  | _ => .error .limitCount

/-- The step of a statement after its verb, in lower case, with the stream that it reads. -/
def readStep (known : List String) (verb : String) : Reader (String × Step) := fun tokens =>
  match verb with
  | "filter" => do
    let (source, rest) ← readStream known tokens
    let rest ← keyword "by" rest
    let (tests, rest) ← readSeparated readTest afterAnd? rest.length rest
    return ((source, .filter tests), rest)
  | "foreach" => do
    let (source, rest) ← readStream known tokens
    let rest ← keyword "generate" rest
    let (items, rest) ← readList readItem rest
    return ((source, .generate items), rest)
  | "group" => do
    let (source, rest) ← readStream known tokens
    let rest ← keyword "by" rest
    let (fields, rest) ← readGroupFields rest
    return ((source, .group fields), rest)
  | "order" => do
    let (source, rest) ← readStream known tokens
    let rest ← keyword "by" rest
    let (keys, rest) ← readOneOrMore readKey rest
    return ((source, .order keys), rest)
  | "limit" => do
    let (source, rest) ← readStream known tokens
    let (n, rest) ← readLimit rest
    return ((source, .limit n), rest)
  | _ => .error (.unsupportedStatement verb)

/-! ## Programs -/

/-- The beginning of a statement: its target and its verb in lower case. -/
def readAssignment : Reader (String × String) := fun tokens => do
  let (target, rest) ← readName "a stream name" tokens
  let rest ← mark .assign rest
  let (verb, rest) ← readName "load, filter, foreach, group, order or limit" rest
  return ((target, String.ofList (verb.toList.map Char.toLower)), rest)

/-- The end of a statement: a semicolon, or the end of the text. -/
def readEnd : List Token → Except QueryFault (List Token)
  | .semicolon :: rest => .ok rest
  | [] => .ok []
  | tokens => refuse "';'" tokens

/-- The statements after the first.  Every round takes at least one token. -/
def readStatements : (fuel : Nat) → (known : List String) → List Token →
    Except QueryFault (List Statement)
  | _, _, [] => .ok []
  | 0, _, _ => .ok []
  | fuel + 1, known, tokens => do
    let ((target, verb), rest) ← readAssignment tokens
    if verb = "load" then .error .secondLoad
    else
      let ((source, step), rest) ← readStep known verb rest
      let rest ← readEnd rest
      return ⟨target, source, step⟩ :: (← readStatements fuel (target :: known) rest)

/-- The program that a list of tokens spells out. -/
def Program.ofTokens (tokens : List Token) : Except QueryFault Program :=
  match tokens with
  | [] => .error .noLoad
  | _ => do
    let ((target, verb), rest) ← readAssignment tokens
    if verb ≠ "load" then .error .loadNotFirst
    else match rest with
      | .str dataset :: rest =>
        let rest ← readEnd rest
        return ⟨target, dataset, ← readStatements rest.length [target] rest⟩
      | _ => .error .loadReference

/-- The program of a text. -/
def Program.parse (text : String) : Except QueryFault Program := do
  Program.ofTokens (← Token.scan text.toList)

end CrmEmulator.Saql
