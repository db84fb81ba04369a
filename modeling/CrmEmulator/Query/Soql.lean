import CrmEmulator.Query.Condition

/-!
# CrmEmulator.Query.Soql — the query language

`SELECT fields | COUNT() FROM Object [WHERE ...] [ORDER BY field [ASC|DESC] [NULLS FIRST|LAST]]
[LIMIT n] [OFFSET n]`, with the last two clauses in either order and each at most once.
-/

namespace CrmEmulator

inductive SortDirection
  | asc
  | desc
deriving Repr, DecidableEq

inductive NullsPosition
  | first
  | last
deriving Repr, DecidableEq

structure OrderBy where
  field : String
  direction : SortDirection
  nulls : NullsPosition
deriving Repr, DecidableEq

/-- What a query selects: only the number of records, or fields, where `*` means all. -/
inductive Selection
  | count
  | fields (names : List String)
deriving Repr, DecidableEq

/-- A query over the records of one object. -/
structure Soql where
  select : Selection
  object : String
  filter : Option Where
  orderBy : Option OrderBy
  limit : Option Nat
  offset : Option Nat
deriving DecidableEq

namespace Soql

def isCount (q : Soql) : Bool := q.select == .count

/-! ## Reading -/

/-- A field of the selection; the keyword `FROM` is not taken for one. -/
def readField (tokens : List Token) : Except QueryFault (String × List Token) :=
  match tokens with
  | .star :: rest => .ok ("*", rest)
  | _ =>
    if Token.atKeyword "FROM" tokens then Token.refuse "field name" tokens
    else Token.name "field name" tokens

/-- Fields separated by commas.  Every round takes at least one token. -/
def readFields : (fuel : Nat) → TokenReader (List String)
  | 0, tokens => Token.refuse "field name" tokens
  | fuel + 1, tokens => do
    let (field, rest) ← readField tokens
    match rest with
    | .comma :: rest =>
      let (fields, rest) ← readFields fuel rest
      return (field :: fields, rest)
    | _ => return ([field], rest)

/-- `COUNT()` or a list of fields. -/
def readSelection : TokenReader Selection := fun tokens =>
  match Token.afterKeyword? "COUNT" tokens with
  | some (.lparen :: rest) => do
    return (.count, ← Token.mark .rparen rest)
  | _ => do
    let (fields, rest) ← readFields (tokens.length + 1) tokens
    return (.fields fields, rest)

def readDirection (tokens : List Token) : SortDirection × List Token :=
  match Token.afterKeyword? "DESC" tokens with
  | some rest => (.desc, rest)
  | none => (.asc, (Token.afterKeyword? "ASC" tokens).getD tokens)

def readNulls : TokenReader NullsPosition := fun tokens =>
  match Token.afterKeyword? "NULLS" tokens with
  | none => .ok (.last, tokens)
  | some rest =>
    match Token.afterKeyword? "FIRST" rest, Token.afterKeyword? "LAST" rest with
    | some rest, _ => .ok (.first, rest)
    | none, some rest => .ok (.last, rest)
    | none, none => Token.refuse "FIRST or LAST after NULLS" rest

def readOrderBy : TokenReader OrderBy := fun tokens => do
  let (field, rest) ← Token.name "field name after ORDER BY" tokens
  let (direction, rest) := readDirection rest
  let (nulls, rest) ← readNulls rest
  return (⟨field, direction, nulls⟩, rest)

/-- The clauses that cut a page out of the result: `LIMIT` and `OFFSET`. -/
structure Page where
  limit : Option Nat
  offset : Option Nat
deriving Repr, DecidableEq

/-- The page clauses in any order.  Every round takes at least one token. -/
def readPage : (fuel : Nat) → Page → TokenReader Page
  | 0, page, tokens => .ok (page, tokens)
  | fuel + 1, page, tokens =>
    match Token.afterKeyword? "LIMIT" tokens with
    | some rest =>
      if page.limit.isSome then .error (.duplicateClause "LIMIT")
      else do
        let (n, rest) ← Token.count "LIMIT" rest
        readPage fuel { page with limit := some n } rest
    | none =>
      match Token.afterKeyword? "OFFSET" tokens with
      | some rest =>
        if page.offset.isSome then .error (.duplicateClause "OFFSET")
        else do
          let (n, rest) ← Token.count "OFFSET" rest
          readPage fuel { page with offset := some n } rest
      | none => .ok (page, tokens)

/-- A clause that follows a keyword, if the keyword is there. -/
def readOptional {α : Type} (keyword : String) (read : TokenReader α) : TokenReader (Option α) :=
  fun tokens =>
    match Token.afterKeyword? keyword tokens with
    | some rest => do
      let (x, rest) ← read rest
      return (some x, rest)
    | none => .ok (none, tokens)

/-- The query that a list of tokens spells out. -/
def ofTokens (tokens : List Token) : Except QueryFault Soql := do
  let rest ← Token.keyword "SELECT" tokens
  let (select, rest) ← readSelection rest
  let rest ← Token.keyword "FROM" rest
  let (object, rest) ← Token.name "object name after FROM" rest
  let (filter, rest) ← readOptional "WHERE" (Where.read .full) rest
  let (orderBy, rest) ← readOptional "ORDER"
    (fun tokens => do readOrderBy (← Token.keyword "BY" tokens)) rest
  let (page, rest) ← readPage (rest.length + 1) ⟨none, none⟩ rest
  Token.finish rest
  return ⟨select, object, filter, orderBy, page.limit, page.offset⟩

/-- The query of a text. -/
def parse (text : String) : Except QueryFault Soql :=
  if text.toList.all isBlank then .error (.noText "SOQL")
  else do ofTokens (← Token.scan text.toList)

end Soql

end CrmEmulator
