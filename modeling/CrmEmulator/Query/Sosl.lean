import CrmEmulator.Query.Soql

/-!
# CrmEmulator.Query.Sosl — the search language

`FIND {term} [IN scope FIELDS] RETURNING Object[(fields [WHERE ...] [LIMIT n])], ...`.
-/

namespace CrmEmulator

/-- Which fields a search looks at. -/
inductive SearchScope
  | all
  | name
  | email
  | phone
  | sidebar
deriving Repr, DecidableEq

namespace SearchScope

def text : SearchScope → String
  | all => "ALL"
  | name => "NAME"
  | email => "EMAIL"
  | phone => "PHONE"
  | sidebar => "SIDEBAR"

/-- The scope of a word, in any case of ASCII letters. -/
def ofWord? (word : String) : Option SearchScope :=
  [all, name, email, phone, sidebar].find? fun s => s.text.toList == word.toList.map Char.toUpper

/-- The fields of a scope; none means all fields. -/
def fields? : SearchScope → Option (List String)
  | name => some ["Name", "FirstName", "LastName", "Title", "Subject"]
  | email => some ["Email", "PersonEmail"]
  | phone => some ["Phone", "MobilePhone", "Fax", "HomePhone"]
  | all | sidebar => none

end SearchScope

/-- An object that a search returns records of. -/
structure Returning where
  object : String
  /-- The fields to show; none means all. -/
  fields : List String
  filter : Option Where
  limit : Option Nat
deriving DecidableEq

/-- A search over the records of several objects. -/
structure Sosl where
  term : String
  scope : SearchScope
  returning : List Returning
deriving DecidableEq

namespace Sosl

/-! ## Reading -/

/-- Fields separated by commas.  Every round takes at least one token. -/
def readFields : (fuel : Nat) → TokenReader (List String)
  | 0, tokens => Token.refuse "field name in RETURNING" tokens
  | fuel + 1, tokens => do
    let (field, rest) ← match tokens with
      | .star :: rest => .ok ("*", rest)
      | _ => Token.name "field name in RETURNING" tokens
    match rest with
    | .comma :: rest =>
      let (fields, rest) ← readFields fuel rest
      return (field :: fields, rest)
    | _ => return ([field], rest)

/-- Does a list of fields begin here, and not a clause or the end? -/
def atFields (tokens : List Token) : Bool :=
  !Token.atKeyword "WHERE" tokens && !Token.atKeyword "LIMIT" tokens &&
    tokens.head? != some .rparen

/-- An object with what may stand in parentheses after it. -/
def readReturning : TokenReader Returning := fun tokens => do
  let (object, rest) ← Token.name "object name in RETURNING" tokens
  match rest with
  | .lparen :: rest =>
    let (fields, rest) ←
      if atFields rest then readFields (rest.length + 1) rest else .ok ([], rest)
    let (filter, rest) ← Soql.readOptional "WHERE" (Where.read .comparisons) rest
    let (limit, rest) ← Soql.readOptional "LIMIT" (Token.count "LIMIT") rest
    let rest ← Token.mark .rparen rest
    return (⟨object, fields, filter, limit⟩, rest)
  | _ => return (⟨object, [], none, none⟩, rest)

/-- Objects separated by commas.  Every round takes at least one token. -/
def readReturnings : (fuel : Nat) → TokenReader (List Returning)
  | 0, tokens => Token.refuse "object name in RETURNING" tokens
  | fuel + 1, tokens => do
    let (spec, rest) ← readReturning tokens
    match rest with
    | .comma :: rest =>
      let (specs, rest) ← readReturnings fuel rest
      return (spec :: specs, rest)
    | _ => return ([spec], rest)

/-- The scope after `IN`. -/
def readScope : TokenReader SearchScope
  | .word text :: rest =>
    match SearchScope.ofWord? text with
    | some scope => do return (scope, ← Token.keyword "FIELDS" rest)
    | none => .error (.unknownScope text)
  | _ => .error .noScope

/-- The search that a list of tokens spells out; `text` is shown where a clause is not found. -/
def ofTokens (text : String) (tokens : List Token) : Except QueryFault Sosl := do
  let rest ← Token.keyword "FIND" tokens
  let (term, rest) ← match rest with
    | .braced term :: rest =>
      if term.isEmpty then .error (.unreadableFind text) else .ok (term, rest)
    | _ => .error (.unreadableFind text)
  let (scope, rest) ← Soql.readOptional "IN" readScope rest
  let rest ← match Token.afterKeyword? "RETURNING" rest with
    | some rest => .ok rest
    | none => .error (.unreadableReturning text)
  let (returning, rest) ← readReturnings (rest.length + 1) rest
  Token.finish rest
  return ⟨term, scope.getD .all, returning⟩

/-- The search of a text. -/
def parse (text : String) : Except QueryFault Sosl :=
  if text.toList.all isBlank then .error (.noText "SOSL")
  else do ofTokens (String.ofList (trim text.toList)) (← Token.scan text.toList)

end Sosl

end CrmEmulator
