import CrmEmulator.Failure

/-!
# CrmEmulator.Query.Fault — why a query text is refused

Each cause carries what its message shows.  A token that was found is given by its description;
none stands for the end of the text.
-/

namespace CrmEmulator

/-- Why a query text is refused. -/
inductive QueryFault
  | noText (language : String)
  | unterminatedTerm
  | unterminatedString
  | unterminatedLiteral (quote : Char)
  | unexpectedCharacter (c : Char) (position : Nat)
  | expected (what : String) (found : Option String)
  | unexpectedToken (token : String)
  | unknownOperator (symbol : String)
  | notACount (clause : String) (found : Option String)
  | notAPattern (found : Option String)
  | duplicateClause (clause : String)
  | unreadableFind (text : String)
  | unreadableReturning (text : String)
  | noScope
  | unknownScope (word : String)
  | undefinedStream (name : String)
  | secondLoad
  | loadReference
  | loadNotFirst
  | noLoad
  | limitCount
  | unsupportedStatement (verb : String)
  | unknownFunction (name : String)
  | aggregateField (name : String)
  | noAlias
  | invalidNumber (text : String)
deriving Repr, DecidableEq

namespace QueryFault

/-- How a message names what was found. -/
def foundText : Option String → String
  | some token => "'" ++ token ++ "'"
  | none => "end of query"

def message : QueryFault → String
  | noText language => language ++ " query is required"
  | unterminatedTerm => "unterminated '\x7b' in search term"
  | unterminatedString => "unterminated string literal"
  | unterminatedLiteral quote => "unterminated " ++ String.singleton quote ++ " literal"
  | unexpectedCharacter c position =>
    "unexpected character '" ++ String.singleton c ++ "' at position " ++ toString position
  | expected what found => "expected " ++ what ++ ", found " ++ foundText found
  | unexpectedToken token => "unexpected token '" ++ token ++ "'"
  | unknownOperator symbol => "unknown operator '" ++ symbol ++ "'"
  | notACount clause found =>
    clause ++ " expects a non-negative integer, found " ++ foundText found
  | notAPattern found => "LIKE expects a quoted pattern, found " ++ foundText found
  | duplicateClause clause => "duplicate " ++ clause ++ " clause"
  | unreadableFind text => "Cannot parse FIND clause: " ++ text
  | unreadableReturning text => "Cannot parse RETURNING clause: " ++ text
  | noScope => "expected search scope after IN"
  | unknownScope word => "unknown search scope '" ++ word ++ "'"
  | undefinedStream name => "undefined stream '" ++ name ++ "'"
  | secondLoad => "only one load statement is supported"
  | loadReference => "load expects a double-quoted dataset reference"
  | loadNotFirst => "SAQL must start with a load statement: q = load \"datasetRef\""
  | noLoad => "SAQL must contain a load statement: q = load \"datasetRef\""
  | limitCount => "limit expects a non-negative integer"
  | unsupportedStatement verb => "unsupported SAQL statement '" ++ verb ++ "'"
  | unknownFunction name => "unknown function '" ++ name ++ "'"
  | aggregateField name => name ++ "() needs a field"
  | noAlias => "as expects an alias"
  | invalidNumber text => "invalid number '" ++ text ++ "'"

/-- A refused text as a failure of the request. -/
def failure (fault : QueryFault) : Failure := .malformedQuery fault.message

end QueryFault

end CrmEmulator
