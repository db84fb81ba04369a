import CrmEmulator.Query.Fault
import CrmEmulator.Text.LetterCase
import CrmEmulator.Text.Basic

/-!
# CrmEmulator.Saql.Token — tokens of the analytics language

Field names stand between single quotes and texts between double quotes; in both a backslash takes
the next character literally.
-/

namespace CrmEmulator.Saql

inductive Token
  | name (text : String)
  /-- A name between single quotes. -/
  | field (text : String)
  /-- A text between double quotes. -/
  | str (text : String)
  | number (text : String)
  /-- A comparison operator. -/
  | op (symbol : String)
  | assign
  | semicolon
  | comma
  | lparen
  | rparen
  /-- Two ampersands. -/
  | and
deriving Repr, DecidableEq

namespace Token

/-- Is the token a given keyword, in any case of ASCII letters? -/
def isKeyword (keyword : String) : Token → Bool
  | name text => sameWord text.toList keyword.toList
  | _ => false

/-- The token as messages show it. -/
def describe : Token → String
  | name text | number text => text
  | field text => "'" ++ text ++ "'"
  | str text => "\"" ++ text ++ "\""
  | op symbol => symbol
  | assign => "="
  | semicolon => ";"
  | comma => ","
  | lparen => "("
  | rparen => ")"
  | and => "&&"

/-! ## Scanning -/

def isNameChar (c : Char) : Bool := isAlphanumeric c || c == '_'

def isNumberChar (c : Char) : Bool := c.isDigit || c == '.'

/-- Text up to a closing quote, and what stands after it. -/
def quoted? (quote : Char) : List Char → Option (List Char × List Char)
  | [] => none
  | [c] => if c = quote then some ([], []) else none
  | c :: d :: cs =>
    if c = '\\' then (quoted? quote cs).map fun (text, rest) => (d :: text, rest)
    else if c = quote then some ([], d :: cs)
    else (quoted? quote (d :: cs)).map fun (text, rest) => (c :: text, rest)

/-- Does a number begin here?  A minus sign needs a digit after it. -/
def atNumber : List Char → Bool
  | '-' :: c :: _ => c.isDigit
  | c :: _ => c.isDigit
  | [] => false

/-- The first token of a text that does not begin with white space, and the text after it.  The
position is that of the text's first character. -/
def next (position : Nat) : List Char → Except QueryFault (Token × List Char)
  | [] => .error (.unexpectedToken "")
  | ';' :: cs => .ok (semicolon, cs)
  | ',' :: cs => .ok (comma, cs)
  | '(' :: cs => .ok (lparen, cs)
  | ')' :: cs => .ok (rparen, cs)
  | '\'' :: cs =>
    match quoted? '\'' cs with
    | some (text, rest) => .ok (field (String.ofList text), rest)
    | none => .error (.unterminatedLiteral '\'')
  | '"' :: cs =>
    match quoted? '"' cs with
    | some (text, rest) => .ok (str (String.ofList text), rest)
    | none => .error (.unterminatedLiteral '"')
  | '&' :: '&' :: cs => .ok (and, cs)
  | '=' :: '=' :: cs => .ok (op "==", cs)
  | '=' :: cs => .ok (assign, cs)
  | '!' :: '=' :: cs => .ok (op "!=", cs)
  | '<' :: '=' :: cs => .ok (op "<=", cs)
  | '>' :: '=' :: cs => .ok (op ">=", cs)
  | '<' :: cs => .ok (op "<", cs)
  | '>' :: cs => .ok (op ">", cs)
  | c :: cs =>
    if atNumber (c :: cs) then
      .ok (number (String.ofList (c :: cs.takeWhile isNumberChar)), cs.dropWhile isNumberChar)
    else if isNameChar c then
      .ok (name (String.ofList (c :: cs.takeWhile isNameChar)), cs.dropWhile isNameChar)
    else .error (.unexpectedCharacter c position)

/-- The tokens of a text; every step takes at least one character, so the length of the text is
fuel enough. -/
def scanWith : (fuel position : Nat) → List Char → Except QueryFault (List Token)
  | _, _, [] => .ok []
  | 0, _, _ :: _ => .ok []
  | fuel + 1, position, c :: cs =>
    if isBlank c then scanWith fuel (position + 1) cs
    else do
      let (token, rest) ← next position (c :: cs)
      let tokens ← scanWith fuel (position + (cs.length + 1 - rest.length)) rest
      return token :: tokens

/-- The tokens of a text. -/
def scan (cs : List Char) : Except QueryFault (List Token) := scanWith cs.length 0 cs

end Token

end CrmEmulator.Saql
