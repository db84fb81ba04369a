import CrmEmulator.Query.Fault
import CrmEmulator.Text.LetterCase
import CrmEmulator.Text.Basic

/-!
# CrmEmulator.Query.Token — tokens of SOQL and SOSL

1. `Token`, its keywords and its description in messages.
2. Quoted strings: a backslash takes the next character as it is, but for line feed and tab, and
   for the LIKE wildcards, which keep their backslash.
3. `Token.scan` splits a text into tokens.  A character that begins no token is refused with its
   position.
-/

namespace CrmEmulator

/-- A token of SOQL and SOSL. -/
inductive Token
  /-- A bare word: keyword, name or unquoted literal. -/
  | word (text : String)
  /-- A string between single quotes, with its escapes resolved. -/
  | str (text : String)
  /-- A search term between braces, without white space around it. -/
  | braced (text : String)
  | comma
  | lparen
  | rparen
  | star
  | op (symbol : String)
deriving Repr, DecidableEq

namespace Token

/-- Is the token a given keyword, in any case of ASCII letters? -/
def isKeyword (keyword : String) : Token → Bool
  | word text => sameWord text.toList keyword.toList
  | _ => false

/-- The token as messages show it. -/
def describe : Token → String
  | word text => text
  | str text => "'" ++ text ++ "'"
  | braced text => "\x7b" ++ text ++ "\x7d"
  | comma => ","
  | lparen => "("
  | rparen => ")"
  | star => "*"
  | op symbol => symbol

/-! ## Scanning -/

/-- Characters that end a bare word and begin other tokens. -/
def delimiters : List Char := ",()'=<>!\x7b\x7d*".toList

/-- A character of a bare word. -/
def isWordChar (c : Char) : Bool := !isBlank c && !delimiters.contains c

/-- What a backslash and the character after it stand for. -/
def unescape (c : Char) : List Char :=
  match c with
  | 'n' => ['\n']
  | 't' => ['\t']
  | '%' => ['\\', '%']
  | '_' => ['\\', '_']
  | c => [c]

/-- The content of a string after its opening quote, and the text after the closing one. -/
def quoted? : List Char → Option (List Char × List Char)
  | [] => none
  | '\'' :: cs => some ([], cs)
  | '\\' :: c :: cs => (quoted? cs).map fun (text, rest) => (unescape c ++ text, rest)
  | c :: cs => (quoted? cs).map fun (text, rest) => (c :: text, rest)

/-- The first token of a text that does not begin with white space, and the text after it.  The
position is that of the text's first character. -/
def next (position : Nat) : List Char → Except QueryFault (Token × List Char)
  | [] => .error (.unexpectedToken "")
  | ',' :: cs => .ok (comma, cs)
  | '(' :: cs => .ok (lparen, cs)
  | ')' :: cs => .ok (rparen, cs)
  | '*' :: cs => .ok (star, cs)
  | '\'' :: cs =>
    match quoted? cs with
    | some (text, rest) => .ok (str (String.ofList text), rest)
    | none => .error .unterminatedString
  | '\x7b' :: cs =>
    match cutAt? '\x7d' cs with
    | some (text, rest) => .ok (braced (String.ofList (trim text)), rest)
    | none => .error .unterminatedTerm
  | '=' :: cs => .ok (op "=", cs)
  | '!' :: '=' :: cs => .ok (op "!=", cs)
  | '<' :: '=' :: cs => .ok (op "<=", cs)
  | '<' :: '>' :: cs => .ok (op "<>", cs)
  | '>' :: '=' :: cs => .ok (op ">=", cs)
  | '<' :: cs => .ok (op "<", cs)
  | '>' :: cs => .ok (op ">", cs)
  | c :: cs =>
    if c = '!' ∨ c = '\x7d' then .error (.unexpectedCharacter c position)
    else .ok (word (String.ofList (c :: cs.takeWhile isWordChar)), cs.dropWhile isWordChar)

/-- The tokens of a text; every step takes at least one character, so the length of the text is
fuel enough. -/
def scanWith : (fuel position : Nat) → List Char → Except QueryFault (List Token)
  | _, _, [] => .ok []
  | 0, _, _ :: _ => .ok []
  | fuel + 1, position, c :: cs =>
    if isBlank c then scanWith fuel (position + 1) cs
    else do
      let (token, rest) ← next position (c :: cs)
      let tokens ← scanWith fuel (position + (cs.length + 1 - rest.length)) rest
      return token :: tokens

/-- The tokens of a text. -/
def scan (cs : List Char) : Except QueryFault (List Token) := scanWith cs.length 0 cs

end Token

end CrmEmulator
