import CrmEmulator.Record
import CrmEmulator.Text.Matching

/-!
# CrmEmulator.Xml — flat XML documents

The documents of the asynchronous interface are flat, so they are read by looking for elements
without markup inside them, and written line by line.

1. Escaping of markup characters.
2. `elementText?`: the text of the first element with a name.
3. `parseRecords`: the records of a document of `sObject` blocks.
4. `Document`: a document under construction.
-/

namespace CrmEmulator.Xml

/-! ## Escaping -/

def escapeChar (c : Char) : List Char :=
  match c with
  | '&' => "&amp;".toList
  | '<' => "&lt;".toList
  | '>' => "&gt;".toList
  | '"' => "&quot;".toList
  | '\'' => "&apos;".toList
  | c => [c]

/-- The text with its markup characters escaped. -/
def escape (cs : List Char) : List Char := cs.flatMap escapeChar

/-- The text with the five entities resolved, one kind after the other, ampersands last. -/
def unescape (cs : List Char) : List Char :=
  cs |> replaceAll "&lt;".toList ['<']
    |> replaceAll "&gt;".toList ['>']
    |> replaceAll "&quot;".toList ['"']
    |> replaceAll "&apos;".toList ['\'']
    |> replaceAll "&amp;".toList ['&']

/-- What the text between two tags stands for. -/
def contentText (cs : List Char) : String := String.ofList (unescape (trim cs))

/-! ## Names and tags -/

def isNameStart (c : Char) : Bool := c.isAlpha || c == '_'

def isNameChar (c : Char) : Bool := c.isAlphanum || c == '_'

/-- A name that begins with a letter or an underscore. -/
def fieldName? (cs : List Char) : Option (List Char × List Char) :=
  match cs with
  | c :: _ => if isNameStart c then some (cs.takeWhile isNameChar, cs.dropWhile isNameChar) else none
  | [] => none

/-- A name after an optional name space with its colon. -/
def qualifiedName? (cs : List Char) : Option (List Char × List Char) :=
  let word := cs.takeWhile isNameChar
  if word = [] then none
  else match cs.dropWhile isNameChar with
    | ':' :: rest =>
      let name := rest.takeWhile isNameChar
      if name = [] then none else some (name, rest.dropWhile isNameChar)
    | rest => some (word, rest)

/-- The text after a tag whose name was read: its end follows at once, or after white space and
attributes. -/
def tagEnd? (cs : List Char) : Option (List Char) :=
  match cs with
  | '>' :: rest => some rest
  | c :: rest => if isBlank c then (cutAt? '>' rest).map (·.2) else none
  | [] => none

/-! ## Elements -/

/-- An element with its opening name, its content and its closing name. -/
structure Element where
  opened : List Char
  content : List Char
  closed : List Char
deriving Repr, DecidableEq

/-- Content without markup, and a closing tag whose name is read by the given reader. -/
def elementRest? (name? : List Char → Option (List Char × List Char)) (opened cs : List Char) :
    Option (Element × List Char) := do
  let content := cs.takeWhile (· ≠ '<')
  let rest ← afterBeginning? "</".toList (cs.dropWhile (· ≠ '<'))
  let (closed, rest) ← name? rest
  let rest ← afterBeginning? ['>'] rest
  return (⟨opened, content, closed⟩, rest)

/-- An element whose tags may have name spaces, and the opening one attributes. -/
def textElement : Pattern Element := fun cs => do
  let rest ← afterBeginning? ['<'] cs
  let (opened, rest) ← qualifiedName? rest
  elementRest? qualifiedName? opened (← tagEnd? rest)

/-- The text of the first element with a name, in any case of ASCII letters. -/
def elementText? (xml : List Char) (tag : String) : Option String :=
  ((findAll textElement xml).find? fun e =>
    sameWord e.opened tag.toList && sameWord e.closed tag.toList).map (contentText ·.content)

/-- An element of a record: tags without name spaces and attributes. -/
def fieldElement : Pattern Element := fun cs => do
  let rest ← afterBeginning? ['<'] cs
  let (opened, rest) ← fieldName? rest
  elementRest? fieldName? opened (← afterBeginning? ['>'] rest)

/-- An element of a record that says that its field is null. -/
def nilElement : Pattern (List Char) := fun cs => do
  let rest ← afterBeginning? ['<'] cs
  let (name, rest) ← fieldName? rest
  if !(rest.head?.any isBlank) then none
  let rest ← afterBeginning? "xsi:nil=\"true\"".toList (rest.dropWhile isBlank)
  let rest ← afterBeginning? "/>".toList (rest.dropWhile isBlank)
  return (name, rest)

/-! ## Records -/

/-- The closing tag of a record, in any letter case. -/
def closeRecord : Pattern Unit := fun cs => (afterFolded? "</sObject>".toList cs).map ((), ·)

/-- The content of a record, from its opening tag to the next closing one. -/
def recordBlock : Pattern (List Char) := fun cs => do
  let rest ← tagEnd? (← afterFolded? "<sObject".toList cs)
  untilMatch? closeRecord rest

/-- The record of a block: its elements with equal tags in order, then the fields that are null. -/
def recordOfBlock (block : List Char) : Record :=
  let texts := (findAll fieldElement block).filter fun e => e.opened == e.closed
  let nulls := findAll nilElement block
  (Record.ofFields (texts.map fun e => (String.ofList e.opened, .text (contentText e.content)))).setAll
    (nulls.map fun name => (String.ofList name, .null))

/-- The records of a document; those without fields are left out. -/
def parseRecords (xml : List Char) : List Record :=
  ((findAll recordBlock xml).map recordOfBlock).filter fun r => !r.fields.isEmpty

/-! ## Writing -/

def dataloadNamespace : String := "http://www.force.com/2009/06/asyncapi/dataload"

def declaration : String := "<?xml version=\"1.0\" encoding=\"UTF-8\"?>"

/-- A document under construction: its root element, the lines inside it, and how deep the next
line stands. -/
structure Document where
  root : String
  lines : List String
  depth : Nat
deriving Repr, DecidableEq

namespace Document

def new (root : String) : Document := ⟨root, [], 1⟩

/-- A line with two blanks for each level. -/
def line (d : Document) (s : String) : Document :=
  { d with lines := d.lines ++ [String.ofList (List.replicate (2 * d.depth) ' ') ++ s] }

/-- An element with its text escaped. -/
def element (d : Document) (name value : String) : Document :=
  d.line ("<" ++ name ++ ">" ++ String.ofList (escape value.toList) ++ "</" ++ name ++ ">")

/-- Open an element; the lines after it stand one level deeper. -/
def openTag (d : Document) (name : String) : Document :=
  { d.line ("<" ++ name ++ ">") with depth := d.depth + 1 }

/-- Close an element. -/
def closeTag (d : Document) (name : String) : Document :=
  let d := { d with depth := d.depth - 1 }
  d.line ("</" ++ name ++ ">")

/-- The text of the document. -/
def finish (d : Document) : String :=
  declaration ++ "\n<" ++ d.root ++ " xmlns=\"" ++ dataloadNamespace ++ "\">\n" ++
    String.join (d.lines.map (· ++ "\n")) ++ "</" ++ d.root ++ ">"

end Document

end CrmEmulator.Xml
