import CrmEmulator.Record

/-!
# CrmEmulator.Csv — comma-separated values

Cells with commas, quotes or line breaks stand between quotes, and a quote inside is written twice.

1. `parseRows` splits a text into rows of cells.  A quote opens a quoted part only where the cell is
   still empty; rows end with a line feed, a carriage return, or both.
2. `Table` has a header and rows of its width.
3. `write` writes a table so that `parseRows` reads it back.
-/

namespace CrmEmulator

namespace Csv

/-! ## Reading -/

/-- Where the reader stands: the cells of the row before this one and the characters of this one,
both in reverse, and whether the row has begun. -/
structure Cursor where
  row : List String
  cell : List Char
  begun : Bool
deriving Repr, DecidableEq

namespace Cursor

def start : Cursor := ⟨[], [], false⟩

/-- Take a character into the cell. -/
def put (c : Char) (k : Cursor) : Cursor := ⟨k.row, c :: k.cell, true⟩

/-- Begin the next cell. -/
def nextCell (k : Cursor) : Cursor := ⟨String.ofList k.cell.reverse :: k.row, [], true⟩

/-- All cells of the row. -/
def cells (k : Cursor) : List String := (String.ofList k.cell.reverse :: k.row).reverse

end Cursor

/-- The rows of a text from a cursor on; `quoted` says whether it stands between quotes. -/
def rowsFrom : (quoted : Bool) → Cursor → List Char → List (List String)
  | _, k, [] => if k.begun || !k.cell.isEmpty || !k.row.isEmpty then [k.cells] else []
  | true, k, '"' :: '"' :: cs => rowsFrom true (k.put '"') cs
  | true, k, '"' :: cs => rowsFrom false k cs
  | true, k, c :: cs => rowsFrom true (k.put c) cs
  | false, k, '\r' :: '\n' :: cs => k.cells :: rowsFrom false .start cs
  | false, k, c :: cs =>
    if c = '"' ∧ k.cell = [] then rowsFrom true { k with begun := true } cs
    else if c = ',' then rowsFrom false k.nextCell cs
    else if c = '\n' ∨ c = '\r' then k.cells :: rowsFrom false .start cs
    else rowsFrom false (k.put c) cs

/-- The rows of a text. -/
def parseRows (text : List Char) : List (List String) := rowsFrom false .start text

/-! ## Tables -/

/-- A header and rows as wide as the header. -/
structure Table where
  headers : List String
  rows : List (List String)
deriving Repr, DecidableEq

/-- Cut a row, or fill it with empty cells, to a width. -/
def fitRow (width : Nat) (row : List String) : List String :=
  row.take width ++ List.replicate (width - row.length) ""

/-- The table of a text: the first row is the header, whose cells are trimmed, and rows of empty
cells are left out. -/
def parse (text : List Char) : Table :=
  match parseRows text with
  | [] => ⟨[], []⟩
  | header :: rows =>
    let headers := header.map fun cell => String.ofList (trim cell.toList)
    ⟨headers, (rows.filter fun row => row.any fun cell => !cell.isEmpty).map (fitRow headers.length)⟩

/-- The rows as records of texts. -/
def Table.records (t : Table) : List Record :=
  t.rows.map fun row => .ofFields (t.headers.zip (row.map Value.text))

/-- The first line of a text, trimmed. -/
def headerLine (text : List Char) : List Char := trim (text.takeWhile (· ≠ '\n'))

/-! ## Writing -/

def needsQuotes (cell : List Char) : Bool :=
  cell.any fun c => c == ',' || c == '"' || c == '\n' || c == '\r'

/-- A cell as it is written. -/
def encodeCell (cell : String) : List Char :=
  let cs := cell.toList
  if needsQuotes cs then
    '"' :: cs.flatMap (fun c => if c = '"' then ['"', '"'] else [c]) ++ ['"']
  else cs

def encodeRow (cells : List String) : List Char :=
  joinWith [','] (cells.map encodeCell) ++ ['\n']

/-- A header and rows as text. -/
def write (headers : List String) (rows : List (List String)) : List Char :=
  encodeRow headers ++ rows.flatMap encodeRow

/-- The cells of a record under given columns; what is missing is empty. -/
def recordCells (headers : List String) (r : Record) : List String :=
  headers.map fun name => (r.getOrNull name).cellText

/-- Records under given columns as text. -/
def writeRecords (headers : List String) (records : List Record) : String :=
  String.ofList (write headers (records.map (recordCells headers)))

end Csv

end CrmEmulator
