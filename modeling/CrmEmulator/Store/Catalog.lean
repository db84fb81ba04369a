import CrmEmulator.Failure
import CrmEmulator.Schema.Json
import CrmEmulator.Json.Reader

/-!
# CrmEmulator.Store.Catalog — the object definitions

A catalog holds schemas in the order of their first registration; a schema of a known name takes
the place of the old one.  Schema files are read in the order of their paths, and a file that is no
schema is passed over.
-/

namespace CrmEmulator

/-- The object definitions, in order of registration. -/
structure Catalog where
  schemas : List Schema
deriving Repr, DecidableEq

namespace Catalog

def empty : Catalog := ⟨[]⟩

def names (c : Catalog) : List String := c.schemas.map (·.name)

def find? (c : Catalog) (name : String) : Option Schema := c.schemas.find? (·.name == name)

def contains (c : Catalog) (name : String) : Bool := (c.find? name).isSome

/-- The schema of an object, or the failure that names it. -/
def require (c : Catalog) (name : String) : Except Failure Schema :=
  match c.find? name with
  | some s => .ok s
  | none => .error (.unknownObject name)

/-- Replace the schema of the same name, or append one. -/
def place (s : Schema) : List Schema → List Schema
  | [] => [s]
  | old :: rest => if old.name == s.name then s :: rest else old :: place s rest

def insert (c : Catalog) (s : Schema) : Catalog := ⟨place s c.schemas⟩

def ofSchemas (schemas : List Schema) : Catalog := schemas.foldl insert empty

/-! ## Schema files -/

/-- A file name counts if its extension is exactly `json`; a name that begins with its only dot has
no extension. -/
def isSchemaFile (name : String) : Bool :=
  let cs := name.toList
  ".json".toList.isSuffixOf cs && 5 < cs.length

/-- The schema in the text of a file; a member of a schema must not be repeated. -/
def schemaOfText? (text : List Char) : Option Schema := do
  let doc ← Json.readFor? Schema.memberNames text
  match doc with
  | .obj members => if (members.map (·.1)).Nodup then Schema.ofJson? doc else none
  | _ => Schema.ofJson? doc

/-- The catalog of the files of a directory, given as names with the text of those that can be
read. -/
def ofFiles (files : List (String × Option String)) : Catalog :=
  let wanted := files.filter fun (name, _) => isSchemaFile name
  let sorted := wanted.mergeSort fun (a, _) (b, _) => a ≤ b
  ofSchemas (sorted.filterMap fun (_, text) => text.bind fun t => schemaOfText? t.toList)

end Catalog

end CrmEmulator
