import CrmEmulator.Value

/-!
# CrmEmulator.Record — records with ordered fields

A record is a list of named values.  Setting a field that is there keeps its place; a new field
comes last.  Names stay distinct as long as records are built with `set`.
-/

namespace CrmEmulator

/-- A record: field names with values, in order of insertion. -/
structure Record where
  fields : List (String × Value)
deriving DecidableEq

namespace Record

def empty : Record := ⟨[]⟩

instance : Inhabited Record := ⟨empty⟩
instance : EmptyCollection Record := ⟨empty⟩

def names (r : Record) : List String := r.fields.map (·.1)

def size (r : Record) : Nat := r.fields.length

/-- The value of the first field with a name. -/
def lookup (name : String) : List (String × Value) → Option Value
  | [] => none
  | (key, value) :: rest => if key = name then some value else lookup name rest

def get? (r : Record) (name : String) : Option Value := lookup name r.fields

/-- The value of a field, null if there is none. -/
def getOrNull (r : Record) (name : String) : Value := (r.get? name).getD .null

def contains (r : Record) (name : String) : Bool := r.names.contains name

/-- Overwrite the first field with a name, or append one. -/
def setField (name : String) (value : Value) : List (String × Value) → List (String × Value)
  | [] => [(name, value)]
  | (key, old) :: rest =>
    if key = name then (key, value) :: rest else (key, old) :: setField name value rest

def set (r : Record) (name : String) (value : Value) : Record := ⟨setField name value r.fields⟩

/-- Remove the first field with a name. -/
def eraseField (name : String) : List (String × Value) → List (String × Value)
  | [] => []
  | (key, value) :: rest => if key = name then rest else (key, value) :: eraseField name rest

def erase (r : Record) (name : String) : Record := ⟨eraseField name r.fields⟩

/-- Set fields one after the other. -/
def setAll (r : Record) (fields : List (String × Value)) : Record :=
  fields.foldl (fun r (name, value) => r.set name value) r

/-- Set every field of another record on this one. -/
def merge (r other : Record) : Record := r.setAll other.fields

def ofFields (fields : List (String × Value)) : Record := empty.setAll fields

/-- The text in the field `Id`. -/
def id? (r : Record) : Option String := (r.get? "Id").bind Value.text?

/-- The record without the field `Id`. -/
def withoutId (r : Record) : Record := ⟨r.fields.filter (·.1 != "Id")⟩

/-- Two records with equal values under equal names in the same order. -/
def same (r other : Record) : Bool :=
  r.size == other.size &&
    (r.fields.zip other.fields).all fun ((a, x), (b, y)) => a == b && x.same y

/-! ## JSON -/

def toJson (r : Record) : Json := .obj (r.fields.map fun (name, value) => (name, value.toJson))

/-- The record of an object; no other document is one. -/
def ofJson? : Json → Option Record
  | .obj members => some (ofFields (members.map fun (name, doc) => (name, Value.ofJson doc)))
  | _ => none

end Record

end CrmEmulator
