import CrmEmulator.Text.LetterCase

/-!
# CrmEmulator.Schema.Basic — object definitions

A schema names an object, the prefix of its record ids, its labels and its fields in order.
-/

namespace CrmEmulator

/-- The type of a field; a name that is not known is kept as it is written. -/
inductive FieldType
  | id
  | string
  | textArea
  | email
  | phone
  | url
  | picklist
  | multiPicklist
  | boolean
  | int
  | double
  | currency
  | percent
  | date
  | dateTime
  | reference
  | other (name : String)
deriving Repr, DecidableEq

namespace FieldType

def name : FieldType → String
  | id => "id"
  | string => "string"
  | textArea => "textarea"
  | email => "email"
  | phone => "phone"
  | url => "url"
  | picklist => "picklist"
  | multiPicklist => "multipicklist"
  | boolean => "boolean"
  | int => "int"
  | double => "double"
  | currency => "currency"
  | percent => "percent"
  | date => "date"
  | dateTime => "datetime"
  | reference => "reference"
  | other name => name

/-- The types that are known by name. -/
def known : List FieldType := [
  id, string, textArea, email, phone, url, picklist, multiPicklist, boolean, int, double, currency,
  percent, date, dateTime, reference]

def isKnown : FieldType → Bool
  | other _ => false
  | _ => true

/-- The type with a name, in any case of ASCII letters. -/
def ofName (written : String) : FieldType :=
  (known.find? (·.name.toList == written.toList.map Char.toLower)).getD (other written)

end FieldType

/-- The definition of a field. -/
structure FieldDef where
  type : FieldType := .string
  label : Option String := none
  required : Bool := false
  createable : Bool := true
  updateable : Bool := true
  /-- The greatest length of a text, in characters; none and zero mean no limit. -/
  maxLength : Option Nat := none
  /-- The values of a picklist; none means that any value is allowed. -/
  values : List String := []
  referenceTo : List String := []
  precision : Nat := 0
  scale : Nat := 0
  digits : Nat := 0
deriving Repr, DecidableEq

/-- A picklist with declared values accepts no others. -/
def FieldDef.isRestrictedPicklist (d : FieldDef) : Bool :=
  d.type == .picklist && !d.values.isEmpty

/-- An object definition. -/
structure Schema where
  name : String
  idPrefix : String
  label : String := ""
  labelPlural : Option String := none
  fields : List (String × FieldDef) := []
deriving Repr, DecidableEq

namespace Schema

def fieldNames (s : Schema) : List String := s.fields.map (·.1)

/-- The definition of a field. -/
def field? (s : Schema) (name : String) : Option FieldDef :=
  (s.fields.find? (·.1 == name)).map (·.2)

/-- The plural label; without one the label takes an s. -/
def plural (s : Schema) : String := s.labelPlural.getD (s.label ++ "s")

/-- Platform events are published and never stored; their names end in `__e`. -/
def isPlatformEvent (s : Schema) : Bool := "__e".toList.isSuffixOf s.name.toList

end Schema

/-- The fields that the store sets on every record. -/
def systemFields : List String := ["Id", "CreatedDate", "LastModifiedDate", "SystemModstamp"]

end CrmEmulator
