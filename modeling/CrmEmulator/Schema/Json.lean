import CrmEmulator.Schema.Basic
import CrmEmulator.Json.Members

/-!
# CrmEmulator.Schema.Json — schemas as JSON documents

A schema file is an object, or a list of the same values by position.  Members that are not known
are passed over and missing ones have defaults.  Written documents leave out what is empty.
-/

namespace CrmEmulator

/-! ## Fields -/

namespace FieldDef

/-- The members of a field definition, in the order of a definition by position. -/
def memberNames : List String := [
  "type", "label", "required", "createable", "updateable", "maxLength", "values", "referenceTo",
  "precision", "scale", "digits"]

def ofJson? (doc : Json) : Option FieldDef := do
  let members ← doc.membersByName? memberNames
  return {
    type := ← Json.readMember? members "type" .string fun d => d.readString?.map FieldType.ofName
    label := ← Json.readMember? members "label" none (Json.readOption? Json.readString?)
    required := ← Json.readMember? members "required" false Json.readBool?
    createable := ← Json.readMember? members "createable" true Json.readBool?
    updateable := ← Json.readMember? members "updateable" true Json.readBool?
    maxLength := ← Json.readMember? members "maxLength" none (Json.readOption? (Json.readCount? 64))
    values := ← Json.readMember? members "values" [] Json.readStrings?
    referenceTo := ← Json.readMember? members "referenceTo" [] Json.readStrings?
    precision := ← Json.readMember? members "precision" 0 (Json.readCount? 32)
    scale := ← Json.readMember? members "scale" 0 (Json.readCount? 32)
    digits := ← Json.readMember? members "digits" 0 (Json.readCount? 32) }

/-- A member that is written only if there is something to write. -/
def optionalMember (name : String) (doc : Option Json) : List (String × Json) :=
  match doc with
  | some doc => [(name, doc)]
  | none => []

def toJson (d : FieldDef) : Json :=
  .obj (
    [("type", .str d.type.name)] ++
    optionalMember "label" (d.label.map .str) ++
    [("required", .bool d.required), ("createable", .bool d.createable),
      ("updateable", .bool d.updateable)] ++
    optionalMember "maxLength" (d.maxLength.map .ofNat) ++
    optionalMember "values" (if d.values.isEmpty then none else some (.ofStrings d.values)) ++
    optionalMember "referenceTo"
      (if d.referenceTo.isEmpty then none else some (.ofStrings d.referenceTo)) ++
    [("precision", .ofNat d.precision), ("scale", .ofNat d.scale), ("digits", .ofNat d.digits)])

end FieldDef

/-! ## Schemas -/

namespace Schema

/-- The members of a schema, in the order of a schema by position. -/
def memberNames : List String := ["name", "idPrefix", "label", "labelPlural", "fields"]

def fieldsOfJson? : Json → Option (List (String × FieldDef))
  | .obj members => members.mapM fun (name, doc) => (FieldDef.ofJson? doc).map (name, ·)
  | _ => none

def ofJson? (doc : Json) : Option Schema := do
  let members ← doc.membersByName? memberNames
  return {
    name := ← (Json.lookup "name" members).bind Json.readString?
    idPrefix := ← (Json.lookup "idPrefix" members).bind Json.readString?
    label := ← Json.readMember? members "label" "" Json.readString?
    labelPlural := ← Json.readMember? members "labelPlural" none (Json.readOption? Json.readString?)
    fields := ← Json.readMember? members "fields" [] fieldsOfJson? }

def toJson (s : Schema) : Json :=
  .obj (
    [("name", .str s.name), ("idPrefix", .str s.idPrefix), ("label", .str s.label)] ++
    FieldDef.optionalMember "labelPlural" (s.labelPlural.map .str) ++
    [("fields", .obj (s.fields.map fun (name, d) => (name, d.toJson)))])

end Schema

end CrmEmulator
