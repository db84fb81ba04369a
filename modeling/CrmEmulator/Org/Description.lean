import CrmEmulator.Org.Basic

/-!
# CrmEmulator.Org.Description — objects described by their schemas

The description of an object lists the id first and then the fields of its schema in order.
-/

namespace CrmEmulator

namespace Schema

/-- The field that every object has. -/
def idDescription (s : Schema) : Json :=
  .obj [
    ("name", .str "Id"),
    ("type", .str FieldType.id.name),
    ("label", .str (s.label ++ " ID")),
    ("length", .ofNat Supply.idLength),
    ("updateable", .bool false),
    ("createable", .bool false),
    ("nillable", .bool false),
    ("queryable", .bool true),
    ("filterable", .bool true),
    ("picklistValues", .arr [])]

/-- The values of a picklist; the first is the default where a value is required. -/
def picklistDescription (d : FieldDef) : Json :=
  .arr (d.values.zipIdx.map fun (value, i) => .obj [
    ("value", .str value),
    ("label", .str value),
    ("active", .bool true),
    ("defaultValue", .bool (i == 0 && d.required))])

/-- The length of a field that declares none. -/
def defaultLength : FieldType → Nat
  | .id => Supply.idLength
  | _ => 0

def fieldDescription (name : String) (d : FieldDef) : Json :=
  .obj [
    ("name", .str name),
    ("type", .str d.type.name),
    ("label", .str (d.label.getD name)),
    ("length", .ofNat (d.maxLength.getD (defaultLength d.type))),
    ("precision", .ofNat d.precision),
    ("scale", .ofNat d.scale),
    ("digits", .ofNat d.digits),
    ("updateable", .bool d.updateable),
    ("createable", .bool d.createable),
    ("nillable", .bool !d.required),
    ("queryable", .bool true),
    ("filterable", .bool true),
    ("referenceTo", .ofStrings d.referenceTo),
    ("picklistValues", picklistDescription d)]

/-- The description of the object that is asked for under a name. -/
def description (s : Schema) (version object : String) : Json :=
  let base := "/services/data/" ++ version ++ "/sobjects/" ++ object
  let fields := (s.fields.filter (·.1 != "Id")).map fun (name, d) => fieldDescription name d
  .obj [
    ("name", .str s.name),
    ("label", .str s.label),
    ("labelPlural", .str s.plural),
    ("keyPrefix", .str s.idPrefix),
    ("fields", .arr (s.idDescription :: fields)),
    ("createable", .bool true),
    ("updateable", .bool true),
    ("deletable", .bool true),
    ("queryable", .bool true),
    ("searchable", .bool true),
    ("urls", .obj [
      ("sobject", .str base),
      ("describe", .str (base ++ "/describe")),
      ("rowTemplate", .str (base ++ "/\x7bID\x7d"))])]

end Schema

namespace Org

def describe (o : Org) (version object : String) : Except Failure Json := do
  return (← o.catalog.require object).description version object

end Org

end CrmEmulator
