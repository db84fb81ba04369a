import CrmEmulator.Schema.Basic
import CrmEmulator.Record
import CrmEmulator.Failure

/-!
# CrmEmulator.Schema.Validation — records against their schemas

Every violation is reported, first the required fields that are missing, then what the written
fields break, in the order of the record.  Fields that the schema does not define are accepted.
-/

namespace CrmEmulator

/-- What a record is written for. -/
inductive WriteMode
  | create
  | update
deriving Repr, DecidableEq

/-- What a rule says about one field. -/
inductive Verdict
  | pass
  | violation (found : Violation)
  /-- A violation after which no other rule looks at the field. -/
  | halt (found : Violation)
deriving Repr, DecidableEq

/-- The rules for single fields. -/
inductive FieldRule
  | access
  | picklist
  | maxLength
deriving Repr, DecidableEq

namespace FieldRule

/-- A field is written only where its definition allows it. -/
def checkAccess (mode : WriteMode) (name : String) (d : FieldDef) : Verdict :=
  let writable := match mode with
    | .create => d.createable
    | .update => d.updateable
  if writable then .pass
  else .halt ⟨.invalidFieldForInsertUpdate, name,
    "Unable to create/update fields: " ++ name ++
      ". Please check the security settings of this field."⟩

/-- A restricted picklist accepts null and its declared values. -/
def checkPicklist (name : String) (d : FieldDef) (value : Value) : Verdict :=
  let allowed := match value.text? with
    | some s => d.values.contains s
    | none => false
  if !d.isRestrictedPicklist || value.isNull || allowed then .pass
  else .violation ⟨.invalidOrNullForRestrictedPicklist, name,
    name ++ ": bad value for restricted picklist field: " ++ value.displayText⟩

/-- A text has at most `maxLength` characters; the message shows its first fifty. -/
def checkMaxLength (name : String) (d : FieldDef) (value : Value) : Verdict :=
  match d.maxLength, value.text? with
  | some max, some s =>
    if max = 0 ∨ s.toList.length ≤ max then .pass
    else .violation ⟨.stringTooLong, name,
      name ++ ": data value too large: " ++ String.ofList (s.toList.take 50) ++
        "... (max length=" ++ toString max ++ ")"⟩
  | _, _ => .pass

def check (mode : WriteMode) (name : String) (d : FieldDef) (value : Value) : FieldRule → Verdict
  | access => checkAccess mode name d
  | picklist => checkPicklist name d value
  | maxLength => checkMaxLength name d value

/-- The rules that apply unless others are asked for. -/
def standard : List FieldRule := [access, picklist, maxLength]

end FieldRule

namespace Schema

/-- What a list of rules finds in one field. -/
def fieldViolations (mode : WriteMode) (name : String) (d : FieldDef) (value : Value) :
    List FieldRule → List Violation
  | [] => []
  | rule :: rules =>
    match rule.check mode name d value with
    | .pass => fieldViolations mode name d value rules
    | .violation found => found :: fieldViolations mode name d value rules
    | .halt found => [found]

/-- Required fields without a value, in the order of the schema. -/
def missingFields (s : Schema) (r : Record) : List Violation :=
  (s.fields.filter fun (name, d) => d.required && (r.getOrNull name).isBlank).map fun (name, _) =>
    ⟨.requiredFieldMissing, name, "Required fields are missing: [" ++ name ++ "]"⟩

/-- What the rules find in one written field; null is accepted where nothing is required. -/
def writtenFieldViolations (s : Schema) (rules : List FieldRule) (mode : WriteMode)
    (name : String) (value : Value) : List Violation :=
  match s.field? name with
  | none => []
  | some d =>
    if value.isNull && !d.required then [] else fieldViolations mode name d value rules

/-- All violations of a record by the given rules. -/
def violationsBy (s : Schema) (rules : List FieldRule) (mode : WriteMode) (r : Record) :
    List Violation :=
  (if mode = .create then s.missingFields r else []) ++
    r.fields.flatMap fun (name, value) => s.writtenFieldViolations rules mode name value

/-- All violations of a record by the standard rules. -/
def violations (s : Schema) (mode : WriteMode) (r : Record) : List Violation :=
  s.violationsBy FieldRule.standard mode r

end Schema

end CrmEmulator
