import CrmEmulator.Org.Basic
import CrmEmulator.Query.Engine
import CrmEmulator.Schema.Validation

/-!
# CrmEmulator.Org.Records — single records

1. Reading the fields of a request body.
2. Creating, reading, updating, deleting and upserting one record.
3. Platform events, which are created like records but published instead of stored.
-/

namespace CrmEmulator

namespace Org

/-! ## Bodies -/

/-- The fields of a body: an object, or null for no fields. -/
def bodyFields : Json → Except Failure Record
  | .null => .ok .empty
  | doc =>
    match Record.ofJson? doc with
    | some r => .ok r
    | none => .error (.invalidField "Request body must be a JSON object")

/-- Fail with all violations, if there are any. -/
def check (s : Schema) (mode : WriteMode) (fields : Record) : Except Failure Unit :=
  match s.violations mode fields with
  | [] => .ok ()
  | found => .error (.violations found)

/-- No record has the id. -/
def noRecord (id : String) : Failure :=
  .notFound ("Provided external ID field does not exist or is not accessible: " ++ id)

/-! ## Platform events -/

/-- The prefix of the ids of events without a schema. -/
def eventPrefix : String := "e00"

/-- Is this the name of a platform event? -/
def isEventName (object : String) : Bool := "__e".toList.isSuffixOf object.toList

/-- The channel on which an event is published. -/
def eventChannel (object : String) : String := "/event/" ++ object

/-- Publish an event with the fields of a body, and give it an id. -/
def publishEvent (o : Org) (object : String) (body : Json) : Except Failure (String × Org) := do
  let idPrefix := ((o.catalog.find? object).map (·.idPrefix)).getD eventPrefix
  let fields ← bodyFields body
  let (id, supply) := o.supply.freshId idPrefix
  let payload := fields.set "CreatedDate" (.text supply.now) |>.set "CreatedById" (.text Job.creatorId)
  let (_, bus) := o.bus.publish (eventChannel object) payload.toJson supply.now
  return (id, { o with bus, supply })

/-! ## Records -/

/-- Store a new record with valid fields: its id, and the organisation after it. -/
def addRecord (o : Org) (s : Schema) (object : String) (fields : Record) :
    Except Failure (String × Org) := do
  let (id, supply) := o.supply.freshId s.idPrefix
  let store ← o.store.insert object (.created id supply.now fields)
  return (id, { o with store, supply })

/-- Create a record, or publish an event. -/
def createRecord (o : Org) (object : String) (body : Json) : Except Failure (String × Org) := do
  if isEventName object then o.publishEvent object body
  else
    let s ← o.catalog.require object
    let fields ← bodyFields body
    check s .create fields
    o.addRecord s object fields

/-- A record with all its fields. -/
def getRecord (o : Org) (version object id : String) : Except Failure Json := do
  let _ ← o.catalog.require object
  match (← o.store.collection object).find? id with
  | some r => return r.project object [] version
  | none => .error (noRecord id)

/-- Set the fields of a body on a record. -/
def updateRecord (o : Org) (object id : String) (body : Json) : Except Failure Org := do
  let s ← o.catalog.require object
  let c ← o.store.collection object
  match c.find? id with
  | none => .error (noRecord id)
  | some _ =>
    let fields ← bodyFields body
    check s .update fields
    return { o with store := o.store.setCollection object (c.update id o.supply.now fields) }

/-- Delete a record. -/
def deleteRecord (o : Org) (object id : String) : Except Failure Org := do
  let _ ← o.catalog.require object
  let c ← o.store.collection object
  match c.find? id with
  | none => .error (.entityIsDeleted ("Entity is deleted or does not exist: " ++ id))
  | some _ => return { o with store := o.store.setCollection object (c.remove id) }

/-- What an upsert did. -/
inductive Upserted
  | created (id : String)
  | updated
deriving Repr, DecidableEq

/-- Update the first record with a text in a field, or create a record with that text. -/
def upsertRecord (o : Org) (object field text : String) (body : Json) :
    Except Failure (Upserted × Org) := do
  let s ← o.catalog.require object
  let fields ← bodyFields body
  let c ← o.store.collection object
  match c.findByText? field text with
  | some _ =>
    check s .update fields
    let c := c.updateByText field text o.supply.now fields
    return (.updated, { o with store := o.store.setCollection object c })
  | none =>
    let fields := (Record.empty.set field (.text text)).merge fields
    check s .create fields
    let (id, o) ← o.addRecord s object fields
    return (.created id, o)

end Org

end CrmEmulator
