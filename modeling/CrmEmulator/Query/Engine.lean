import CrmEmulator.Query.Filter
import CrmEmulator.Query.Sosl
import CrmEmulator.Store.Basic

/-!
# CrmEmulator.Query.Engine — queries and searches over the store

1. `Record.project`: a record as a document, with its attributes before its fields.
2. `Store.query` runs a query, `Store.search` a search; an object that is not in the catalog fails
   a query and is passed over by a search.
-/

namespace CrmEmulator

/-! ## Projection -/

/-- The address of a record. -/
def recordUrl (version object id : String) : String :=
  "/services/data/" ++ version ++ "/sobjects/" ++ object ++ "/" ++ id

/-- The attributes that describe a record in a document. -/
def Record.attributes (r : Record) (object version : String) : Json :=
  .obj [("type", .str object), ("url", .str (recordUrl version object (r.id?.getD "")))]

/-- The fields that a selection shows; no names at all, or a star, mean all fields. -/
def Record.selected (r : Record) (names : List String) : List (String × Value) :=
  if names.isEmpty || names.contains "*" then r.fields
  else names.filterMap fun name => (r.get? name).map (name, ·)

/-- A record as a document: its attributes, then the selected fields.  A field of the same name
takes the place of the attributes. -/
def Record.project (r : Record) (object : String) (names : List String) (version : String) :
    Json :=
  .obj ((r.selected names).foldl (fun members (name, v) => Json.setMember name v.toJson members)
    [("attributes", r.attributes object version)])

/-! ## Queries -/

namespace Store

/-- The records that a query finds. -/
def run (s : Store) (c : Catalog) (q : Soql) : Except Failure (List Record) :=
  if c.contains q.object then do
    return q.rows (← s.collection q.object).records
  else .error (.unknownQueryObject q.object)

/-- The result of a query. -/
structure QueryResult where
  totalSize : Nat
  records : List Json
deriving DecidableEq

def QueryResult.toJson (r : QueryResult) : Json :=
  .obj [("totalSize", .ofNat r.totalSize), ("done", .bool true), ("records", .arr r.records)]

/-- Parse and run a query; a count shows no records. -/
def query (s : Store) (c : Catalog) (text version : String) : Except Failure QueryResult := do
  let q ← (Soql.parse text).mapError QueryFault.failure
  let records ← s.run c q
  match q.select with
  | .count => return ⟨records.length, []⟩
  | .fields names => return ⟨records.length, records.map (·.project q.object names version)⟩

/-! ## Searches -/

/-- Does a value contain a text in lower case?  Only texts and numbers are looked at. -/
def valueContains (needle : List Char) : Value → Bool
  | .text s => occursIn needle (lowercase s.toList)
  | .integer n => occursIn needle (lowercase (Value.integer n).displayText.toList)
  | .double x => occursIn needle (lowercase (Value.double x).displayText.toList)
  | _ => false

/-- Does a record contain a text in a field of the scope? -/
def recordContains (needle : List Char) (scope : SearchScope) (r : Record) : Bool :=
  match scope.fields? with
  | some names => (names.filterMap r.get?).any (valueContains needle)
  | none => r.fields.any fun (_, v) => valueContains needle v

/-- The records that contain a term, in any letter case. -/
def matching (term : String) (scope : SearchScope) (records : List Record) : List Record :=
  records.filter (recordContains (lowercase term.toList) scope)

/-- What one object contributes to a search. -/
def searchObject (s : Store) (c : Catalog) (q : Sosl) (version : String) (spec : Returning) :
    Except Failure (List Json) :=
  if c.contains spec.object then do
    let hits := Where.select spec.filter
      (matching q.term q.scope (← s.collection spec.object).records)
    return (page none spec.limit hits).map (·.project spec.object spec.fields version)
  else .ok []

/-- Parse and run a search: the records found, as documents. -/
def search (s : Store) (c : Catalog) (text version : String) : Except Failure (List Json) := do
  let q ← (Sosl.parse text).mapError QueryFault.failure
  return (← q.returning.mapM (s.searchObject c q version)).flatten

/-- The answer of a search. -/
def searchJson (records : List Json) : Json := .obj [("searchRecords", .arr records)]

end Store

end CrmEmulator
