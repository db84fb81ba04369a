import CrmEmulator.Store.Catalog
import CrmEmulator.Store.Collection

/-!
# CrmEmulator.Store.Basic — the record store

The store has one collection for every object of the catalog, fixed when the store is made.
-/

namespace CrmEmulator

/-- One collection for every object, in the order of the catalog. -/
structure Store where
  collections : List (String × Collection)
deriving DecidableEq

namespace Store

def ofCatalog (c : Catalog) : Store := ⟨c.names.map (·, Collection.empty)⟩

def objects (s : Store) : List String := s.collections.map (·.1)

def lookup (object : String) : List (String × Collection) → Option Collection
  | [] => none
  | (name, c) :: rest => if name = object then some c else lookup object rest

/-- The collection of an object, or the failure that names it. -/
def collection (s : Store) (object : String) : Except Failure Collection :=
  match lookup object s.collections with
  | some c => .ok c
  | none => .error (.unknownObject object)

def replace (object : String) (c : Collection) :
    List (String × Collection) → List (String × Collection)
  | [] => []
  | (name, old) :: rest =>
    if name = object then (name, c) :: rest else (name, old) :: replace object c rest

/-- The store with another collection for an object. -/
def setCollection (s : Store) (object : String) (c : Collection) : Store :=
  ⟨replace object c s.collections⟩

/-- Append a record to the collection of an object. -/
def insert (s : Store) (object : String) (r : Record) : Except Failure Store := do
  let c ← s.collection object
  return s.setCollection object (c.push r)

/-- The number of records of all objects. -/
def total (s : Store) : Nat := s.collections.foldr (fun (_, c) n => c.size + n) 0

/-- The store without records, and how many there were. -/
def cleared (s : Store) : Nat × Store :=
  (s.total, ⟨s.collections.map fun (name, _) => (name, Collection.empty)⟩)

end Store

end CrmEmulator
