/-!
# CrmEmulator.Registry — named things in order

A registry lists things under names, in the order in which the names came.  `put` replaces what is
there under a name, `append` always adds a new entry.
-/

namespace CrmEmulator

/-- Things under names, in order. -/
structure Registry (α : Type) where
  entries : List (String × α)
deriving Repr, DecidableEq

namespace Registry

variable {α : Type}

def empty : Registry α := ⟨[]⟩

def names (r : Registry α) : List String := r.entries.map (·.1)

def toList (r : Registry α) : List α := r.entries.map (·.2)

def size (r : Registry α) : Nat := r.entries.length

def lookup (name : String) : List (String × α) → Option α
  | [] => none
  | (key, x) :: rest => if key = name then some x else lookup name rest

def get? (r : Registry α) (name : String) : Option α := lookup name r.entries

def contains (r : Registry α) (name : String) : Bool := (r.get? name).isSome

def place (name : String) (x : α) : List (String × α) → List (String × α)
  | [] => [(name, x)]
  | (key, old) :: rest => if key = name then (key, x) :: rest else (key, old) :: place name x rest

/-- Replace what is under a name, or add it at the end. -/
def put (r : Registry α) (name : String) (x : α) : Registry α := ⟨place name x r.entries⟩

/-- Add an entry at the end. -/
def append (r : Registry α) (name : String) (x : α) : Registry α := ⟨r.entries ++ [(name, x)]⟩

/-- Remove what is under a name. -/
def erase (r : Registry α) (name : String) : Registry α := ⟨r.entries.filter (·.1 ≠ name)⟩

end Registry

end CrmEmulator
