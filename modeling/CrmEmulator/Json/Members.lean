import CrmEmulator.Json.Reader

/-!
# CrmEmulator.Json.Members — reading the members of documents

1. Readers for the values of members.
2. Members that may be missing.
3. Structured texts: an object, or a list of the same values by position.
-/

namespace CrmEmulator.Json

/-- Members by name, from an object or from a list that gives them by position; a list may be
shorter than the names but not longer. -/
def membersByName? (names : List String) : Json → Option (List (String × Json))
  | .obj members => some members
  | .arr items => if items.length ≤ names.length then some (names.zip items) else none
  | _ => none

def readString? : Json → Option String
  | .str s => some s
  | _ => none

def readBool? : Json → Option Bool
  | .bool b => some b
  | _ => none

/-- A whole number from zero up to `2 ^ bits - 1`. -/
def readCount? (bits : Nat) : Json → Option Nat
  | .int n => if 0 ≤ n ∧ n.toNat < Nat.pow 2 bits then some n.toNat else none
  | _ => none

/-- Null or a value. -/
def readOption? {α : Type} (read : Json → Option α) : Json → Option (Option α)
  | .null => some none
  | doc => (read doc).map some

def readStrings? : Json → Option (List String)
  | .arr items => items.mapM readString?
  | _ => none

/-- A member that may be missing. -/
def readMember? {α : Type} (members : List (String × Json)) (name : String) (default : α)
    (read : Json → Option α) : Option α :=
  match lookup name members with
  | some doc => read doc
  | none => some default

/-- The members with given names in the text of a structure: an object in which none of them is
written twice, or a list of all their values in order. -/
def structure? (names : List String) (cs : List Char) : Option (List (String × Json)) := do
  match ← readFor? names cs with
  | .obj members => if (members.map (·.1)).Nodup then some members else none
  | .arr items => if items.length = names.length then some (names.zip items) else none
  | _ => none

end CrmEmulator.Json
