import CrmEmulator.Record
import CrmEmulator.Schema.Basic
import CrmEmulator.Supply

/-!
# CrmEmulator.Store.Collection — the records of one object

1. `Record.created` and `Record.updated`: what a write makes of the fields that were sent.
2. `Collection`: records in order of insertion, found by id or by the text of a field; of several
   matching records the first is meant.
-/

namespace CrmEmulator

namespace Record

/-- A stored record: a fresh id first, then the fields that were sent, then the time stamps.  An
id that was sent is ignored. -/
def created (id now : String) (sent : Record) : Record :=
  (empty.set "Id" (.text id)).setAll sent.withoutId.fields
    |>.set "CreatedDate" (.text now)
    |>.set "LastModifiedDate" (.text now)
    |>.set "SystemModstamp" (.text now)

/-- A stored record after the fields that were sent, but for an id, are set on it. -/
def updated (r : Record) (now : String) (sent : Record) : Record :=
  r.setAll sent.withoutId.fields
    |>.set "LastModifiedDate" (.text now)
    |>.set "SystemModstamp" (.text now)

end Record

/-- The records of one object, in order of insertion. -/
structure Collection where
  records : List Record
deriving DecidableEq

namespace Collection

def empty : Collection := ⟨[]⟩

instance : Inhabited Collection := ⟨empty⟩

def size (c : Collection) : Nat := c.records.length

def push (c : Collection) (r : Record) : Collection := ⟨c.records ++ [r]⟩

/-- Is this the record with the id? -/
def hasId (id : String) (r : Record) : Bool := r.id? == some id

/-- Has the record a field with the text? -/
def hasText (field text : String) (r : Record) : Bool :=
  match r.get? field with
  | some v => v.coerceText == text
  | none => false

def position? (c : Collection) (id : String) : Option Nat := c.records.findIdx? (hasId id)

def find? (c : Collection) (id : String) : Option Record := c.records.find? (hasId id)

def findByText? (c : Collection) (field text : String) : Option Record :=
  c.records.find? (hasText field text)

/-- Change the first record that satisfies a test. -/
def modifyFirst (test : Record → Bool) (change : Record → Record) : List Record → List Record
  | [] => []
  | r :: rest => if test r then change r :: rest else r :: modifyFirst test change rest

/-- Remove the first record that satisfies a test. -/
def removeFirst (test : Record → Bool) : List Record → List Record
  | [] => []
  | r :: rest => if test r then rest else r :: removeFirst test rest

/-- Set fields on the record with an id. -/
def update (c : Collection) (id now : String) (sent : Record) : Collection :=
  ⟨modifyFirst (hasId id) (·.updated now sent) c.records⟩

/-- Set fields on the first record with a text in a field. -/
def updateByText (c : Collection) (field text now : String) (sent : Record) : Collection :=
  ⟨modifyFirst (hasText field text) (·.updated now sent) c.records⟩

def remove (c : Collection) (id : String) : Collection := ⟨removeFirst (hasId id) c.records⟩

end Collection

end CrmEmulator
