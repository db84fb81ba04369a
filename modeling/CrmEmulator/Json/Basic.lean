import CrmEmulator.Double.Layout

/-!
# CrmEmulator.Json.Basic — JSON documents

A document keeps the members of an object in order and tells whole numbers from doubles.

1. `Json` and its decidable equality, which looks at the order of members.
2. `same`, the equality that the store uses: the order of members does not matter.
3. `compact`, the text of a document without white space.
-/

namespace CrmEmulator

/-- A JSON document. -/
inductive Json
  | null
  | bool (value : Bool)
  | int (value : Int)
  | double (value : Double)
  | str (value : String)
  | arr (items : List Json)
  | obj (members : List (String × Json))

namespace Json

/-! ## Decidable equality -/

mutual

def decEq : (a b : Json) → Decidable (a = b)
  | .null, .null => isTrue rfl
  | .bool a, .bool b => decidable_of_iff (a = b) (by simp)
  | .int a, .int b => decidable_of_iff (a = b) (by simp)
  | .double a, .double b => decidable_of_iff (a = b) (by simp)
  | .str a, .str b => decidable_of_iff (a = b) (by simp)
  | .arr a, .arr b =>
    have := decEqItems a b
    decidable_of_iff (a = b) (by simp)
  | .obj a, .obj b =>
    have := decEqMembers a b
    decidable_of_iff (a = b) (by simp)
  | .null, .bool _ | .null, .int _ | .null, .double _ | .null, .str _ | .null, .arr _
  | .null, .obj _ | .bool _, .null | .bool _, .int _ | .bool _, .double _ | .bool _, .str _
  | .bool _, .arr _ | .bool _, .obj _ | .int _, .null | .int _, .bool _ | .int _, .double _
  | .int _, .str _ | .int _, .arr _ | .int _, .obj _ | .double _, .null | .double _, .bool _
  | .double _, .int _ | .double _, .str _ | .double _, .arr _ | .double _, .obj _
  | .str _, .null | .str _, .bool _ | .str _, .int _ | .str _, .double _ | .str _, .arr _
  | .str _, .obj _ | .arr _, .null | .arr _, .bool _ | .arr _, .int _ | .arr _, .double _
  | .arr _, .str _ | .arr _, .obj _ | .obj _, .null | .obj _, .bool _ | .obj _, .int _
  | .obj _, .double _ | .obj _, .str _ | .obj _, .arr _ => isFalse (by simp)

def decEqItems : (a b : List Json) → Decidable (a = b)
  | [], [] => isTrue rfl
  | [], _ :: _ | _ :: _, [] => isFalse (by simp)
  | x :: xs, y :: ys =>
    have := decEq x y
    have := decEqItems xs ys
    decidable_of_iff (x = y ∧ xs = ys) (by simp)

def decEqMembers : (a b : List (String × Json)) → Decidable (a = b)
  | [], [] => isTrue rfl
  | [], _ :: _ | _ :: _, [] => isFalse (by simp)
  | (k, x) :: xs, (l, y) :: ys =>
    have := decEq x y
    have := decEqMembers xs ys
    decidable_of_iff (k = l ∧ x = y ∧ xs = ys) (by simp [and_assoc])

end

instance : DecidableEq Json := decEq

instance : Inhabited Json := ⟨.null⟩

/-! ## Members -/

/-- The value of the first member with a name. -/
def lookup (name : String) : List (String × Json) → Option Json
  | [] => none
  | (key, value) :: rest => if key = name then some value else lookup name rest

/-- Set a member: one that is there keeps its place, a new one comes last. -/
def setMember (name : String) (value : Json) : List (String × Json) → List (String × Json)
  | [] => [(name, value)]
  | (key, old) :: rest =>
    if key = name then (key, value) :: rest else (key, old) :: setMember name value rest

/-- The member of an object; any other document has none. -/
def member? (name : String) : Json → Option Json
  | .obj members => lookup name members
  | _ => none

/-- A double in a document; one that is not finite becomes null. -/
def ofDouble (x : Double) : Json := if x.isFinite then .double x else .null

def ofNat (n : Nat) : Json := .int n

def ofStrings (items : List String) : Json := .arr (items.map .str)

/-! ## Equality up to the order of members -/

mutual

/-- Equality of documents in which the order of members does not matter; doubles are compared as
numbers. -/
def same : Json → Json → Bool
  | .null, .null => true
  | .bool a, .bool b => a == b
  | .int a, .int b => a == b
  | .double a, .double b => a.eq b
  | .str a, .str b => a == b
  | .arr a, .arr b => sameItems a b
  | .obj a, .obj b => a.length == b.length && sameMembers a b
  | _, _ => false

def sameItems : List Json → List Json → Bool
  | [], [] => true
  | x :: xs, y :: ys => same x y && sameItems xs ys
  | _, _ => false

/-- Does every member have an equal one of the same name in the other object? -/
def sameMembers : List (String × Json) → List (String × Json) → Bool
  | [], _ => true
  | (key, x) :: rest, other =>
    (match lookup key other with
      | some y => same x y
      | none => false) && sameMembers rest other

end

/-! ## Compact text -/

def hexDigit (n : Nat) : Char := Nat.digitChar (n % 16)

/-- A character of a string: quotes, backslashes and control characters are escaped. -/
def escapeChar (c : Char) : List Char :=
  match c with
  | '"' => ['\\', '"']
  | '\\' => ['\\', '\\']
  | '\n' => ['\\', 'n']
  | '\r' => ['\\', 'r']
  | '\t' => ['\\', 't']
  | c =>
    if c.toNat = 8 then ['\\', 'b']
    else if c.toNat = 12 then ['\\', 'f']
    else if c.toNat < 32 then ['\\', 'u', '0', '0', hexDigit (c.toNat / 16), hexDigit c.toNat]
    else [c]

/-- A string between quotes. -/
def quoted (s : String) : List Char := '"' :: s.toList.flatMap escapeChar ++ ['"']

mutual

/-- The text of a document without white space. -/
def text : Json → List Char
  | .null => "null".toList
  | .bool true => "true".toList
  | .bool false => "false".toList
  | .int n => (toString n).toList
  | .double x => (x.format .json).toList
  | .str s => quoted s
  | .arr items => '[' :: itemsText items ++ [']']
  | .obj members => '\x7b' :: membersText members ++ ['\x7d']

def itemsText : List Json → List Char
  | [] => []
  | [x] => text x
  | x :: xs => text x ++ ',' :: itemsText xs

def membersText : List (String × Json) → List Char
  | [] => []
  | [(key, x)] => quoted key ++ ':' :: text x
  | (key, x) :: xs => quoted key ++ ':' :: text x ++ ',' :: membersText xs

end

/-- The text of a document without white space, as a string. -/
def compact (doc : Json) : String := String.ofList doc.text

end Json

end CrmEmulator
