/-!
# CrmEmulator.Text.Utf8 — texts as bytes

Bytes are read one character at a time.  Where no character begins, the bytes that could still have
become one are passed over together, and the lenient reading shows one replacement character for
them.
-/

namespace CrmEmulator.Utf8

/-- The bits that a first byte contributes, and the ranges of the bytes that must follow it; none
if no character begins with it. -/
def lead? (b : Nat) : Option (Nat × List (Nat × Nat)) :=
  let tail := (0x80, 0xBF)
  if b < 0x80 then some (b, [])
  else if 0xC2 ≤ b ∧ b ≤ 0xDF then some (b % 0x20, [tail])
  else if b = 0xE0 then some (b % 0x10, [(0xA0, 0xBF), tail])
  else if b = 0xED then some (b % 0x10, [(0x80, 0x9F), tail])
  else if 0xE1 ≤ b ∧ b ≤ 0xEF then some (b % 0x10, [tail, tail])
  else if b = 0xF0 then some (b % 0x08, [(0x90, 0xBF), tail, tail])
  else if 0xF1 ≤ b ∧ b ≤ 0xF3 then some (b % 0x08, [tail, tail, tail])
  else if b = 0xF4 then some (b % 0x08, [(0x80, 0x8F), tail, tail])
  else none

/-- The code that begins with `code` and goes on with bytes in the given ranges, and the bytes
after it.  Without such bytes there is no code, and those that did fit are passed over. -/
def tailCode : (code : Nat) → List (Nat × Nat) → List UInt8 → Option Nat × List UInt8
  | code, [], bytes => (some code, bytes)
  | _, _ :: _, [] => (none, [])
  | code, (low, high) :: ranges, b :: bytes =>
    if low ≤ b.toNat ∧ b.toNat ≤ high then tailCode (64 * code + b.toNat % 64) ranges bytes
    else (none, b :: bytes)

/-- The characters of some bytes, with none for every broken one. -/
def readFrom : (fuel : Nat) → List UInt8 → List (Option Char)
  | 0, _ | _, [] => []
  | fuel + 1, b :: bytes =>
    match lead? b.toNat with
    | none => none :: readFrom fuel bytes
    | some (code, ranges) =>
      let (code, rest) := tailCode code ranges bytes
      code.map Char.ofNat :: readFrom fuel rest

/-- The characters of some bytes, with none for every broken one; a character takes a byte or
more. -/
def read (bytes : List UInt8) : List (Option Char) := readFrom bytes.length bytes

/-- The text of bytes that are all well formed. -/
def decode? (bytes : List UInt8) : Option (List Char) := (read bytes).mapM id

/-- What is shown for a broken character. -/
def replacement : Char := '\uFFFD'

/-- The text of any bytes. -/
def decodeLenient (bytes : List UInt8) : List Char := (read bytes).map (·.getD replacement)

/-- The text of any bytes for a reader of documents: a broken character reads as the escape of half
a character, which such a reader may pass over but never takes in. -/
def decodeEscaped (bytes : List UInt8) : List Char :=
  (read bytes).flatMap fun
    | some c => [c]
    | none => "\\ud800".toList

/-- The bytes of a text. -/
def encode (cs : List Char) : List UInt8 := cs.flatMap String.utf8EncodeChar

end CrmEmulator.Utf8
