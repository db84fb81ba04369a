/-!
# CrmEmulator.Text.Base64 — bytes written with 64 characters

Three bytes are written as four characters of six bits each.  The last group is filled up with equal
signs, and the bits that it does not use are zero; nothing else is read.
-/

namespace CrmEmulator.Base64

/-- The characters in the order of their values. -/
def alphabet : List Char :=
  "ABCDEFGHIJKLMNOPQRSTUVWXYZabcdefghijklmnopqrstuvwxyz0123456789+/".toList

/-- The value of a character. -/
def sextet? (c : Char) : Option Nat := alphabet.findIdx? (· = c)

/-- The bytes of a text. -/
def decode? : List Char → Option (List UInt8)
  | [] => some []
  | [a, b, '=', '='] => do
    let bits := 64 * (← sextet? a) + (← sextet? b)
    if bits % 16 = 0 then some [(bits / 16).toUInt8] else none
  | [a, b, c, '='] => do
    let bits := 64 * (64 * (← sextet? a) + (← sextet? b)) + (← sextet? c)
    if bits % 4 = 0 then some [(bits / 1024).toUInt8, (bits / 4).toUInt8] else none
  | a :: b :: c :: d :: rest => do
    let bits := 64 * (64 * (64 * (← sextet? a) + (← sextet? b)) + (← sextet? c)) + (← sextet? d)
    let bytes ← decode? rest
    return (bits / 65536).toUInt8 :: (bits / 256).toUInt8 :: bits.toUInt8 :: bytes
  | _ => none

end CrmEmulator.Base64
