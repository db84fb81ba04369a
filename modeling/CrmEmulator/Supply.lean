/-!
# CrmEmulator.Supply — fresh ids and the time

Everything that the outside world contributes to an answer comes from a `Supply`: a serial number
that is never used twice and the time of the request.

1. Time stamps, from the milliseconds since the beginning of 1970.
2. Ids and tokens, made from the serial number: two of one kind differ as long as the number fits
   into their free places.
-/

namespace CrmEmulator

/-- What the outside world contributes: a serial number for fresh names, and the time. -/
structure Supply where
  serial : Nat
  /-- The time of the request, in milliseconds since the beginning of 1970. -/
  millis : Nat
deriving Repr, DecidableEq

namespace Supply

/-! ## Time stamps -/

/-- The year, month and day of a number of days since the beginning of 1970.  Years are counted
from March on, so that the leap day is the last of a year, in eras of four hundred years. -/
def civil (days : Nat) : Nat × Nat × Nat :=
  let days := days + 719468
  let ofEra := days % 146097
  let yearOfEra := (ofEra - ofEra / 1460 + ofEra / 36524 - ofEra / 146096) / 365
  let ofYear := ofEra - (365 * yearOfEra + yearOfEra / 4 - yearOfEra / 100)
  let month := (5 * ofYear + 2) / 153
  let day := ofYear - (153 * month + 2) / 5 + 1
  let year := 400 * (days / 146097) + yearOfEra
  if month < 10 then (year, month + 3, day) else (year + 1, month - 9, day)

/-- The last digits of a number. -/
def padded (width n : Nat) : String :=
  String.ofList ((List.range width).map fun i => Nat.digitChar (n / Nat.pow 10 (width - 1 - i) % 10))

/-- A time in ISO form with milliseconds. -/
def stamp (millis : Nat) : String :=
  let seconds := millis / 1000
  let (year, month, day) := civil (seconds / 86400)
  padded 4 year ++ "-" ++ padded 2 month ++ "-" ++ padded 2 day ++ "T" ++
    padded 2 (seconds / 3600 % 24) ++ ":" ++ padded 2 (seconds / 60 % 60) ++ ":" ++
    padded 2 (seconds % 60) ++ "." ++ padded 3 (millis % 1000) ++ "Z"

/-- The time of the request as a time stamp. -/
def now (s : Supply) : String := stamp s.millis

/-! ## Ids and tokens -/

/-- The length of an id whose prefix leaves room for it. -/
def idLength : Nat := 18

def idAlphabet : List Char := "ABCDEFGHIJKLMNOPQRSTUVWXYZ0123456789".toList

def tokenAlphabet : List Char := "abcdefghijklmnopqrstuvwxyz0123456789".toList

/-- The last `count` digits of a number in the positional system of an alphabet. -/
def digitsIn (alphabet : List Char) : (count : Nat) → Nat → List Char
  | 0, _ => []
  | count + 1, n =>
    digitsIn alphabet count (n / alphabet.length) ++
      [alphabet.getD (n % alphabet.length) ' ']

/-- An id: the prefix, filled up to the length of ids.  The length counts the bytes of the
prefix, and a prefix that is too long stands alone. -/
def idText (idPrefix : String) (serial : Nat) : String :=
  idPrefix ++ String.ofList (digitsIn idAlphabet (idLength - idPrefix.utf8ByteSize) serial)

/-- A token of lower-case letters and digits. -/
def tokenText (length serial : Nat) : String := String.ofList (digitsIn tokenAlphabet length serial)

/-- A fresh id and the supply after it. -/
def freshId (s : Supply) (idPrefix : String) : String × Supply :=
  (idText idPrefix s.serial, { s with serial := s.serial + 1 })

/-- A fresh token and the supply after it. -/
def freshToken (s : Supply) (length : Nat) : String × Supply :=
  (tokenText length s.serial, { s with serial := s.serial + 1 })

end Supply

end CrmEmulator
