import CrmEmulator.Csv
import Mathlib.Tactic.SplitIfs

/-!
# CrmEmulator.Proofs.Csv.Reading — the reader of tables, one character at a time

`rowsFrom` looks at two characters at once: a doubled quote, a carriage return before a line feed.
Here the same reader takes single characters and remembers what it has to.  So what it does on
two texts in a row is what it does on the second from where the first has left it, wherever the
cut may be (`readFrom_append`), and a text is understood by where the reader stands after it.

1. `Reader`, its step, and the rows that it makes of a text: the same as those of `rowsFrom`.
2. What is true of every reader after every text.
-/

namespace CrmEmulator

namespace Csv

/-! ## The reader -/

/-- What the last character means for the next one. -/
inductive Mode
  /-- Outside quotes. -/
  | plain
  /-- Between quotes. -/
  | quoted
  /-- After a quote between quotes, which ends them unless a second one follows. -/
  | quoteSeen
  /-- After a carriage return, which has ended the row; a line feed belongs to it. -/
  | returnSeen
deriving Repr, DecidableEq

/-- The rows that have ended, and where the reader stands in the next one. -/
structure Reader where
  rows : List (List String)
  cursor : Cursor
  mode : Mode
deriving Repr, DecidableEq

namespace Reader

/-- A reader at the beginning of a row, after given rows. -/
def atRow (rows : List (List String)) : Reader := ⟨rows, .start, .plain⟩

/-- The row ends. -/
def endRow (mode : Mode) (r : Reader) : Reader := ⟨r.rows ++ [r.cursor.cells], .start, mode⟩

/-- A character outside quotes. -/
def stepPlain (r : Reader) (c : Char) : Reader :=
  if c = '"' ∧ r.cursor.cell = [] then ⟨r.rows, { r.cursor with begun := true }, .quoted⟩
  else if c = ',' then ⟨r.rows, r.cursor.nextCell, .plain⟩
  else if c = '\n' then r.endRow .plain
  else if c = '\r' then r.endRow .returnSeen
  else ⟨r.rows, r.cursor.put c, .plain⟩

def step (r : Reader) (c : Char) : Reader :=
  match r.mode with
  | .plain => r.stepPlain c
  | .quoted =>
    if c = '"' then { r with mode := .quoteSeen } else { r with cursor := r.cursor.put c }
  | .quoteSeen =>
    if c = '"' then { r with cursor := r.cursor.put c, mode := .quoted } else r.stepPlain c
  | .returnSeen => if c = '\n' then { r with mode := .plain } else r.stepPlain c

/-- The reader after a text. -/
def readFrom (r : Reader) (cs : List Char) : Reader := cs.foldl step r

/-- All rows, if the text ends here. -/
def finish (r : Reader) : List (List String) := r.rows ++ rowsFrom false r.cursor []

@[simp] theorem readFrom_nil (r : Reader) : r.readFrom [] = r := rfl

@[simp] theorem readFrom_cons (r : Reader) (c : Char) (cs : List Char) :
    r.readFrom (c :: cs) = (r.step c).readFrom cs := rfl

/-- Reading two texts in turn is reading them as one. -/
theorem readFrom_append (r : Reader) (cs more : List Char) :
    r.readFrom (cs ++ more) = (r.readFrom cs).readFrom more := List.foldl_append

/-- A quote that no second one follows has ended the quotes. -/
theorem finish_quoteSeen (rows : List (List String)) (k : Cursor) {cs : List Char}
    (h : cs.head? ≠ some '"') :
    ((Reader.mk rows k .quoteSeen).readFrom cs).finish =
      ((Reader.mk rows k .plain).readFrom cs).finish := by
  cases cs with
  | nil => rfl
  | cons c cs =>
    have hc : c ≠ '"' := by simpa using h
    simp [step, hc, stepPlain, endRow]

/-- A carriage return that no line feed follows is done with. -/
theorem finish_returnSeen (rows : List (List String)) (k : Cursor) {cs : List Char}
    (h : cs.head? ≠ some '\n') :
    ((Reader.mk rows k .returnSeen).readFrom cs).finish =
      ((Reader.mk rows k .plain).readFrom cs).finish := by
  cases cs with
  | nil => rfl
  | cons c cs =>
    have hc : c ≠ '\n' := by simpa using h
    simp [step, hc, stepPlain, endRow]

/-- The rows of a text are those that the reader has made of it in the end. -/
theorem finish_readFrom (rows : List (List String)) (between : Bool) (k : Cursor)
    (cs : List Char) :
    ((Reader.mk rows k (if between then .quoted else .plain)).readFrom cs).finish =
      rows ++ rowsFrom between k cs := by
  -- the cases that look ahead are those in which the reader has to remember its last character
  fun_induction rowsFrom between k cs generalizing rows with
  | case1 between k hbegun => cases between <;> simp [finish, rowsFrom, hbegun]
  | case2 between k hbegun => cases between <;> simp [finish, rowsFrom, hbegun]
  | case3 k cs ih => simpa [step] using ih rows
  | case4 k cs hsingle ih =>
    -- a quote with no second one after it ends the quotes
    have hhead : cs.head? ≠ some '"' := by
      cases cs with
      | nil => simp
      | cons c cs =>
        intro hc
        exact hsingle cs (by simpa using hc)
    simpa [step, finish_quoteSeen rows k hhead] using ih rows
  | case5 k c cs _ hquote ih =>
    have hc : c ≠ '"' := hquote
    simpa [step, hc] using ih rows
  | case6 k cs ih => simpa [step, stepPlain, endRow] using ih (rows ++ [k.cells])
  | case7 k c cs _ hopen ih => simpa [step, stepPlain, hopen] using ih rows
  | case8 k cs _ _ ih => simpa [step, stepPlain] using ih rows
  | case9 k c cs hnext hopen hcomma hend ih =>
    rcases hend with rfl | rfl
    · simpa [step, stepPlain, endRow] using ih (rows ++ [k.cells])
    · -- a carriage return on its own
      have hhead : cs.head? ≠ some '\n' := by
        cases cs with
        | nil => simp
        | cons c cs =>
          intro hc
          exact hnext cs rfl (by simpa using hc)
      simpa [step, stepPlain, endRow, finish_returnSeen _ _ hhead] using ih (rows ++ [k.cells])
  | case10 k c cs _ hopen hcomma hend ih =>
    rw [not_or] at hend
    simpa [step, stepPlain, hopen, hcomma, hend] using ih rows

/-! ## Where the reader stands -/

/-- The reader after a text from its beginning. -/
def read (cs : List Char) : Reader := (atRow []).readFrom cs

/-- A reader at the end of a row adds the rows of what it reads from there. -/
theorem finish_readFrom_atRow (rows : List (List String)) (cs : List Char) :
    ((atRow rows).readFrom cs).finish = rows ++ parseRows cs :=
  finish_readFrom rows false .start cs

/-- Reading from the start and ending gives the rows of the text. -/
theorem finish_read (cs : List Char) : (read cs).finish = parseRows cs :=
  finish_readFrom_atRow [] cs

/-- The rows that have ended do not matter for what follows. -/
def addRows (rows : List (List String)) (r : Reader) : Reader := { r with rows := rows ++ r.rows }

/-- Rows that were read before do not change how a character is taken outside of quotes. -/
theorem stepPlain_addRows (rows : List (List String)) (r : Reader) (c : Char) :
    (r.addRows rows).stepPlain c = (r.stepPlain c).addRows rows := by
  unfold stepPlain addRows
  split_ifs <;> simp [endRow]

/-- Rows that were read before do not change any step of the reader. -/
theorem step_addRows (rows : List (List String)) (r : Reader) (c : Char) :
    (r.addRows rows).step c = (r.step c).addRows rows := by
  rcases r with ⟨before, k, mode⟩
  cases mode with
  | plain => exact stepPlain_addRows rows _ c
  | quoted =>
    simp only [step, addRows]
    split_ifs <;> rfl
  | quoteSeen =>
    by_cases hc : c = '"'
    · simp [step, addRows, hc]
    · simpa [step, addRows, hc] using stepPlain_addRows rows ⟨before, k, .quoteSeen⟩ c
  | returnSeen =>
    by_cases hc : c = '\n'
    · simp [step, addRows, hc]
    · simpa [step, addRows, hc] using stepPlain_addRows rows ⟨before, k, .returnSeen⟩ c

/-- Rows that were read before stay in front, whatever is read. -/
theorem readFrom_addRows (rows : List (List String)) (r : Reader) (cs : List Char) :
    (r.addRows rows).readFrom cs = (r.readFrom cs).addRows rows := by
  induction cs generalizing r with
  | nil => rfl
  | cons c cs ih => rw [readFrom_cons, readFrom_cons, step_addRows, ih]

/-- Where the reader may stand: a row with quotes has begun, and one that has just ended has not. -/
structure Sound (r : Reader) : Prop where
  begun : r.mode = .quoted ∨ r.mode = .quoteSeen → r.cursor.begun = true
  ended : r.mode = .returnSeen → r.cursor = .start

/-- A step outside of quotes leaves the reader sound. -/
theorem Sound.stepPlain (r : Reader) (c : Char) : (r.stepPlain c).Sound := by
  unfold Reader.stepPlain
  split
  · exact ⟨fun _ => rfl, nofun⟩
  split
  · exact ⟨by simp, nofun⟩
  split
  · exact ⟨by simp [endRow], nofun⟩
  split
  · exact ⟨by simp [endRow], fun _ => rfl⟩
  · exact ⟨by simp, nofun⟩

/-- Every step keeps a reader sound. -/
theorem Sound.step {r : Reader} (h : r.Sound) (c : Char) : (r.step c).Sound := by
  unfold Reader.step
  split
  · exact .stepPlain r c
  · next hmode =>
    split
    · exact ⟨fun _ => h.begun (.inl hmode), nofun⟩
    · exact ⟨fun _ => rfl, by simp [hmode]⟩
  · split
    · exact ⟨fun _ => rfl, nofun⟩
    · exact .stepPlain r c
  · split
    · exact ⟨by simp, by simp⟩
    · exact .stepPlain r c

/-- Reading a text keeps a reader sound. -/
theorem Sound.readFrom {r : Reader} (h : r.Sound) (cs : List Char) : (r.readFrom cs).Sound := by
  induction cs generalizing r with
  | nil => exact h
  | cons c cs ih => exact ih (h.step c)

/-- The reader is sound wherever it is in a text. -/
theorem sound_read (cs : List Char) : (read cs).Sound :=
  Sound.readFrom ⟨by simp [atRow], by simp [atRow]⟩ cs

end Reader

end Csv

end CrmEmulator
