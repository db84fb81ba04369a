import CrmEmulator.Proofs.Csv.Reading
import CrmEmulator.Proofs.Text.Trimming

/-!
# CrmEmulator.Proofs.Csv.Lines — texts cut between rows

A text that does not end between quotes may be cut after its last line: the rows of the whole are
those of either part (`parseRows_endLine_append`).  The first line of a text without quotes there is
its first row, with as many cells as the line has commas and one more.
-/

namespace CrmEmulator

namespace Csv

namespace Reader

/-! ## The end of a text -/

/-- Reading one more character is one more step. -/
theorem read_concat (cs : List Char) (c : Char) : read (cs ++ [c]) = (read cs).step c :=
  readFrom_append (atRow []) cs [c]

/-- Outside quotes a line feed leaves the reader at the beginning of a row. -/
theorem step_feed {r : Reader} (h : r.Sound) (hmode : r.mode ≠ .quoted) :
    ∃ rows, r.step '\n' = atRow rows := by
  rcases r with ⟨rows, k, mode⟩
  cases mode with
  | quoted => exact absurd rfl hmode
  | returnSeen =>
    -- the row has ended before
    have hstart : k = .start := h.ended rfl
    exact ⟨rows, by simp [step, atRow, hstart]⟩
  | _ => exact ⟨_, by simp [step, stepPlain, endRow]; rfl⟩

/-- Any other character begins a row, unless it ends one. -/
theorem begun_step {r : Reader} (h : r.Sound) {c : Char} (hfeed : c ≠ '\n') (hreturn : c ≠ '\r') :
    (r.step c).cursor.begun = true ∧ (r.step c).mode ≠ .returnSeen := by
  have hplain : (r.stepPlain c).cursor.begun = true ∧ (r.stepPlain c).mode ≠ .returnSeen := by
    unfold stepPlain
    split_ifs <;> simp [Cursor.nextCell, Cursor.put]
  unfold step
  split
  · exact hplain
  · next hmode => split_ifs <;> simp [h.begun (.inl hmode), Cursor.put, hmode]
  · split_ifs
    · simp [Cursor.put]
    · exact hplain
  · rw [if_neg hfeed]
    exact hplain

/-- A text that is read to the end of a row has the rows read so far. -/
theorem rows_of_read {cs : List Char} {rows : List (List String)} (h : read cs = atRow rows) :
    rows = parseRows cs := by
  rw [← finish_read, h]
  simp [finish, atRow, rowsFrom, Cursor.start]

/-- A line feed that is missing at the end of a text ends its last row. -/
theorem parseRows_concat_feed {cs : List Char} {c : Char} (hfeed : c ≠ '\n') (hreturn : c ≠ '\r')
    (hmode : (read (cs ++ [c])).mode ≠ .quoted) :
    read (cs ++ [c] ++ ['\n']) = atRow (parseRows (cs ++ [c])) := by
  rcases begun_step (sound_read cs) hfeed hreturn with ⟨hbegun, hended⟩
  rw [read_concat, ← finish_read]
  rw [← read_concat] at hbegun hended
  revert hmode hbegun hended
  generalize read (cs ++ [c]) = r
  rcases r with ⟨rows, k, mode⟩
  intro hmode hbegun hended
  cases mode with
  | quoted => exact absurd rfl hmode
  | returnSeen => exact absurd rfl hended
  | _ =>
    have hlast : k.begun = true := hbegun
    simp [step, stepPlain, endRow, finish, rowsFrom, atRow, hlast]

end Reader

open Reader

/-- A text with its last line ended. -/
def endLine (cs : List Char) : List Char := if cs.getLast? = some '\n' then cs else cs ++ ['\n']

/-- A text whose rows are whole: it does not end between quotes, nor within a line break. -/
structure Whole (cs : List Char) : Prop where
  filled : cs ≠ []
  closed : (read cs).mode ≠ .quoted
  unbroken : cs.getLast? ≠ some '\r'

/-- A whole text that ends in a line is read to the end of a row. -/
theorem Whole.read_endLine {cs : List Char} (h : Whole cs) :
    read (endLine cs) = atRow (parseRows cs) := by
  obtain ⟨init, c, rfl⟩ : ∃ init c, cs = init ++ [c] :=
    ⟨_, _, (List.dropLast_append_getLast h.filled).symm⟩
  have hreturn : c ≠ '\r' := by simpa using h.unbroken
  by_cases hc : c = '\n'
  · subst hc
    have hinit : (read init).mode ≠ .quoted := by
      intro hquoted
      apply h.closed
      simp [read_concat, step, hquoted]
    rcases step_feed (sound_read init) hinit with ⟨rows, hrows⟩
    rw [← read_concat] at hrows
    have hsame : rows = parseRows (init ++ ['\n']) := rows_of_read hrows
    simp [endLine, hrows, ← hsame]
  · have hlast : endLine (init ++ [c]) = init ++ [c] ++ ['\n'] := by simp [endLine, hc]
    rw [hlast, parseRows_concat_feed hc hreturn h.closed]

/-- Text after a line that has ended is read as a text of its own. -/
theorem Whole.readFrom_endLine {cs : List Char} (h : Whole cs) (more : List Char) :
    read (endLine cs ++ more) = (read more).addRows (parseRows cs) := by
  have hstart : atRow (parseRows cs) = (atRow []).addRows (parseRows cs) := by
    simp [atRow, addRows]
  rw [Reader.read, readFrom_append, ← Reader.read, h.read_endLine, hstart, readFrom_addRows]
  rfl

/-- After a whole text other lines are read on their own. -/
theorem Whole.parseRows_endLine_append {cs : List Char} (h : Whole cs) (more : List Char) :
    parseRows (endLine cs ++ more) = parseRows cs ++ parseRows more := by
  rw [← finish_read, h.readFrom_endLine, ← finish_read more]
  simp [finish, addRows]

/-- Whole texts are joined to a whole text, one below the other. -/
theorem Whole.endLine_append {cs more : List Char} (h : Whole cs) (hmore : Whole more) :
    Whole (endLine cs ++ more) := by
  refine ⟨?_, ?_, ?_⟩
  · simp [hmore.filled]
  · rw [h.readFrom_endLine]
    exact hmore.closed
  · rw [List.getLast?_append_of_ne_nil _ hmore.filled]
    exact hmore.unbroken

/-! ## The first line -/

/-- The text before its first line feed. -/
def firstLine (cs : List Char) : List Char := cs.takeWhile (· ≠ '\n')

theorem headerLine_eq (cs : List Char) : headerLine cs = trim (firstLine cs) := rfl

theorem firstLine_cons (c : Char) (cs : List Char) :
    firstLine (c :: cs) = if c = '\n' then [] else c :: firstLine cs := by
  by_cases hc : c = '\n' <;> simp [firstLine, hc]

theorem feed_not_mem_firstLine (cs : List Char) : '\n' ∉ firstLine cs := by
  intro hmem
  simpa using List.mem_takeWhile_imp hmem

/-- What follows a line feed does not change the first line. -/
theorem firstLine_append_feed (cs rest : List Char) :
    firstLine (cs ++ '\n' :: rest) = firstLine cs := by
  induction cs with
  | nil => rfl
  | cons c cs ih => rw [List.cons_append, firstLine_cons, firstLine_cons, ih]

/-- Lines below a text do not change its first line. -/
theorem firstLine_endLine_append (cs more : List Char) :
    firstLine (endLine cs ++ more) = firstLine cs := by
  unfold endLine
  split
  · next hlast =>
    rcases List.getLast?_eq_some_iff.mp hlast with ⟨before, rfl⟩
    rw [List.append_assoc, List.singleton_append, firstLine_append_feed, firstLine_append_feed]
  · rw [List.append_assoc, List.singleton_append, firstLine_append_feed]

/-- Outside quotes a carriage return stands before a line feed only. -/
def ReturnsPaired (cs : List Char) : Prop :=
  ∀ before after, cs = before ++ '\r' :: after → (read before).mode ≠ .quoted →
    after.head? = some '\n'

/-- The returns outside of quotes that the definition speaks of are those at a place of the text. -/
theorem returnsPaired_iff {cs : List Char} :
    ReturnsPaired cs ↔ ∀ i < cs.length, (cs.drop i).head? = some '\r' →
      (read (cs.take i)).mode ≠ .quoted → (cs.drop (i + 1)).head? = some '\n' := by
  constructor
  · intro h i _ hreturn hmode
    have hdrop : cs.drop i = '\r' :: cs.drop (i + 1) := by
      rw [← List.tail_drop, ← List.eq_cons_of_mem_head? hreturn]
    have hsplit : cs = cs.take i ++ '\r' :: cs.drop (i + 1) := by
      rw [← hdrop, List.take_append_drop]
    exact h _ _ hsplit hmode
  · rintro h before after rfl hmode
    have hnext := h before.length (by simp) (by simp) (by simpa using hmode)
    simpa using hnext

instance (cs : List Char) : Decidable (ReturnsPaired cs) := decidable_of_iff' _ returnsPaired_iff

/-- A character of a row without quotes and line breaks. -/
def IsFlat (c : Char) : Prop := c ≠ '"' ∧ c ≠ '\n' ∧ c ≠ '\r'

namespace Reader

/-- Without quotes the reader never stands between quotes. -/
theorem mode_of_no_quote {r : Reader} (hmode : r.mode = .plain ∨ r.mode = .returnSeen)
    {cs : List Char} (h : '"' ∉ cs) : (r.readFrom cs).mode ≠ .quoted := by
  induction cs generalizing r with
  | nil => rcases hmode with hmode | hmode <;> simp [hmode]
  | cons c cs ih =>
    rw [List.mem_cons, not_or] at h
    rcases h with ⟨hc, hcs⟩
    have hquote : c ≠ '"' := Ne.symm hc
    have hplain : (r.stepPlain c).mode = .plain ∨ (r.stepPlain c).mode = .returnSeen := by
      unfold stepPlain
      split_ifs <;> simp_all [endRow]
    refine ih ?_ hcs
    rcases hmode with hmode | hmode
    · simpa [step, hmode] using hplain
    · simp only [step, hmode]
      split_ifs
      · exact .inl rfl
      · exact hplain

/-- Within a row every comma begins a cell. -/
theorem readFrom_flat {cs : List Char} (h : ∀ c ∈ cs, IsFlat c) (rows : List (List String))
    (k : Cursor) :
    ∃ k', (Reader.mk rows k .plain).readFrom cs = ⟨rows, k', .plain⟩ ∧
      k'.cells.length = k.cells.length + cs.count ',' := by
  induction cs generalizing k with
  | nil => exact ⟨k, rfl, by simp⟩
  | cons c cs ih =>
    rw [List.forall_mem_cons] at h
    rcases h with ⟨⟨hquote, hfeed, hreturn⟩, hcs⟩
    by_cases hcomma : c = ','
    · subst hcomma
      rcases ih hcs k.nextCell with ⟨k', hread, hlength⟩
      have hnext : k.nextCell.cells.length = k.cells.length + 1 := by
        simp [Cursor.nextCell, Cursor.cells]
      refine ⟨k', by simpa [step, stepPlain] using hread, ?_⟩
      rw [hlength, hnext, List.count_cons_self]
      omega
    · rcases ih hcs (k.put c) with ⟨k', hread, hlength⟩
      refine ⟨k', by simpa [step, stepPlain, hquote, hfeed, hreturn, hcomma] using hread, ?_⟩
      simpa [hcomma, Cursor.put, Cursor.cells] using hlength

end Reader

/-- In a line without quotes a carriage return can only stand at its end. -/
theorem ReturnsPaired.line {line rest : List Char} (h : ReturnsPaired (line ++ rest))
    (hquote : '"' ∉ line) (hfeed : '\n' ∉ line) :
    ∃ body, (∀ c ∈ body, IsFlat c) ∧ (line = body ∨ line = body ++ ['\r']) := by
  have hlast : ∀ before after, line = before ++ '\r' :: after → after = [] := by
    rintro before after rfl
    simp only [List.mem_append, List.mem_cons, not_or] at hquote hfeed
    have hhead := h before (after ++ rest) (by simp) (mode_of_no_quote (.inl rfl) hquote.1)
    cases after with
    | nil => rfl
    | cons c after =>
      have hc : c = '\n' := by simpa using hhead
      simp [hc] at hfeed
  have hflat : ∀ {body : List Char}, '"' ∉ body → '\n' ∉ body → '\r' ∉ body →
      ∀ c ∈ body, IsFlat c := by
    intro body hq hf hr c hc
    exact ⟨fun he => hq (he ▸ hc), fun he => hf (he ▸ hc), fun he => hr (he ▸ hc)⟩
  by_cases hreturn : '\r' ∈ line
  · rcases List.append_of_mem hreturn with ⟨before, after, hline⟩
    obtain rfl := hlast before after hline
    subst hline
    simp only [List.mem_append, not_or] at hquote hfeed
    refine ⟨before, hflat hquote.1 hfeed.1 ?_, .inr rfl⟩
    -- another one before it would stand at the end as well
    intro hearlier
    rcases List.append_of_mem hearlier with ⟨first, more, rfl⟩
    have hnone := hlast first (more ++ ['\r']) (by simp)
    simp at hnone
  · exact ⟨line, hflat hquote hfeed hreturn, .inl rfl⟩

/-- The first line of a text is its first row. -/
theorem ReturnsPaired.read_line {line rest : List Char} (h : ReturnsPaired (line ++ rest))
    (hquote : '"' ∉ line) (hfeed : '\n' ∉ line) :
    ∃ row, read (line ++ ['\n']) = atRow [row] ∧ row.length = line.count ',' + 1 := by
  rcases h.line hquote hfeed with ⟨body, hflat, hline⟩
  rcases readFrom_flat hflat [] .start with ⟨k, hread, hlength⟩
  have hbody : read body = ⟨[], k, .plain⟩ := hread
  have hcount : line.count ',' = body.count ',' := by
    rcases hline with rfl | rfl <;> simp
  refine ⟨k.cells, ?_, by rw [hlength, hcount, Nat.add_comm]; rfl⟩
  rcases hline with rfl | rfl
  · rw [read_concat, hbody]
    simp [step, stepPlain, endRow, atRow]
  · rw [read_concat, read_concat, hbody]
    simp [step, stepPlain, endRow, atRow]

end Csv

end CrmEmulator
