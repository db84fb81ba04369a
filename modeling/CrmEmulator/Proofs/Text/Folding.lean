import CrmEmulator.Proofs.Text.LetterCase

/-!
# CrmEmulator.Proofs.Text.Folding — lower case and folding side by side

Lower case and folding move characters by tables that have most of their runs in common.  Folding
leads further where several small letters count as one, and lower case knows letters that folding
does not move.

1. A run moves its characters onto another run, its `image`.  In an ascending table, a character is
   moved by the one run that covers it.
2. `Settles`: a table treats the characters of a run and their images alike.
3. `foldCase_lowerChar` and `lowerChar_foldCase`: one of the two maps before the other makes no
   difference, but for `strayRanges` and `variantRanges`.
4. The letters of these ranges do make a difference: but for two of them, one of the maps moves them
   to a letter of its own, and the other map leaves both letters alone.
-/

namespace CrmEmulator

/-! ## Runs -/

namespace CaseRun

variable {run : CaseRun} {n : Nat}

/-- The characters that a run moves others to, with the way back. -/
def image (run : CaseRun) : CaseRun :=
  ⟨run.moved run.first, run.moved run.last, run.step, -run.shift⟩

/-- The image of a run covers what the run moves to. -/
theorem ToLetters.covers_image (h : run.ToLetters) (hn : run.covers n) :
    run.image.covers (run.moved n) := by
  have hlow := h.low
  have hcovers := covers_iff.mp hn
  have hfirst : run.first ≤ n := hcovers.1
  have hdistance : run.moved n - run.moved run.first = n - run.first := by
    unfold moved
    omega
  rw [covers_iff]
  refine ⟨?_, ?_, ?_⟩
  · show run.moved run.first ≤ run.moved n
    unfold moved
    omega
  · show run.moved n ≤ run.moved run.last
    unfold moved
    omega
  · show (run.moved n - run.moved run.first) % run.step = 0
    rw [hdistance]
    exact hcovers.2.2

/-- The image of a run moves back what the run moves. -/
theorem ToLetters.image_moved (h : run.ToLetters) (hn : run.covers n) :
    run.image.moved (run.moved n) = n := by
  have hcast := h.cast_moved hn
  show (run.moved n + -run.shift).toNat = n
  omega

/-- Both runs go in steps of two, one from an even character and the other from an odd one. -/
def interleaves (a b : CaseRun) : Bool :=
  a.step == 2 && b.step == 2 && a.first % 2 != b.first % 2

/-- Runs that interleave share no character. -/
theorem not_covers_of_interleaves {a b : CaseRun} (h : a.interleaves b) (hn : a.covers n) :
    ¬b.covers n := by
  intro hn'
  rw [covers_iff] at hn hn'
  simp only [interleaves, Bool.and_eq_true, beq_iff_eq, bne_iff_ne] at h
  rcases h with ⟨⟨hstep, hstep'⟩, hparity⟩
  rw [hstep] at hn
  rw [hstep'] at hn'
  omega

/-- The characters of a run, one after the other. -/
def points (run : CaseRun) : List Nat :=
  (List.range ((run.last - run.first) / run.step + 1)).map fun k => run.first + run.step * k

/-- What a run covers is one of its points. -/
theorem mem_points (hn : run.covers n) : n ∈ run.points := by
  have hcovers := covers_iff.mp hn
  have hmul := Nat.div_add_mod (n - run.first) run.step
  have hle : (n - run.first) / run.step ≤ (run.last - run.first) / run.step := by
    apply Nat.div_le_div_right
    omega
  refine List.mem_map.mpr ⟨(n - run.first) / run.step, List.mem_range.mpr ?_, ?_⟩
  · omega
  · omega

end CaseRun

/-! ## Tables -/

/-- Runs one behind the other, none of which is empty, from a given place on. -/
def ascending : (place : Nat) → List CaseRun → Bool
  | _, [] => true
  | place, run :: rest =>
    place.ble run.first && run.first.ble run.last && ascending (run.last + 1) rest

section tables
variable {runs : List CaseRun} {run : CaseRun} {c : Char}

/-- What no run covers is not moved. -/
theorem shiftCase_of_not_covers (h : ∀ run ∈ runs, ¬run.covers c.toNat) : shiftCase runs c = c := by
  have hnone : runs.find? (·.covers c.toNat) = none := List.find?_eq_none.mpr h
  rw [shiftCase, hnone]

theorem ascending_cons {place : Nat} {rest : List CaseRun} (h : ascending place (run :: rest)) :
    place ≤ run.first ∧ run.first ≤ run.last ∧ ascending (run.last + 1) rest := by
  simpa [ascending, and_assoc] using h

/-- No run begins before the place of the table. -/
theorem le_first_of_ascending {place : Nat} (h : ascending place runs) (hrun : run ∈ runs) :
    place ≤ run.first := by
  induction runs generalizing place with
  | nil => cases hrun
  | cons first rest ih =>
    rcases ascending_cons h with ⟨hplace, hends, hrest⟩
    rcases List.mem_cons.mp hrun with rfl | hmem
    · exact hplace
    · have hlater := ih hrest hmem
      omega

/-- Where runs do not overlap, the first one that covers a character is the only one. -/
theorem find?_of_covers {place n : Nat} (h : ascending place runs) (hrun : run ∈ runs)
    (hn : run.covers n) : runs.find? (·.covers n) = some run := by
  induction runs generalizing place with
  | nil => cases hrun
  | cons first rest ih =>
    rcases ascending_cons h with ⟨-, -, hrest⟩
    rcases List.mem_cons.mp hrun with rfl | hmem
    · exact List.find?_cons_of_pos hn
    · have hnot : ¬first.covers n := by
        intro hfirst
        have hlast := (CaseRun.covers_iff.mp hfirst).2.1
        have hbegin := (CaseRun.covers_iff.mp hn).1
        have hbehind := le_first_of_ascending hrest hmem
        omega
      simp only [List.find?_cons, hnot, ih hrest hmem]

/-- What a run of an ascending table covers is moved by that run. -/
theorem shiftCase_of_covers (hruns : ascending 0 runs) (hrun : run ∈ runs)
    (hc : run.covers c.toNat) : shiftCase runs c = Char.ofNat (run.moved c.toNat) := by
  rw [shiftCase, find?_of_covers hruns hrun hc]
  rfl

/-- The table without the runs at its beginning that end before a place, sixteen at a time. -/
def leap (place : Nat) : (fuel : Nat) → List CaseRun → List CaseRun
  | 0, runs => runs
  | fuel + 1, runs =>
    match runs.drop 16 with
    | [] => runs
    | next :: rest => bif next.first.ble place then leap place fuel (next :: rest) else runs

/-- The table from about a place on. -/
def around (place : Nat) (runs : List CaseRun) : List CaseRun := leap place 16 runs

/-- Both parts of an ascending table are ascending, the second behind the first. -/
theorem ascending_append {place : Nat} {front back : List CaseRun}
    (h : ascending place (front ++ back)) :
    ∃ later, place ≤ later ∧ ascending later back ∧ ∀ run ∈ front, run.last < later := by
  induction front generalizing place with
  | nil => exact ⟨place, Nat.le_refl _, h, List.forall_mem_nil _⟩
  | cons run front ih =>
    rcases ascending_cons h with ⟨hplace, hends, hrest⟩
    rcases ih hrest with ⟨later, hlater, hback, hfront⟩
    exact ⟨later, by omega, hback, List.forall_mem_cons.mpr ⟨by omega, hfront⟩⟩

/-- What is leapt over ends before the place. -/
theorem exists_append_leap {start : Nat} (hruns : ascending start runs) (place fuel : Nat) :
    ∃ front, front ++ leap place fuel runs = runs ∧ ∀ run ∈ front, run.last < place := by
  induction fuel generalizing runs start with
  | zero => exact ⟨[], rfl, List.forall_mem_nil _⟩
  | succ fuel ih =>
    unfold leap
    split
    · exact ⟨[], rfl, List.forall_mem_nil _⟩
    · next next rest hdrop =>
      cases hplace : next.first.ble place with
      | false => exact ⟨[], rfl, List.forall_mem_nil _⟩
      | true =>
        -- the runs that are left out end before the next one begins
        have hcut : runs.take 16 ++ next :: rest = runs := by rw [← hdrop, List.take_append_drop]
        rw [← hcut] at hruns
        rcases ascending_append hruns with ⟨later, -, hback, hfront⟩
        rcases ih hback with ⟨front, hleap, hbetween⟩
        have hnext := (ascending_cons hback).1
        have hble := Nat.le_of_ble_eq_true hplace
        refine ⟨runs.take 16 ++ front, ?_, List.forall_mem_append.mpr ⟨?_, hbetween⟩⟩
        · rw [cond_true, List.append_assoc, hleap, hcut]
        · intro run hrun
          have hlast := hfront run hrun
          omega

theorem exists_append_around {start : Nat} (hruns : ascending start runs) (place : Nat) :
    ∃ front, front ++ around place runs = runs ∧ ∀ run ∈ front, run.last < place :=
  exists_append_leap hruns place 16

/-- What stands about a place is in the table. -/
theorem mem_of_mem_around {start place : Nat} (hruns : ascending start runs)
    (h : run ∈ around place runs) : run ∈ runs := by
  rcases exists_append_around hruns place with ⟨front, hcut, -⟩
  rw [← hcut]
  exact List.mem_append_right _ h

/-- A table need not be looked at from its beginning. -/
theorem shiftCase_around {start : Nat} (hruns : ascending start runs) (c : Char) :
    shiftCase (around c.toNat runs) c = shiftCase runs c := by
  rcases exists_append_around hruns c.toNat with ⟨front, hcut, hfront⟩
  have hnone : front.find? (·.covers c.toNat) = none := by
    refine List.find?_eq_none.mpr fun run hrun hcovers => ?_
    have hlast := (CaseRun.covers_iff.mp hcovers).2.1
    have hbefore := hfront run hrun
    omega
  unfold shiftCase
  rw [← hcut, List.find?_append, hnone, Option.none_or, hcut]

/-- A run stands at its place in an ascending table. -/
def CaseRun.isIn (run : CaseRun) (runs : List CaseRun) : Bool :=
  (around run.first runs).any fun other => other.first.beq run.first && other == run

/-- A run that is found about its place is in the table. -/
theorem CaseRun.mem_of_isIn {start : Nat} (h : run.isIn runs) (hruns : ascending start runs) :
    run ∈ runs := by
  rcases List.any_eq_true.mp h with ⟨other, hother, hsame⟩
  rw [Bool.and_eq_true, beq_iff_eq (α := CaseRun)] at hsame
  exact hsame.2 ▸ mem_of_mem_around hruns hother

/-- A run shares no character with those that follow: they end before it, begin behind it, or
interleave with it. -/
def CaseRun.clear (run : CaseRun) : List CaseRun → Bool
  | [] => true
  | other :: rest =>
    bif other.last.blt run.first then run.clear rest
    else run.last.blt other.first || (run.interleaves other && run.clear rest)

/-- A run that is clear of a table shares no character with it. -/
theorem not_covers_of_clear {place n : Nat} (hruns : ascending place runs) (h : run.clear runs)
    (hn : run.covers n) : ∀ other ∈ runs, ¬other.covers n := by
  have hcovers := CaseRun.covers_iff.mp hn
  induction runs generalizing place with
  | nil => exact List.forall_mem_nil _
  | cons other rest ih =>
    rcases ascending_cons hruns with ⟨-, hends, hrest⟩
    rw [List.forall_mem_cons]
    cases hbefore : other.last.blt run.first with
    | true =>
      -- the other run ends before this one begins
      rw [CaseRun.clear, hbefore, cond_true] at h
      rw [Nat.blt_eq] at hbefore
      refine ⟨fun hother => ?_, ih hrest h⟩
      have hlast := (CaseRun.covers_iff.mp hother).2.1
      omega
    | false =>
      rw [CaseRun.clear, hbefore, cond_false, Bool.or_eq_true, Bool.and_eq_true] at h
      rcases h with hbehind | ⟨hstep, h⟩
      · -- the table goes on behind the run
        rw [Nat.blt_eq] at hbehind
        refine ⟨fun hother => ?_, fun later hlater hother => ?_⟩
        · have hfirst := (CaseRun.covers_iff.mp hother).1
          omega
        · have hfirst := (CaseRun.covers_iff.mp hother).1
          have hplace := le_first_of_ascending hrest hlater
          omega
      · exact ⟨CaseRun.not_covers_of_interleaves hstep hn, ih hrest h⟩

/-- A table leaves the characters of a run alone. -/
def CaseRun.isFree (run : CaseRun) (runs : List CaseRun) : Bool := run.clear (around run.first runs)

/-- A free run is left alone. -/
theorem shiftCase_of_isFree {start : Nat} (h : run.isFree runs) (hruns : ascending start runs)
    (hc : run.covers c.toNat) : shiftCase runs c = c := by
  rcases exists_append_around hruns run.first with ⟨front, hcut, hfront⟩
  have hback : ∃ later, ascending later (around run.first runs) := by
    rw [← hcut] at hruns
    rcases ascending_append hruns with ⟨later, -, hlater, -⟩
    exact ⟨later, hlater⟩
  rcases hback with ⟨later, hlater⟩
  apply shiftCase_of_not_covers
  rw [← hcut, List.forall_mem_append]
  refine ⟨fun other hother hcovers => ?_, not_covers_of_clear hlater h hc⟩
  have hlast := (CaseRun.covers_iff.mp hcovers).2.1
  have hfirst := (CaseRun.covers_iff.mp hc).1
  have hbefore := hfront other hother
  omega

/-- A table treats the characters of a run and their images alike, with some exceptions: it has the
same run and leaves the images alone, or it has the way back and leaves the run alone.  The
characters of a run that it has only in part are looked at one by one. -/
def Settles (exceptions : List (Nat × Nat)) (runs : List CaseRun) (run : CaseRun) : Prop :=
  (run.isIn runs ∧ run.image.isFree runs) ∨ (run.image.isIn runs ∧ run.isFree runs) ∨
    ∀ n ∈ run.points, inRanges exceptions (Char.ofNat n) ∨
      shiftCase (around (run.moved n) runs) (Char.ofNat (run.moved n)) =
        shiftCase (around n runs) (Char.ofNat n)

instance (exceptions : List (Nat × Nat)) (runs : List CaseRun) (run : CaseRun) :
    Decidable (Settles exceptions runs run) :=
  inferInstanceAs (Decidable (_ ∨ _))

/-- Where a table settles a run, a character and its image are moved alike, but for the
exceptions. -/
theorem shiftCase_moved {exceptions : List (Nat × Nat)} (h : Settles exceptions runs run)
    (hruns : ascending 0 runs) (hletters : run.ToLetters)
    (hc : run.covers c.toNat) (hexception : ¬inRanges exceptions c) :
    shiftCase runs (Char.ofNat (run.moved c.toNat)) = shiftCase runs c := by
  have hnumber := hletters.toNat_moved hc
  have himage := hletters.covers_image hc
  rw [← hnumber] at himage
  rcases h with ⟨hsame, hfree⟩ | ⟨hback, hfree⟩ | hpoints
  · rw [shiftCase_of_covers hruns (CaseRun.mem_of_isIn hsame hruns) hc]
    exact shiftCase_of_isFree hfree hruns himage
  · rw [shiftCase_of_isFree hfree hruns hc,
      shiftCase_of_covers hruns (CaseRun.mem_of_isIn hback hruns) himage, hnumber,
      hletters.image_moved hc, Char.ofNat_toNat]
  · have hpoint := hpoints c.toNat (CaseRun.mem_points hc)
    have hmoved := shiftCase_around hruns (Char.ofNat (run.moved c.toNat))
    rw [hnumber] at hmoved
    rw [Char.ofNat_toNat, hmoved, shiftCase_around hruns] at hpoint
    exact hpoint.resolve_left hexception

/-- A table that treats all runs of another one so does not notice that a character was moved. -/
theorem shiftCase_shiftCase {others : List CaseRun} {exceptions : List (Nat × Nat)}
    (hothers : ∀ run ∈ others, run.ToLetters)
    (hsettles : ∀ run ∈ others, Settles exceptions runs run)
    (hruns : ascending 0 runs) (hexception : ¬inRanges exceptions c) :
    shiftCase runs (shiftCase others c) = shiftCase runs c := by
  cases hfind : others.find? (·.covers c.toNat) with
  | none => rw [shiftCase_of_not_covers (List.find?_eq_none.mp hfind)]
  | some run =>
    have hmem := List.mem_of_find?_eq_some hfind
    have hshift : shiftCase others c = Char.ofNat (run.moved c.toNat) := by
      rw [shiftCase, hfind]
      rfl
    have hcovers := List.find?_some hfind
    rw [hshift]
    exact shiftCase_moved (hsettles run hmem) hruns (hothers run hmem) hcovers hexception

/-- A table whose second run is behind the ASCII characters moves just the capitals among them. -/
theorem shiftCase_ascii {rest : List CaseRun}
    (hruns : ascending 0 (⟨0x41, 0x5a, 1, 32⟩ :: run :: rest)) (hrun : 128 ≤ run.first)
    (hc : c.toNat < 128) : shiftCase (⟨0x41, 0x5a, 1, 32⟩ :: run :: rest) c = c.toLower := by
  rcases ascending_cons (ascending_cons hruns).2.2 with ⟨-, hends, hrest⟩
  have hbehind : ∀ other ∈ run :: rest, ¬other.covers c.toNat := by
    intro other hother hcovers
    have hbegin := (CaseRun.covers_iff.mp hcovers).1
    rcases List.mem_cons.mp hother with rfl | hmem
    · omega
    · have hfirst := le_first_of_ascending hrest hmem
      omega
  generalize run :: rest = others at hbehind ⊢
  have hnone : others.find? (·.covers c.toNat) = none := List.find?_eq_none.mpr hbehind
  have hcapitals :
      shiftCase (⟨0x41, 0x5a, 1, 32⟩ :: others) c = shiftCase [⟨0x41, 0x5a, 1, 32⟩] c := by
    simp only [shiftCase, List.find?_cons, hnone, List.find?_nil]
  rw [hcapitals]
  exact forall_ascii (P := fun c => shiftCase [⟨0x41, 0x5a, 1, 32⟩] c = c.toLower) (by decide) hc

end tables

/-! ## The two tables -/

theorem ascending_lowercaseRuns : ascending 0 lowercaseRuns := by decide

theorem ascending_foldingRuns : ascending 0 foldingRuns := by decide

theorem toLetters_lowercaseRuns : ∀ run ∈ lowercaseRuns, run.ToLetters := by decide +kernel

theorem foldCase_eq (c : Char) : foldCase c = shiftCase foldingRuns c := by
  unfold foldCase
  split
  · next hascii => exact (shiftCase_ascii ascending_foldingRuns (by decide) hascii).symm
  · rfl

theorem lowerChar_eq {c : Char} (hc : c.toNat ≠ 0x130) :
    lowerChar c = [shiftCase lowercaseRuns c] := by
  unfold lowerChar
  rw [if_neg hc]
  split
  · next hascii =>
    have hlower := shiftCase_ascii ascending_lowercaseRuns (by decide) hascii
    exact congrArg (fun d => [d]) hlower.symm
  · rfl

/-- Capital letters whose small letters are folded to something else: the dotted I, whose lower case
is two characters, and those that folding does not know. -/
def strayRanges : List (Nat × Nat) := [
  (0x130, 0x130), (0xa7ce, 0xa7ce), (0xa7d2, 0xa7d2), (0xa7d4, 0xa7d4), (0x16ea0, 0x16eb8)]

def isStray (c : Char) : Bool := inRanges strayRanges c

/-- Letters with more than one small form: the capital sigma, and the small letters that are folded
to other small letters, such as the final sigma, the long s and the micro sign. -/
def variantRanges : List (Nat × Nat) := [
  (0xb5, 0xb5), (0x17f, 0x17f), (0x345, 0x345), (0x3a3, 0x3a3), (0x3c2, 0x3c2), (0x3d0, 0x3d1),
  (0x3d5, 0x3d6), (0x3f0, 0x3f1), (0x3f5, 0x3f5), (0x1c80, 0x1c88), (0x1e9b, 0x1e9b),
  (0x1fbe, 0x1fbe), (0x1fd3, 0x1fd3), (0x1fe3, 0x1fe3), (0xfb05, 0xfb05)]

def isVariant (c : Char) : Bool := inRanges variantRanges c

theorem settles_lowercaseRuns : ∀ run ∈ lowercaseRuns, Settles strayRanges foldingRuns run := by
  decide +kernel

theorem settles_foldingRuns : ∀ run ∈ foldingRuns, Settles variantRanges lowercaseRuns run := by
  decide +kernel

/-- The lower case of a character that is not stray is one character, which agrees with it up to
letter case. -/
theorem foldCase_lowerChar {c : Char} (hc : isStray c = false) :
    ∃ d, lowerChar c = [d] ∧ foldCase d = foldCase c := by
  have hdotted : c.toNat ≠ 0x130 := by
    intro heq
    have hmem : isStray c = true := by simp [isStray, inRanges, strayRanges, heq]
    rw [hmem] at hc
    cases hc
  refine ⟨_, lowerChar_eq hdotted, ?_⟩
  rw [foldCase_eq, foldCase_eq]
  exact shiftCase_shiftCase toLetters_lowercaseRuns settles_lowercaseRuns ascending_foldingRuns
    (by simpa [isStray] using hc)

/-- Folding does not lead to the dotted capital I. -/
theorem toNat_foldCase_ne {c : Char} (hc : c.toNat ≠ 0x130) : (foldCase c).toNat ≠ 0x130 := by
  have himages : ∀ run ∈ foldingRuns, ¬run.image.covers 0x130 := by decide +kernel
  rw [foldCase_eq]
  cases hfind : foldingRuns.find? (·.covers c.toNat) with
  | none => rwa [shiftCase_of_not_covers (List.find?_eq_none.mp hfind)]
  | some run =>
    have hmem := List.mem_of_find?_eq_some hfind
    have hcovers := List.find?_some hfind
    have hletters := toLetters_foldingRuns run hmem
    rw [shiftCase_of_covers ascending_foldingRuns hmem hcovers, hletters.toNat_moved hcovers]
    intro heq
    exact himages run hmem (heq ▸ hletters.covers_image hcovers)

/-- A character without another small form has the lower case of the character that it is folded
to. -/
theorem lowerChar_foldCase {c : Char} (hc : isVariant c = false) :
    lowerChar (foldCase c) = lowerChar c := by
  by_cases hdotted : c.toNat = 0x130
  · -- the dotted capital I is folded to itself
    have hself : foldCase c = c := by
      have hfold : foldCase (Char.ofNat 0x130) = Char.ofNat 0x130 := by decide
      rw [← Char.ofNat_toNat c, hdotted]
      exact hfold
    rw [hself]
  · rw [lowerChar_eq hdotted, lowerChar_eq (toNat_foldCase_ne hdotted), foldCase_eq]
    have hsame : shiftCase lowercaseRuns (shiftCase foldingRuns c) = shiftCase lowercaseRuns c :=
      shiftCase_shiftCase toLetters_foldingRuns settles_foldingRuns ascending_lowercaseRuns
        (by simpa [isVariant] using hc)
    rw [hsame]

/-- The lower case of a character is itself or letters. -/
theorem mem_lowerChar {c d : Char} (hd : d ∈ lowerChar c) : d = c ∨ 0x41 ≤ d.toNat := by
  -- the one letter whose lower case is two
  by_cases hdotted : c.toNat = 0x130
  · right
    have hboth : lowerChar c = ['i', Char.ofNat 0x307] := by
      unfold lowerChar
      rw [if_pos hdotted, if_neg (by omega)]
    rw [hboth, List.mem_cons, List.mem_singleton] at hd
    rcases hd with rfl | rfl <;> decide
  rw [lowerChar_eq hdotted, List.mem_singleton] at hd
  cases hfind : lowercaseRuns.find? (·.covers c.toNat) with
  | none =>
    rw [shiftCase_of_not_covers (List.find?_eq_none.mp hfind)] at hd
    exact .inl hd
  | some run =>
    right
    have hmem := List.mem_of_find?_eq_some hfind
    have hcovers := List.find?_some hfind
    have hletters := toLetters_lowercaseRuns run hmem
    have hlow := hletters.low
    have hcast := hletters.cast_moved hcovers
    have hfirst := (CaseRun.covers_iff.mp hcovers).1
    rw [hd, shiftCase_of_covers ascending_lowercaseRuns hmem hcovers, hletters.toNat_moved hcovers]
    omega

/-- No letter vanishes in lower case. -/
theorem lowerChar_ne_nil (c : Char) : lowerChar c ≠ [] := by
  unfold lowerChar
  split
  · exact List.cons_ne_nil _ _
  · split <;> exact List.cons_ne_nil _ _

/-! ## Odd letters -/

/-- A letter that lower case and folding treat alike. -/
def isSteady (c : Char) : Bool := !isStray c && !isVariant c

/-- A letter that one table moves to a steady one, while the other table knows neither of them. -/
def Parted (own other : List CaseRun) (c : Char) : Prop :=
  let d := shiftCase (around c.toNat own) c
  d ≠ c ∧ isSteady d ∧ d ∉ ['%', '_', '\\'] ∧ shiftCase (around d.toNat own) d = d ∧
    shiftCase (around c.toNat other) c = c ∧ shiftCase (around d.toNat other) d = d

instance (own other : List CaseRun) (c : Char) : Decidable (Parted own other c) :=
  inferInstanceAs (Decidable (_ ≠ c ∧ _))

/-- Characters before all ranges are in none. -/
theorem inRanges_of_lt {ranges : List (Nat × Nat)} {n : Nat} (h : ∀ r ∈ ranges, n ≤ r.1) {c : Char}
    (hc : c.toNat < n) : inRanges ranges c = false := by
  rw [inRanges, List.any_eq_false]
  intro r hr hin
  have hfirst := h r hr
  simp only [Bool.and_eq_true, decide_eq_true_eq] at hin
  omega

/-- What holds at every place of the ranges holds of their characters. -/
theorem forall_inRanges {ranges : List (Nat × Nat)} {P : Char → Prop}
    (h : ∀ r ∈ ranges, ∀ k < r.2 + 1 - r.1, P (Char.ofNat (r.1 + k))) {c : Char}
    (hc : inRanges ranges c) : P c := by
  simp only [inRanges, List.any_eq_true, Bool.and_eq_true, decide_eq_true_eq] at hc
  rcases hc with ⟨r, hr, hfirst, hlast⟩
  have hpoint := h r hr (c.toNat - r.1) (by omega)
  rwa [Nat.add_sub_cancel' hfirst, Char.ofNat_toNat] at hpoint

/-- A stray letter is moved by lower case alone. -/
theorem parted_of_isStray {c : Char} (hc : isStray c) (hne : c ≠ 'İ') :
    Parted lowercaseRuns foldingRuns c := by
  refine Or.resolve_left ?_ hne
  revert hc
  exact forall_inRanges (P := fun c => c = 'İ' ∨ Parted lowercaseRuns foldingRuns c)
    (by decide +kernel)

/-- A variant is moved by folding alone. -/
theorem parted_of_isVariant {c : Char} (hc : isVariant c) (hne : c ≠ 'Σ') :
    Parted foldingRuns lowercaseRuns c := by
  refine Or.resolve_left ?_ hne
  revert hc
  exact forall_inRanges (P := fun c => c = 'Σ' ∨ Parted foldingRuns lowercaseRuns c)
    (by decide +kernel)

theorem lowerChar_of_ne {c d : Char} (hc : c ≠ 'İ')
    (h : shiftCase (around c.toNat lowercaseRuns) c = d) : lowerChar c = [d] := by
  have hdotted : c.toNat ≠ 0x130 := fun heq => hc (Char.toNat_inj.mp heq)
  rw [lowerChar_eq hdotted, ← shiftCase_around ascending_lowercaseRuns, h]

theorem foldCase_of {c d : Char} (h : shiftCase (around c.toNat foldingRuns) c = d) :
    foldCase c = d := by
  rw [foldCase_eq, ← shiftCase_around ascending_foldingRuns, h]

/-- Lower case moves a stray letter, and folding does not. -/
theorem exists_of_isStray {c : Char} (hc : isStray c) (hne : c ≠ 'İ') :
    ∃ d, d ≠ c ∧ isSteady d ∧ d ∉ ['%', '_', '\\'] ∧ lowerChar c = [d] ∧ lowerChar d = [d] ∧
      foldCase c = c ∧ foldCase d = d := by
  rcases parted_of_isStray hc hne with ⟨hmoved, hsteady, hliteral, hown, hother, hother'⟩
  have hdotted : shiftCase (around c.toNat lowercaseRuns) c ≠ 'İ' := by
    intro heq
    rw [heq] at hsteady
    revert hsteady
    decide
  exact ⟨_, hmoved, hsteady, hliteral, lowerChar_of_ne hne rfl, lowerChar_of_ne hdotted hown,
    foldCase_of hother, foldCase_of hother'⟩

/-- Folding moves a variant, and lower case does not. -/
theorem exists_of_isVariant {c : Char} (hc : isVariant c) (hne : c ≠ 'Σ') :
    ∃ d, d ≠ c ∧ isSteady d ∧ d ∉ ['%', '_', '\\'] ∧ lowerChar c = [c] ∧ lowerChar d = [d] ∧
      foldCase c = d ∧ foldCase d = d := by
  rcases parted_of_isVariant hc hne with ⟨hmoved, hsteady, hliteral, hown, hother, hother'⟩
  have hdotted : c ≠ 'İ' := by
    rintro rfl
    revert hc
    decide
  have hdotted' : shiftCase (around c.toNat foldingRuns) c ≠ 'İ' := by
    intro heq
    rw [heq] at hsteady
    revert hsteady
    decide
  exact ⟨_, hmoved, hsteady, hliteral, lowerChar_of_ne hdotted hother,
    lowerChar_of_ne hdotted' hother', foldCase_of rfl, foldCase_of hown⟩

/-! ## Texts -/

theorem lowerAfter_cons_of_ne {c : Char} (hc : c ≠ 'Σ') (before cs : List Char) :
    lowerAfter before (c :: cs) = lowerChar c ++ lowerAfter (c :: before) cs := by
  rw [lowerAfter, if_neg hc]

/-- A capital sigma becomes one of two small ones. -/
theorem exists_lowerAfter_sigma (before cs : List Char) :
    ∃ d ∈ ['σ', 'ς'], lowerAfter before ('Σ' :: cs) = d :: lowerAfter ('Σ' :: before) cs := by
  rw [lowerAfter, if_pos rfl]
  split
  · exact ⟨'ς', by decide, rfl⟩
  · exact ⟨'σ', by decide, rfl⟩

/-- Without stray letters, lower case folds as the text does. -/
theorem map_foldCase_lowerAfter {cs : List Char} (h : ∀ c ∈ cs, isStray c = false)
    (before : List Char) : (lowerAfter before cs).map foldCase = cs.map foldCase := by
  induction cs generalizing before with
  | nil => rfl
  | cons c cs ih =>
    rw [List.forall_mem_cons] at h
    rcases h with ⟨hc, hcs⟩
    by_cases hsigma : c = 'Σ'
    · subst hsigma
      rcases exists_lowerAfter_sigma before cs with ⟨d, hd, heq⟩
      have hsame : foldCase d = foldCase 'Σ' := by
        rw [List.mem_cons, List.mem_singleton] at hd
        rcases hd with rfl | rfl <;> decide
      rw [heq, List.map_cons, ih hcs, hsame, List.map_cons]
    · rcases foldCase_lowerChar hc with ⟨d, hd, hfold⟩
      rw [lowerAfter_cons_of_ne hsigma, hd, List.singleton_append, List.map_cons, ih hcs, hfold,
        List.map_cons]

/-- Lower case keeps what folding makes of a text, if no character is stray. -/
theorem map_foldCase_lowercase {cs : List Char} (h : ∀ c ∈ cs, isStray c = false) :
    (lowercase cs).map foldCase = cs.map foldCase :=
  map_foldCase_lowerAfter h []

/-- Without variants, lower case depends on the folding only. -/
theorem lowerAfter_eq_flatMap {cs : List Char} (h : ∀ c ∈ cs, isVariant c = false)
    (before : List Char) : lowerAfter before cs = (cs.map foldCase).flatMap lowerChar := by
  induction cs generalizing before with
  | nil => rfl
  | cons c cs ih =>
    rw [List.forall_mem_cons] at h
    rcases h with ⟨hc, hcs⟩
    have hsigma : c ≠ 'Σ' := by
      rintro rfl
      revert hc
      decide
    rw [lowerAfter_cons_of_ne hsigma, ih hcs, List.map_cons, List.flatMap_cons,
      lowerChar_foldCase hc]

/-- The lower case of a text is that of what it is folded to, if no character has several small
forms. -/
theorem lowercase_eq_flatMap {cs : List Char} (h : ∀ c ∈ cs, isVariant c = false) :
    lowercase cs = (cs.map foldCase).flatMap lowerChar :=
  lowerAfter_eq_flatMap h []

end CrmEmulator
