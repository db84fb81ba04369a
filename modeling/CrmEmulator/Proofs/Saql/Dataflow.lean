import CrmEmulator.Analytics.Pipeline
import CrmEmulator.Proofs.Outcome
import CrmEmulator.Proofs.Saql.Grammar
import Mathlib.Control.Monad.Basic
import Mathlib.Logic.Function.Basic

/-!
# CrmEmulator.Proofs.Saql.Dataflow — programs as dataflow between variables

1. `Program.evaluate`: every statement reads the stream that is bound to its source, and binds what
   its step makes of it to its target.
2. A program that is read names only streams that were assigned before (`sourced_of_parse`), but
   running it takes no notice of which one: it is the evaluation of the program in which every
   statement reads the stream that was assigned just before (`run_inSequence`).
3. So a program in which every statement names that stream is run as it is evaluated; one that goes
   back to an earlier stream need not be.
-/

namespace CrmEmulator.Saql

/-! ## Evaluation -/

/-- The streams that are bound to variables. -/
abbrev Bindings := String → Option Stream

namespace Bindings

def empty : Bindings := fun _ => none

def assign (b : Bindings) (name : String) (stream : Stream) : Bindings :=
  Function.update b name (some stream)

/-- The stream of a variable, or the failure that names it. -/
def read (b : Bindings) (name : String) : Except Halt Stream :=
  match b name with
  | some stream => .ok stream
  | none => .error (.failure (QueryFault.undefinedStream name).failure)

/-- A stream that was assigned is the one that is read. -/
theorem read_assign (b : Bindings) (name : String) (stream : Stream) :
    (b.assign name stream).read name = .ok stream := by
  simp [read, assign]

end Bindings

/-- Bind the target of a statement to what its step makes of the stream of its source. -/
def Statement.evaluate (b : Bindings) (s : Statement) : Except Halt Bindings := do
  return b.assign s.target (← s.step.apply (← b.read s.source))

/-- The variable that is assigned last. -/
def lastTarget (current : String) (ss : List Statement) : String :=
  ss.foldl (fun _ s => s.target) current

/-- The rows of the stream that is assigned last, after the rows of the dataset were loaded. -/
def Program.evaluate (p : Program) (rows : List Record) : Except Halt (List Record) := do
  let b ← p.statements.foldlM Statement.evaluate (Bindings.empty.assign p.loaded (.rows rows))
  (← b.read (lastTarget p.loaded p.statements)).toRows "the query result"

/-! ## Statements in sequence -/

/-- Every statement names the stream that was assigned just before. -/
def InSequence : (current : String) → List Statement → Prop
  | _, [] => True
  | current, s :: ss => s.source = current ∧ InSequence s.target ss

/-- The same statements, each reading the stream that was assigned just before. -/
def sequenced : (current : String) → List Statement → List Statement
  | _, [] => []
  | current, s :: ss => { s with source := current } :: sequenced s.target ss

/-- Statements that were put in sequence are. -/
theorem inSequence_sequenced (current : String) (ss : List Statement) :
    InSequence current (sequenced current ss) := by
  induction ss generalizing current with
  | nil => trivial
  | cons s ss ih => exact ⟨rfl, ih s.target⟩

/-- Putting them in sequence keeps the steps. -/
theorem map_step_sequenced (current : String) (ss : List Statement) :
    (sequenced current ss).map (·.step) = ss.map (·.step) := by
  induction ss generalizing current with
  | nil => rfl
  | cons s ss ih => simp [sequenced, ih]

/-- The stream that flows from step to step is the one that was assigned last: this is so before the
statements, and each of them keeps it so. -/
theorem foldlM_evaluate {b : Bindings} {current : String} {stream : Stream}
    (hcurrent : b.read current = .ok stream) {ss : List Statement} (h : InSequence current ss) :
    (do (← ss.foldlM Statement.evaluate b).read (lastTarget current ss)) =
      (ss.map (·.step)).foldlM (fun stream step => step.apply stream) stream := by
  induction ss generalizing b current stream with
  | nil => exact hcurrent
  | cons s ss ih =>
    rcases h with ⟨rfl, hrest⟩
    simp only [List.map_cons, List.foldlM_cons, Statement.evaluate, hcurrent, ok_bind, bind_assoc]
    cases s.step.apply stream with
    | error e => rfl
    | ok output => exact ih (b.read_assign s.target output) hrest

/-! ## Streams of programs that are read -/

/-- A stream that is read is known. -/
theorem readStream_ok {known : List String} {tokens rest : List Token} {name : String}
    (h : readStream known tokens = .ok (name, rest)) : name ∈ known := by
  simp only [readStream, bind_eq_ok] at h
  rcases h with ⟨⟨found, _⟩, -, h⟩
  split at h
  · next hknown =>
    cases h
    simpa using hknown
  · cases h

/-- The source of a step that is read is known. -/
theorem readStep_source {known : List String} {verb : String} {tokens rest : List Token}
    {source : String} {step : Step} (h : readStep known verb tokens = .ok ((source, step), rest)) :
    source ∈ known := by
  unfold readStep at h
  -- whatever the verb is, the stream is read first and given back as the source
  split at h
  case h_6 => cases h
  all_goals
    simp only [bind_eq_ok, pure, Except.pure, Except.ok.injEq, Prod.mk.injEq] at h
    grind [readStream_ok]

/-- The statements of a program that is read have known sources. -/
theorem readStatements_sourced {fuel : Nat} {known : List String} {tokens : List Token}
    {ss : List Statement} (h : readStatements fuel known tokens = .ok ss) : Sourced known ss := by
  induction fuel generalizing known tokens ss with
  | zero =>
    cases tokens <;> cases h <;> trivial
  | succ fuel ih =>
    cases tokens with
    | nil =>
      cases h
      trivial
    | cons t tokens =>
      simp only [readStatements, bind_eq_ok] at h
      rcases h with ⟨⟨⟨target, verb⟩, rest⟩, -, h⟩
      split at h
      · cases h
      · simp only [bind_eq_ok] at h
        rcases h with ⟨⟨⟨source, step⟩, rest⟩, hstep, rest', -, others, hothers, heq⟩
        cases heq
        exact ⟨readStep_source hstep, ih hothers⟩

namespace Program

/-- A program that is read names only streams that were assigned before. -/
theorem sourced_of_parse {text : String} {p : Program} (h : parse text = .ok p) :
    Sourced [p.loaded] p.statements := by
  unfold parse at h
  rcases bind_eq_ok.mp h with ⟨tokens, -, h⟩
  unfold ofTokens at h
  split at h
  · cases h
  · rcases bind_eq_ok.mp h with ⟨⟨⟨target, verb⟩, rest⟩, -, h⟩
    simp only at h
    split at h
    · cases h
    · split at h
      · simp only [bind_eq_ok] at h
        rcases h with ⟨rest', -, ss, hss, heq⟩
        cases heq
        exact readStatements_sourced hss
      · cases h

/-! ## Running programs -/

/-- The program in which every statement reads the stream that was assigned just before. -/
def inSequence (p : Program) : Program := { p with statements := sequenced p.loaded p.statements }

/-- Where statements are in sequence, running them one after the other is evaluating them by
name. -/
theorem run_of_inSequence {p : Program} (h : InSequence p.loaded p.statements)
    (rows : List Record) : p.run rows = p.evaluate rows := by
  have hloaded := Bindings.empty.read_assign p.loaded (.rows rows)
  rw [run, runSteps, evaluate, steps, ← foldlM_evaluate hloaded h, bind_assoc]

/-- Running a program takes no notice of the sources that its statements name. -/
theorem run_inSequence (p : Program) (rows : List Record) :
    p.run rows = p.inSequence.evaluate rows := by
  have hsteps : p.inSequence.steps = p.steps := map_step_sequenced p.loaded p.statements
  have hsequenced := inSequence_sequenced p.loaded p.statements
  rw [← run_of_inSequence (p := p.inSequence) hsequenced, run, run, hsteps]

/-- Every source of a program that is read is a variable that was assigned before, and the program
runs as if each statement named the one that was assigned just before.  So it runs as the dataflow
that its variables spell out if each statement does name that one. -/
theorem steps_run_in_sequence {text : String} {p : Program} (h : parse text = .ok p) :
    Sourced [p.loaded] p.statements ∧
      ∀ rows, p.run rows = p.inSequence.evaluate rows ∧
        (InSequence p.loaded p.statements → p.run rows = p.evaluate rows) :=
  ⟨sourced_of_parse h, fun rows => ⟨p.run_inSequence rows, fun hp => run_of_inSequence hp rows⟩⟩

/-- Two rows. -/
def towns : List Record := [⟨[("Name", .text "Ystad")]⟩, ⟨[("Name", .text "Lund")]⟩]

/-- The towns in order, cut to the first, with a variable that is assigned twice. -/
def firstTown : Program :=
  ⟨"q", "towns", [⟨"r", "q", .order [("Name", .asc)]⟩, ⟨"q", "r", .limit 1⟩]⟩

/-- Each statement names the variable that was assigned just before, so the program runs as its
variables say. -/
theorem firstTown_runs_in_sequence :
    parse "q = load \"towns\"; r = order q by 'Name'; q = limit r 1;" = .ok firstTown ∧
      InSequence "q" firstTown.statements ∧
        firstTown.run towns = firstTown.evaluate towns ∧
          firstTown.run towns = .ok [⟨[("Name", .text "Lund")]⟩] := by
  have hparse : parse "q = load \"towns\"; r = order q by 'Name'; q = limit r 1;" =
      .ok firstTown := by
    decide +kernel
  have hsequence : InSequence "q" firstTown.statements := ⟨rfl, rfl, trivial⟩
  have hrun := ((steps_run_in_sequence hparse).2 towns).2 hsequence
  exact ⟨hparse, hsequence, hrun, by decide +kernel⟩

/-- The second limit names the rows that were loaded, and is run on those that the first one has
left. -/
theorem second_limit_reads_first :
    (parse "a = load \"towns\"; b = limit a 1; c = limit a 2;").map
        (fun p => (p.evaluate towns, p.run towns)) =
      .ok (.ok towns, .ok (towns.take 1)) := by
  decide +kernel

end Program

end CrmEmulator.Saql
