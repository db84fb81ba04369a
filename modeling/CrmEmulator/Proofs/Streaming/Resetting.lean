import CrmEmulator.Proofs.Streaming.Sound

/-!
# CrmEmulator.Proofs.Streaming.Resetting — publishing while the bus is cleared

A publish works in two sections, a clear in three, and any number of calls may be under way at
once.  A publish that has found its log appends to that log, even if the channels have been emptied
in between; such an event is in no channel any more, but it takes a number.

1. `Scene`: the bus with the calls that work on it.  A turn takes one call through its next section,
   and the turns of one call without any others in between make `publish` and `clear`.
2. `Turns`: all that a turn can do.  A publish that appends to a channel finds it there, since the
   channels have not been emptied since it found its log.
3. Every section keeps the bus sound, except that the counter must not be reset while a channel
   holds an event.
4. So numbers grow along every log as long as no reset finds an event.  Once one does, the next
   event of that channel breaks the order.
-/

namespace CrmEmulator

namespace EventBus

/-! ## Calls -/

/-- A call of a publisher, or one that clears the bus. -/
inductive Call
  | publish (channel : String) (payload : Json) (now : String)
  | clear
deriving DecidableEq

/-- What a call does next. -/
inductive Stage
  | finding (channel : String) (payload : Json) (now : String)
  /-- A publish has found its log, after the channels had been emptied so many times. -/
  | appending (found : Nat) (channel : String) (payload : Json) (now : String)
  | emptyingChannels
  | emptyingClients
  | resetting
  | done
deriving DecidableEq

def Call.first : Call → Stage
  | .publish channel payload now => .finding channel payload now
  | .clear => .emptyingChannels

/-- The bus while calls work on it. -/
structure Scene where
  bus : EventBus
  /-- How many times the channels have been emptied. -/
  emptied : Nat
  calls : List Stage

namespace Scene

/-- An empty bus and calls that have not begun. -/
def start (calls : List Call) : Scene := ⟨.empty, 0, calls.map Call.first⟩

/-- One section of a call: the bus and the number of emptyings after it, and what comes next. -/
def advance (b : EventBus) (emptied : Nat) : Stage → EventBus × Nat × Stage
  | .finding channel payload now =>
    (b.openChannel channel, emptied, .appending emptied channel payload now)
  | .appending found channel payload now =>
    -- a log that was found before the channels were emptied belongs to no channel
    if found = emptied then ((b.appendEvent channel payload now).2, emptied, .done)
    else ({ b with counter := b.counter + 1 }, emptied, .done)
  | .emptyingChannels => (b.clearChannels, emptied + 1, .emptyingClients)
  | .emptyingClients => (b.clearClients, emptied, .resetting)
  | .resetting => (b.resetCounter, emptied, .done)
  | .done => (b, emptied, .done)

/-- The next section of the call at a position. -/
def turn (sc : Scene) (i : Nat) : Scene :=
  match sc.calls[i]? with
  | none => sc
  | some stage =>
    let (bus, emptied, after) := advance sc.bus sc.emptied stage
    ⟨bus, emptied, sc.calls.set i after⟩

/-- The scene after turns of calls in any order. -/
def run (sc : Scene) (schedule : List Nat) : Scene := schedule.foldl turn sc

/-- Two schedules are run one after the other. -/
theorem run_append (sc : Scene) (schedule more : List Nat) :
    sc.run (schedule ++ more) = (sc.run schedule).run more := List.foldl_append ..

variable {sc : Scene} {i : Nat}

/-- A turn of a call that is there advances it by one stage. -/
theorem turn_of_getElem? {stage : Stage} (hi : sc.calls[i]? = some stage) :
    sc.turn i = ⟨(advance sc.bus sc.emptied stage).1, (advance sc.bus sc.emptied stage).2.1,
      sc.calls.set i (advance sc.bus sc.emptied stage).2.2⟩ := by
  simp [turn, hi]

/-- After its turn a call is in its next stage. -/
theorem calls_turn {stage : Stage} (hi : sc.calls[i]? = some stage) :
    (sc.turn i).calls[i]? = some (advance sc.bus sc.emptied stage).2.2 := by
  have hlt := (List.getElem?_eq_some_iff.mp hi).1
  simp [turn_of_getElem? hi, hlt]

/-- All other calls stay where they were. -/
theorem calls_turn_of_ne {j : Nat} (hne : i ≠ j) : (sc.turn i).calls[j]? = sc.calls[j]? := by
  unfold turn
  split
  · rfl
  · simp [List.getElem?_set_ne hne]

/-- The two turns of a publish that nothing comes in between are a publish. -/
theorem bus_publish {channel : String} {payload : Json} {now : String}
    (hi : sc.calls[i]? = some (.finding channel payload now)) :
    (sc.run [i, i]).bus = (sc.bus.publish channel payload now).2 := by
  have hnext := calls_turn hi
  show ((sc.turn i).turn i).bus = _
  rw [turn_of_getElem? hnext, turn_of_getElem? hi]
  simp [advance, publish]

/-- The three turns of a clear that nothing comes in between are a clear. -/
theorem bus_clear (hi : sc.calls[i]? = some .emptyingChannels) :
    (sc.run [i, i, i]).bus = sc.bus.clear.2 := by
  have hnext := calls_turn hi
  have hlast := calls_turn hnext
  show (((sc.turn i).turn i).turn i).bus = _
  rw [turn_of_getElem? hlast, turn_of_getElem? hnext, turn_of_getElem? hi]
  rfl

end Scene

/-! ## Sections of a sound bus -/

variable {b : EventBus}

/-- It makes no difference whether a channel is opened before an event is appended to it. -/
theorem publish_eq_appendEvent (b : EventBus) (channel : String) (payload : Json) (now : String) :
    b.publish channel payload now = b.appendEvent channel payload now := by
  unfold publish openChannel
  split
  · rfl
  · next hnew =>
    have hnone : b.channels.get? channel = none := by simpa [Registry.contains] using hnew
    simp [appendEvent, hnone, Registry.put_put]

/-- An event with the next number keeps a bus sound. -/
theorem Sound.appendEvent (hb : Sound b) (channel : String) (payload : Json) (now : String) :
    Sound (b.appendEvent channel payload now).2 := by
  rw [← publish_eq_appendEvent]
  exact hb.next (.publish channel payload now)

/-- Opening a channel keeps a bus sound. -/
theorem Sound.openChannel (hb : Sound b) (channel : String) : Sound (b.openChannel channel) := by
  refine hb.of_sublist (fun channel' => ?_) ?_ fun client => ?_
  · exact log_openChannel b channel channel' ▸ List.Sublist.refl _
  · simp
  · simpa [subscriptionsOf] using hb.distinct client

/-- An event in a log that belongs to no channel takes a number. -/
theorem Sound.skipNumber (hb : Sound b) : Sound { b with counter := b.counter + 1 } := by
  have hcounter : b.counter ≤ b.counter + 1 := by omega
  exact hb.of_sublist (fun _ => List.Sublist.refl _) hcounter hb.distinct

/-- Emptying the channels keeps a bus sound. -/
theorem Sound.clearChannels (hb : Sound b) : Sound b.clearChannels :=
  hb.of_sublist (fun _ => List.nil_sublist _) (Int.le_refl _) hb.distinct

/-- Removing the clients keeps a bus sound. -/
theorem Sound.clearClients (hb : Sound b) : Sound b.clearClients :=
  hb.of_sublist (fun _ => List.Sublist.refl _) (Int.le_refl _) fun _ => List.nodup_nil

/-- The counter may be reset only if there are no events. -/
theorem Sound.resetCounter (hb : Sound b) (hnone : ∀ channel, b.log channel = []) :
    Sound b.resetCounter where
  counter_nonneg := Int.le_refl 0
  numbered := by
    intro channel e he
    rw [show b.resetCounter.log channel = [] from hnone channel] at he
    cases he
  increasing := hb.increasing
  disjoint := hb.disjoint
  distinct := hb.distinct

/-- A reset that nobody interrupts keeps a bus sound. -/
theorem Sound.clear (hb : Sound b) : Sound b.clear.2 :=
  hb.clearChannels.clearClients.resetCounter fun _ => rfl

/-! ## Channels that are there -/

theorem contains_put (r : Registry Log) (name key : String) (log : Log) :
    (r.put name log).contains key = (decide (key = name) || r.contains key) := by
  by_cases hkey : key = name <;> simp [Registry.contains, hkey]

/-- A channel that is opened is contained, with all that were. -/
theorem contains_openChannel (b : EventBus) (channel key : String) :
    (b.openChannel channel).channels.contains key =
      (decide (key = channel) || b.channels.contains key) := by
  unfold openChannel
  split
  · next hopen => by_cases hkey : key = channel <;> simp [hkey, hopen]
  · exact contains_put b.channels channel key []

/-! ## Runs -/

namespace Scene

variable {sc : Scene} {i : Nat}

/-- All that a turn can do. -/
inductive Turns (sc : Scene) (i : Nat) : Scene → Prop
  | idle (hi : sc.calls[i]? = none) : Turns sc i sc
  | finds {channel : String} {payload : Json} {now : String}
      (hi : sc.calls[i]? = some (.finding channel payload now)) :
      Turns sc i ⟨sc.bus.openChannel channel, sc.emptied,
        sc.calls.set i (.appending sc.emptied channel payload now)⟩
  | appends {channel : String} {payload : Json} {now : String}
      (hi : sc.calls[i]? = some (.appending sc.emptied channel payload now)) :
      Turns sc i ⟨(sc.bus.appendEvent channel payload now).2, sc.emptied, sc.calls.set i .done⟩
  | loses {found : Nat} {channel : String} {payload : Json} {now : String}
      (hi : sc.calls[i]? = some (.appending found channel payload now))
      (hold : found ≠ sc.emptied) :
      Turns sc i ⟨{ sc.bus with counter := sc.bus.counter + 1 }, sc.emptied,
        sc.calls.set i .done⟩
  | emptiesChannels (hi : sc.calls[i]? = some .emptyingChannels) :
      Turns sc i ⟨sc.bus.clearChannels, sc.emptied + 1, sc.calls.set i .emptyingClients⟩
  | emptiesClients (hi : sc.calls[i]? = some .emptyingClients) :
      Turns sc i ⟨sc.bus.clearClients, sc.emptied, sc.calls.set i .resetting⟩
  | resets (hi : sc.calls[i]? = some .resetting) :
      Turns sc i ⟨sc.bus.resetCounter, sc.emptied, sc.calls.set i .done⟩
  | rests (hi : sc.calls[i]? = some .done) :
      Turns sc i ⟨sc.bus, sc.emptied, sc.calls.set i .done⟩

/-- A turn does one of the things that are listed. -/
theorem turn_turns (sc : Scene) (i : Nat) : Turns sc i (sc.turn i) := by
  cases hi : sc.calls[i]? with
  | none => simpa [turn, hi] using Turns.idle hi
  | some stage =>
    rw [turn_of_getElem? hi]
    cases stage with
    | finding => exact .finds hi
    | appending found =>
      by_cases hfound : found = sc.emptied
      · subst hfound
        simpa [advance] using Turns.appends hi
      · simpa [advance, hfound] using Turns.loses hi hfound
    | emptyingChannels => exact .emptiesChannels hi
    | emptyingClients => exact .emptiesClients hi
    | resetting => exact .resets hi
    | done => exact .rests hi

/-! ### Logs that were found -/

/-- A log that was found since the channels were last emptied belongs to its channel. -/
def Located (sc : Scene) : Prop :=
  ∀ found channel payload now, .appending found channel payload now ∈ sc.calls →
    found ≤ sc.emptied ∧ (found = sc.emptied → sc.bus.channels.contains channel)

theorem located_start (calls : List Call) : (start calls).Located := by
  intro found channel payload now h
  rcases List.mem_map.mp h with ⟨call, -, hcall⟩
  cases call <;> cases hcall

/-- Turns that do not empty the channels close none of them. -/
theorem Located.set (h : sc.Located) {b : EventBus}
    (hopen : ∀ channel, sc.bus.channels.contains channel → b.channels.contains channel)
    {stage : Stage} (hstage : ∀ found channel payload now,
      stage = .appending found channel payload now →
        found = sc.emptied ∧ b.channels.contains channel) :
    Located ⟨b, sc.emptied, sc.calls.set i stage⟩ := by
  intro found channel payload now hmem
  rcases List.mem_or_eq_of_mem_set hmem with hold | hnew
  · rcases h found channel payload now hold with ⟨hle, hlocated⟩
    exact ⟨hle, fun hfound => hopen channel (hlocated hfound)⟩
  · rcases hstage found channel payload now hnew.symm with ⟨rfl, hlocated⟩
    exact ⟨Nat.le_refl _, fun _ => hlocated⟩

/-- A turn keeps the logs that were found at their channels. -/
theorem Located.turn (h : sc.Located) (i : Nat) : (sc.turn i).Located := by
  have hturn := turn_turns sc i
  generalize sc.turn i = sc' at hturn
  cases hturn with
  | idle => exact h
  | finds =>
    refine h.set (fun key hkey => ?_) ?_
    · rw [contains_openChannel, hkey, Bool.or_true]
    · rintro _ _ _ _ ⟨⟩
      simp [contains_openChannel]
  | appends =>
    refine h.set (fun key hkey => ?_) (by simp)
    simp [appendEvent, contains_put, hkey]
  | loses => exact h.set (fun _ hkey => hkey) (by simp)
  | emptiesChannels =>
    -- all logs that have been found are older than the channels that are there now
    intro found channel payload now hmem
    rcases List.mem_or_eq_of_mem_set hmem with hold | hnew
    · have hle := (h found channel payload now hold).1
      exact ⟨Nat.le_succ_of_le hle, fun hfound => absurd (hfound ▸ hle) (Nat.not_succ_le_self _)⟩
    · cases hnew
  | emptiesClients => exact h.set (fun _ hkey => hkey) (by simp)
  | resets => exact h.set (fun _ hkey => hkey) (by simp)
  | rests => exact h.set (fun _ hkey => hkey) (by simp)

/-- A schedule keeps the logs that were found at their channels. -/
theorem Located.run (h : sc.Located) (schedule : List Nat) : (sc.run schedule).Located := by
  induction schedule generalizing sc with
  | nil => exact h
  | cons i schedule ih => exact ih (h.turn i)

/-- A publish appends to a log of a channel, or to one that was dropped: it never opens the channel
again. -/
theorem append_finds_channel (calls : List Call) (schedule : List Nat) {channel : String}
    {payload : Json} {now : String}
    (h : .appending ((start calls).run schedule).emptied channel payload now ∈
      ((start calls).run schedule).calls) :
    ((start calls).run schedule).bus.channels.contains channel :=
  ((located_start calls).run schedule _ channel payload now h).2 rfl

/-! ### Order -/

/-- A turn keeps the bus sound, unless it resets the counter while there are events. -/
theorem sound_turn (hb : Sound sc.bus)
    (hreset : sc.calls[i]? = some .resetting → ∀ channel, sc.bus.log channel = []) :
    Sound (sc.turn i).bus := by
  have hturn := turn_turns sc i
  generalize sc.turn i = sc' at hturn
  cases hturn with
  | idle => exact hb
  | finds => exact hb.openChannel _
  | appends => exact hb.appendEvent _ _ _
  | loses => exact hb.skipNumber
  | emptiesChannels => exact hb.clearChannels
  | emptiesClients => exact hb.clearClients
  | resets hi => exact hb.resetCounter (hreset hi)
  | rests => exact hb

/-- Every reset of a schedule finds all channels without events. -/
def ResetsClean (sc : Scene) : List Nat → Prop
  | [] => True
  | i :: schedule =>
    (sc.calls[i]? = some .resetting → ∀ channel, sc.bus.log channel = []) ∧
      (sc.turn i).ResetsClean schedule

/-- If every reset finds the channels without events, the bus stays sound. -/
theorem sound_run {schedule : List Nat} (hb : Sound sc.bus) (hclean : sc.ResetsClean schedule) :
    Sound (sc.run schedule).bus := by
  induction schedule generalizing sc with
  | nil => exact hb
  | cons i schedule ih => exact ih (sound_turn hb hclean.1) hclean.2

/-- A reset that finds an event lets the next event of its channel take a number that the log
already has passed. -/
theorem late_reset {channel : String} {payload : Json} {now : String} {j : Nat} (hb : Sound sc.bus)
    (hi : sc.calls[i]? = some .resetting) (hj : sc.calls[j]? = some (.finding channel payload now))
    (hlog : sc.bus.log channel ≠ []) :
    ¬ ((sc.run [i, j, j]).bus.log channel).Pairwise fun e e' => e.replayId < e'.replayId := by
  have hne : i ≠ j := by
    rintro rfl
    simp [hi] at hj
  have hfinding : (sc.turn i).calls[j]? = some (.finding channel payload now) := by
    rw [calls_turn_of_ne hne, hj]
  have hbus : (sc.run [i, j, j]).bus = (sc.bus.resetCounter.publish channel payload now).2 := by
    show ((sc.turn i).run [j, j]).bus = _
    rw [bus_publish hfinding, turn_of_getElem? hi]
    rfl
  rw [hbus, publish_eq_appendEvent, log_appendEvent, if_pos rfl]
  rcases List.exists_mem_of_ne_nil _ hlog with ⟨e, he⟩
  intro hincreasing
  -- the new event has the number one, and no event has a smaller one
  have hless := (List.pairwise_append.mp hincreasing).2.2 e he _ List.mem_cons_self
  have hpos := (hb.numbered channel e he).1
  have hone : (sc.bus.resetCounter.appendEvent channel payload now).1.replayId = 1 := rfl
  omega

/-- Whatever the order in which any calls take their turns: as long as no reset finds an event,
numbers grow along every log.  As soon as a reset is about to find one, it and a publish on the
channel of that event break the order. -/
theorem numbers_grow_until_late_reset (calls : List Call) (schedule : List Nat)
    (hclean : (start calls).ResetsClean schedule) :
    let sc := (start calls).run schedule
    (∀ channel, (sc.bus.log channel).Pairwise fun e e' => e.replayId < e'.replayId) ∧
      ∀ i j channel payload now, sc.calls[i]? = some .resetting →
        sc.calls[j]? = some (.finding channel payload now) → sc.bus.log channel ≠ [] →
          ¬ (((start calls).run (schedule ++ [i, j, j])).bus.log channel).Pairwise
            fun e e' => e.replayId < e'.replayId := by
  have hsound : Sound ((start calls).run schedule).bus := sound_run sound_empty hclean
  refine ⟨hsound.increasing, ?_⟩
  intro i j channel payload now hi hj hlog
  rw [run_append]
  exact late_reset hsound hi hj hlog

/-- Two publishers of one channel, and a clear between them. -/
def threeCalls : List Call :=
  [.publish "/event/A" .null "t", .clear, .publish "/event/A" .null "u"]

/-- The first publisher comes in after the channels have been emptied. -/
def overtaking : List Nat := [1, 0, 0, 1]

theorem clean_overtaking : (start threeCalls).ResetsClean overtaking := by
  -- no turn of this schedule resets the counter
  refine ⟨?_, ?_, ?_, ?_, trivial⟩ <;> exact fun h => absurd h (by decide)

/-- The numbers grow up to there.  Once the clear resets the counter, the second publisher gets a
number again that the channel has. -/
theorem overtaking_breaks_order :
    (((start threeCalls).run overtaking).bus.log "/event/A").map (·.replayId) = [1] ∧
      ¬ (((start threeCalls).run (overtaking ++ [1, 2, 2])).bus.log "/event/A").Pairwise
        fun e e' => e.replayId < e'.replayId := by
  refine ⟨by decide, ?_⟩
  exact (numbers_grow_until_late_reset threeCalls overtaking clean_overtaking).2 1 2 "/event/A"
    .null "u" (by decide) (by decide) (by decide)

/-- So two events of a channel can get the same number. -/
theorem overtaken_clear_repeats_number :
    ((start threeCalls).run [1, 0, 0, 1, 1, 2, 2]).bus.log "/event/A" =
      [⟨1, .null, "t"⟩, ⟨1, .null, "u"⟩] := by
  decide

end Scene

end EventBus

end CrmEmulator
