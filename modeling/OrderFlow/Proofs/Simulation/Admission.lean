import OrderFlow.Program
import OrderFlow.Proofs.Scheduler.Punctuality
import OrderFlow.Proofs.Simulation.OrderStream

/-!
# Which simulations are let in

Settings pass two gates: they are checked for faults, and then the scheduler makes a
pool of as many permits as there are workers.  The second gate is narrower than the
first, since a pool holds only so many permits.  A simulation that is past both never
panics: deliveries do not, and nothing else does.
-/

namespace OrderFlow

namespace Settings

variable {settings : Settings}

theorem fault?_eq_none_iff :
    settings.fault? = none ↔
      settings.host ≠ "" ∧ settings.batchSize ≠ 0 ∧ settings.period.nanos ≠ 0 ∧
        settings.workers ≠ 0 ∧ settings.connectTimeout ≠ some ⟨0⟩ := by
  unfold fault?
  constructor
  · intro h
    split_ifs at h
    exact ⟨‹_›, ‹_›, ‹_›, ‹_›, ‹_›⟩
  · rintro ⟨hhost, hbatch, hperiod, hworkers, htimeout⟩
    simp [hhost, hbatch, hperiod, hworkers, htimeout]

/-- All that the second gate still stops is a pool that is too large. -/
theorem misuse?_of_fault? (h : settings.fault? = none) (timer : Timer) :
    (settings.schedule timer).misuse? =
      if Schedule.maxPermits < settings.workers then some .poolTooLarge else none := by
  obtain ⟨_, _, hperiod, hworkers, _⟩ := fault?_eq_none_iff.mp h
  have hpool : ¬ (settings.schedule timer).workers = 0 := hworkers
  rw [Schedule.misuse?, if_neg (show ¬ (settings.schedule timer).period.nanos = 0 from hperiod),
    if_neg hpool]
  rfl

end Settings

namespace Simulation

variable {surroundings : Surroundings} {rounds : Nat} {settings : Settings}

theorem simulate_of_fault {fault : Settings.Fault} (h : settings.fault? = some fault) :
    simulate surroundings rounds settings = .refused fault := by
  unfold simulate
  rw [h]

theorem simulate_of_too_large (h : settings.fault? = none)
    (hworkers : Schedule.maxPermits < settings.workers) :
    simulate surroundings rounds settings = .misused .poolTooLarge := by
  unfold simulate
  rw [h]
  dsimp only
  rw [Settings.misuse?_of_fault? h, if_pos hworkers]

theorem simulate_of_admitted (h : settings.fault? = none)
    (hworkers : settings.workers ≤ Schedule.maxPermits) :
    simulate surroundings rounds settings =
      match (startLoop surroundings settings).drive (settings.schedule surroundings.timer)
        (workOf surroundings settings) rounds with
      | some loop => .finished loop.run
      | none => .unfinished := by
  have hadmitted : (settings.schedule surroundings.timer).misuse? = none := by
    rw [Settings.misuse?_of_fault? h, if_neg (Nat.not_lt.mpr hworkers)]
  cases hdrive : (startLoop surroundings settings).drive (settings.schedule surroundings.timer)
      (workOf surroundings settings) rounds with
  | some loop => simp only [simulate, h, hadmitted, hdrive]
  | none => simp only [simulate, h, hadmitted, hdrive]

theorem drive_of_finished {run : DeliveryRun}
    (h : simulate surroundings rounds settings = .finished run) :
    ∃ loop, (startLoop surroundings settings).drive (settings.schedule surroundings.timer)
      (workOf surroundings settings) rounds = some loop ∧ loop.run = run := by
  unfold simulate at h
  dsimp only at h
  split at h
  · cases h
  · split at h
    · cases h
    · split at h
      · rename_i loop hdrive
        cases h
        exact ⟨loop, hdrive, rfl⟩
      · cases h

/-- A loop that is driven to the end of a simulation serves it all the way. -/
theorem serves_of_drive {loop : Loop Generator Delivery Act}
    (h : (startLoop surroundings settings).drive (settings.schedule surroundings.timer)
      (workOf surroundings settings) rounds = some loop) :
    loop.Serves (settings.schedule surroundings.timer) (workOf surroundings settings)
      (startRun surroundings settings) := by
  obtain ⟨_, count, hturns⟩ := Loop.turns?_of_drive h
  exact (Loop.Serves.start _ _ _ _).turns hturns

theorem returned_of_drive {loop : Loop Generator Delivery Act}
    (h : (startLoop surroundings settings).drive (settings.schedule surroundings.timer)
      (workOf surroundings settings) rounds = some loop) :
    loop.run.phase = .returned := by
  have hover := (Loop.turns?_of_drive h).1
  have haborted := not_aborted_of_reachable (serves_of_drive h).punctual.reachable
  cases hphase : loop.run.phase with
  | returned => rfl
  | aborted message =>
      rw [hphase] at haborted
      cases haborted
  | _ =>
      rw [hphase] at hover
      cases hover

theorem exitCode_of_read {arguments : List Bytes} {choices : CommandLine.Choices}
    (h : CommandLine.read arguments = .ok choices) (labels : Labels) :
    (Program.run labels surroundings rounds arguments).map Program.Report.exitCode =
      match simulate (Program.listening surroundings) rounds choices.settings with
      | .refused _ => some 1
      | .misused _ => some Program.panicCode
      | .finished _ => some 0
      | .unfinished => none := by
  simp only [Program.run, h]
  cases simulate (Program.listening surroundings) rounds choices.settings <;> rfl

/-- Panics are told from the exit code. -/
theorem exitCode_eq_panicCode_iff {arguments : List Bytes} {choices : CommandLine.Choices}
    (h : CommandLine.read arguments = .ok choices) (labels : Labels) :
    (Program.run labels surroundings rounds arguments).map Program.Report.exitCode =
        some Program.panicCode ↔
      ∃ misuse, simulate (Program.listening surroundings) rounds choices.settings =
        .misused misuse := by
  rw [exitCode_of_read h]
  cases simulate (Program.listening surroundings) rounds choices.settings <;>
    simp [Program.panicCode]

/-- What is let in reaches the loop, and if it ends it returns. -/
theorem finished_or_unfinished (hfault : settings.fault? = none)
    (hfits : settings.workers ≤ Schedule.maxPermits) :
    (∃ loop, (startLoop surroundings settings).drive (settings.schedule surroundings.timer)
        (workOf surroundings settings) rounds = some loop ∧
      simulate surroundings rounds settings = .finished loop.run ∧
      loop.run.phase = .returned) ∨
    (startLoop surroundings settings).drive (settings.schedule surroundings.timer)
        (workOf surroundings settings) rounds = none ∧
      simulate surroundings rounds settings = .unfinished := by
  have hsimulate := @simulate_of_admitted surroundings rounds settings hfault hfits
  cases hdrive : (startLoop surroundings settings).drive (settings.schedule surroundings.timer)
      (workOf surroundings settings) rounds with
  | some loop =>
      rw [hdrive] at hsimulate
      exact Or.inl ⟨loop, rfl, hsimulate, returned_of_drive hdrive⟩
  | none =>
      rw [hdrive] at hsimulate
      exact Or.inr ⟨rfl, hsimulate⟩

theorem simulate_eq_refused_iff {fault : Settings.Fault} :
    simulate surroundings rounds settings = .refused fault ↔ settings.fault? = some fault := by
  cases hfault : settings.fault? with
  | some first => simp [simulate_of_fault hfault]
  | none =>
      rcases Nat.lt_or_ge Schedule.maxPermits settings.workers with hlarge | hfits
      · simp [simulate_of_too_large hfault hlarge]
      · obtain ⟨_, _, hfinished, _⟩ | ⟨_, hunfinished⟩ :=
          @finished_or_unfinished surroundings rounds settings hfault hfits
        · simp [hfinished]
        · simp [hunfinished]

theorem simulate_eq_misused_iff {misuse : Schedule.Misuse} :
    simulate surroundings rounds settings = .misused misuse ↔
      settings.fault? = none ∧ Schedule.maxPermits < settings.workers ∧
        misuse = .poolTooLarge := by
  cases hfault : settings.fault? with
  | some first => simp [simulate_of_fault hfault]
  | none =>
      rcases Nat.lt_or_ge Schedule.maxPermits settings.workers with hlarge | hfits
      · simp [simulate_of_too_large hfault hlarge, hlarge, eq_comm]
      · have hpool : ¬ Schedule.maxPermits < settings.workers := Nat.not_lt.mpr hfits
        obtain ⟨_, _, hfinished, _⟩ | ⟨_, hunfinished⟩ :=
          @finished_or_unfinished surroundings rounds settings hfault hfits
        · simp [hfinished, hpool]
        · simp [hunfinished, hpool]

/-- How a simulation comes out, for all settings.

It is refused exactly if its settings have a fault, and then for the first one.  It panics
exactly if they have none and there are more workers than a pool has room for, and then
before the loop is reached.  Otherwise it reaches the loop, and if it ends it returns; so the
program exits with the code of a panic for no other reason. -/
theorem simulation_panics_iff_pool_too_large (surroundings : Surroundings) (rounds : Nat)
    (settings : Settings) :
    (∀ fault, simulate surroundings rounds settings = .refused fault ↔
      settings.fault? = some fault) ∧
    (∀ misuse, simulate surroundings rounds settings = .misused misuse ↔
      settings.fault? = none ∧ Schedule.maxPermits < settings.workers ∧
        misuse = .poolTooLarge) ∧
    (settings.fault? = none → settings.workers ≤ Schedule.maxPermits →
      (∃ loop, (startLoop surroundings settings).drive (settings.schedule surroundings.timer)
          (workOf surroundings settings) rounds = some loop ∧
        simulate surroundings rounds settings = .finished loop.run ∧
        loop.run.phase = .returned) ∨
      (startLoop surroundings settings).drive (settings.schedule surroundings.timer)
          (workOf surroundings settings) rounds = none ∧
        simulate surroundings rounds settings = .unfinished) ∧
    ∀ (labels : Labels) (arguments : List Bytes) (choices : CommandLine.Choices),
      CommandLine.read arguments = .ok choices → choices.settings = settings →
        ((Program.run labels surroundings rounds arguments).map Program.Report.exitCode =
            some Program.panicCode ↔
          settings.fault? = none ∧ Schedule.maxPermits < settings.workers) := by
  refine ⟨fun fault => simulate_eq_refused_iff, fun misuse => simulate_eq_misused_iff,
    finished_or_unfinished, ?_⟩
  rintro labels arguments choices hread rfl
  rw [exitCode_eq_panicCode_iff hread]
  constructor
  · rintro ⟨misuse, hmisused⟩
    obtain ⟨hfault, hlarge, _⟩ := simulate_eq_misused_iff.mp hmisused
    exact ⟨hfault, hlarge⟩
  · rintro ⟨hfault, hlarge⟩
    exact ⟨_, simulate_of_too_large hfault hlarge⟩

/-! ## A pool that is too large -/

/-- Settings without a fault, with one worker more than a pool has room for. -/
def overcrowded : Settings :=
  { Settings.standard with workers := 2305843009213693952 }

/-- What asks for these settings. -/
def overcrowdedWords : List Bytes :=
  ["--workers", "2305843009213693952"].map CommandLine.asciiBytes

theorem read_overcrowdedWords :
    CommandLine.read overcrowdedWords =
      .ok { CommandLine.Choices.empty with workers := some 2305843009213693952 } := rfl

/-- Not all settings without a fault are let in. -/
theorem panics_when_overcrowded :
    ¬ ∀ (surroundings : Surroundings) (rounds : Nat) (settings : Settings),
      settings.fault? = none →
        ∀ misuse, simulate surroundings rounds settings ≠ .misused misuse := by
  intro hsound
  exact hsound pairSurroundings 0 overcrowded (by decide) .poolTooLarge
    (simulate_of_too_large (by decide) (by decide))

theorem exit_codes_of_overcrowded_and_pair :
    (Program.run ⟨"", fun _ => ""⟩ pairSurroundings 0 overcrowdedWords).map
        Program.Report.exitCode = some 101 ∧
      ((∃ loop, (startLoop pairSurroundings (pairSettings 2)).drive
          ((pairSettings 2).schedule pairSurroundings.timer)
          (workOf pairSurroundings (pairSettings 2)) 0 = some loop ∧
        simulate pairSurroundings 0 (pairSettings 2) = .finished loop.run ∧
        loop.run.phase = .returned) ∨
      (startLoop pairSurroundings (pairSettings 2)).drive
          ((pairSettings 2).schedule pairSurroundings.timer)
          (workOf pairSurroundings (pairSettings 2)) 0 = none ∧
        simulate pairSurroundings 0 (pairSettings 2) = .unfinished) := by
  have hovercrowded := simulation_panics_iff_pool_too_large pairSurroundings 0 overcrowded
  have hpair := simulation_panics_iff_pool_too_large pairSurroundings 0 (pairSettings 2)
  constructor
  · exact (hovercrowded.2.2.2 _ _ _ read_overcrowdedWords rfl).mpr ⟨by decide, by decide⟩
  · exact hpair.2.2.1 (by decide) (by decide)

end Simulation

end OrderFlow
