import OrderFlow.Proofs.Scheduler.Rounds

/-!
# Totals of runs that were not cancelled

What becomes of each tick settles the totals of a run whose token never fires: the period, the
size of the pool, how long the ticks last and the order of events play no part.  A tick that
fails or panics neither stops nor skips a later one.  A fair execution does return, and so does
the loop on a virtual clock.  On the way the totals never exceed the last ones, so if those fit
their words the totals fit all along.
-/

namespace OrderFlow

namespace Fate

/-- Whether the whole batch is reported as sent. -/
def completes : Fate → Bool
  | .returns (.completed _) => true
  | _ => false

/-- Whether a failure is reported. -/
def fails : Fate → Bool
  | .returns (.failed _) => true
  | _ => false

/-- Whether the work panics. -/
def isPanic : Fate → Bool
  | .panics _ => true
  | _ => false

/-- Whether the work is reported as given up. -/
def givesUp : Fate → Bool
  | .returns .cancelled => true
  | _ => false

/-- The lines that are reported as sent. -/
def sent : Fate → Nat
  | .returns (.completed sent) => sent
  | .returns (.failed sent) => sent
  | _ => 0

/-- The totals of the first `count` ticks, each with a fate of its own. -/
def totals (count : Nat) (fate : Nat → Fate) : Summary where
  ticks := count
  completed := (List.range' 1 count).countP fun tick => (fate tick).completes
  failed :=
    (List.range' 1 count).countP (fun tick => (fate tick).fails) +
      (List.range' 1 count).countP fun tick => (fate tick).isPanic
  cancelled := (List.range' 1 count).countP fun tick => (fate tick).givesUp
  ordersSent := ((List.range' 1 count).map fun tick => (fate tick).sent).sum

theorem isCompletion_ending (fate : Fate) : fate.ending.isCompletion = fate.completes := by
  rcases fate with (_ | _ | _) | _ <;> rfl

theorem isCancellation_ending (fate : Fate) : fate.ending.isCancellation = fate.givesUp := by
  rcases fate with (_ | _ | _) | _ <;> rfl

theorem sent_ending (fate : Fate) : fate.ending.sent = fate.sent := by
  rcases fate with (_ | _ | _) | _ <;> rfl

/-- A failure is either reported or a panic. -/
theorem countP_isFailure (fate : Nat → Fate) (ticks : List Nat) :
    ticks.countP (fun tick => (fate tick).ending.isFailure) =
      ticks.countP (fun tick => (fate tick).fails) +
        ticks.countP fun tick => (fate tick).isPanic := by
  induction ticks with
  | nil => rfl
  | cons tick rest ih =>
      have htick : (if (fate tick).ending.isFailure = true then 1 else 0) =
          (if (fate tick).fails = true then 1 else 0) +
            if (fate tick).isPanic = true then 1 else 0 := by
        rcases fate tick with (_ | _ | _) | _ <;> rfl
      rw [List.countP_cons, List.countP_cons, List.countP_cons, ih, htick]
      omega

theorem tally_endings (count : Nat) (fate : Nat → Fate) :
    Summary.tally count ((List.range' 1 count).map fun tick => (fate tick).ending) =
      totals count fate := by
  simp only [Summary.tally, totals, List.countP_map, List.map_map, Function.comp_def,
    isCompletion_ending, isCancellation_ending, sent_ending, countP_isFailure]

end Fate

namespace Run

/-! ## Totals on the way -/

section Growing

variable {schedule : Schedule} {chores : Nat → Chore} {trigger : Trigger} {count : Nat}
  {fate : Nat → Fate} {run : Run Unit Chore.Started Empty}

/-- No total of one summary is greater than that of another that fits. -/
theorem fits_of_le {small large : Summary} (h : large.Fits) (hticks : small.ticks ≤ large.ticks)
    (hcompleted : small.completed ≤ large.completed) (hfailed : small.failed ≤ large.failed)
    (hcancelled : small.cancelled ≤ large.cancelled)
    (hsent : small.ordersSent ≤ large.ordersSent) : small.Fits where
  ticks := Nat.lt_of_le_of_lt hticks h.ticks
  completed := Nat.lt_of_le_of_lt hcompleted h.completed
  failed := Nat.lt_of_le_of_lt hfailed h.failed
  cancelled := Nat.lt_of_le_of_lt hcancelled h.cancelled
  ordersSent := Nat.lt_of_le_of_lt hsent h.ordersSent

theorem sum_map_le_of_subperm {xs ys : List Nat} (h : xs.Subperm ys) (f : Nat → Nat) :
    (xs.map f).sum ≤ (ys.map f).sum := by
  obtain ⟨zs, hperm, hsublist⟩ := h
  rw [← (hperm.map f).sum_eq]
  exact (hsublist.map f).sum_le_sum fun _ _ => Nat.zero_le _

/-- The totals of a run of allotted ticks whose token has not fired fit their words wherever the
run stands, if the totals of all fates fit them. -/
theorem fits_of_allotment (hlimit : schedule.maxTicks = some count)
    (hallot : Chore.Allotment chores count fate)
    (h : run.Reachable schedule (Chore.work chores trigger)) (hcancelled : run.cancelled = false)
    (hfits : (Fate.totals count fate).Fits) : run.summary.Fits := by
  let recorded := (Entry.recordedIn run.entries).map Prod.fst
  have hendings : (Entry.recordedIn run.entries).map Prod.snd =
      recorded.map fun tick => (fate tick).ending := by
    rw [List.map_map]
    apply List.map_congr_left
    rintro ⟨tick, how⟩ hrecorded
    exact ending_of_ended hlimit hallot h hcancelled (h.recorded.ended _ hrecorded)
  have hticks := h.limited.within count hlimit
  have hsubperm : recorded.Subperm (List.range' 1 count) := by
    refine List.subperm_of_subset h.nodup_recorded fun tick hmem => ?_
    obtain ⟨rest, hrest⟩ := h.recorded.called
    have hcalled := hrest.mem_iff.mpr (List.mem_append_left rest hmem)
    rw [h.called, List.mem_range'_1] at hcalled
    rw [List.mem_range'_1]
    omega
  rw [h.counted, hendings]
  rw [← Fate.tally_endings] at hfits
  refine fits_of_le hfits hticks ?_ ?_ ?_ ?_
  · simpa only [Summary.tally, List.countP_map] using hsubperm.countP_le _
  · simpa only [Summary.tally, List.countP_map] using hsubperm.countP_le _
  · simpa only [Summary.tally, List.countP_map] using hsubperm.countP_le _
  · simpa only [Summary.tally, List.map_map] using sum_map_le_of_subperm hsubperm _

end Growing

/-- A run of allotted ticks that returned and whose token did not fire, on a schedule that is
possible. -/
structure CameThrough (count : Nat) (fate : Nat → Fate) (schedule : Schedule)
    (chores : Nat → Chore) (trigger : Trigger) (run : Run Unit Chore.Started Empty) : Prop where
  usable : schedule.misuse? = none
  limit : schedule.maxTicks = some count
  allotted : Chore.Allotment chores count fate
  reachable : run.Reachable schedule (Chore.work chores trigger)
  uncancelled : run.cancelled = false
  returned : run.phase = .returned

theorem CameThrough.summary_eq {count : Nat} {fate : Nat → Fate} {schedule : Schedule}
    {chores : Nat → Chore} {trigger : Trigger} {run : Run Unit Chore.Started Empty}
    (h : run.CameThrough count fate schedule chores trigger) :
    run.summary = Fate.totals count fate := by
  rw [← Fate.tally_endings count fate]
  exact summary_of_returned h.limit h.allotted h.reachable h.uncancelled h.returned

theorem workers_pos_of_usable {schedule : Schedule} (h : schedule.misuse? = none) :
    0 < schedule.workers := by
  unfold Schedule.misuse? at h
  split_ifs at h
  omega

/-- The totals of a run of allotted ticks whose token never fires are those of the fates, tick by
tick, if these fit the words in which totals are kept and the schedule is possible.  Fair
executions return, and so does the loop, within a number of rounds that only the number of ticks
decides.  No total exceeds its word on the way. -/
theorem totals_are_those_of_the_fates {count : Nat} {fate : Nat → Fate}
    (hfits : (Fate.totals count fate).Fits) :
    (∀ {schedule : Schedule} {chores : Nat → Chore} {trigger : Trigger}
        {first : Run Unit Chore.Started Empty}
        (execution : Execution schedule (Chore.work chores trigger) first),
      schedule.misuse? = none → schedule.maxTicks = some count →
      Chore.Allotment chores count fate →
      first.Reachable schedule (Chore.work chores trigger) → execution.Fair →
      (∀ i, (execution.run i).cancelled = false) →
      (∀ i, (execution.run i).summary.Fits) ∧
      ∃ i, ∀ j ≥ i,
        (execution.run j).CameThrough count fate schedule chores trigger) ∧
    (∀ {schedule : Schedule} {chores : Nat → Chore} (now : Nat),
      schedule.misuse? = none → schedule.maxTicks = some count →
      Chore.Allotment chores count fate →
      ∃ last, (Loop.start none (start schedule now false ())).drive schedule
          (Chore.work chores .never) (35 * count + 21) = some last ∧
        last.run.CameThrough count fate schedule chores .never) ∧
    (∀ {schedule : Schedule} {chores : Nat → Chore} {trigger : Trigger}
        {run : Run Unit Chore.Started Empty},
      schedule.maxTicks = some count → Chore.Allotment chores count fate →
      run.Reachable schedule (Chore.work chores trigger) → run.cancelled = false →
      run.summary.Fits) ∧
    (∀ {schedule : Schedule} {chores : Nat → Chore} {trigger : Trigger}
        {run : Run Unit Chore.Started Empty},
      run.CameThrough count fate schedule chores trigger →
      run.summary = Fate.totals count fate ∧
        Entry.calledIn run.entries = List.range' 1 count ∧
        ∀ tick, 1 ≤ tick → tick ≤ count →
          (tick, (fate tick).ending) ∈ Entry.recordedIn run.entries) ∧
    (∀ {schedule schedule' : Schedule} {chores chores' : Nat → Chore}
        {trigger trigger' : Trigger} {run run' : Run Unit Chore.Started Empty},
      run.CameThrough count fate schedule chores trigger →
      run'.CameThrough count fate schedule' chores' trigger' →
      run.summary = run'.summary) := by
  refine ⟨?_, ?_, fun hlimit hallot h hcancelled =>
    fits_of_allotment hlimit hallot h hcancelled hfits, ?_, ?_⟩
  · intro schedule chores trigger first execution husable hlimit hallot hfirst hfair hcancelled
    obtain ⟨i, -, hreturned⟩ := Execution.exists_returned hlimit hallot hfirst hcancelled
      (workers_pos_of_usable husable) hfair 0
    refine ⟨fun j => fits_of_allotment hlimit hallot (execution.reachable hfirst j)
      (hcancelled j) hfits, i, fun j hj =>
      ⟨husable, hlimit, hallot, execution.reachable hfirst j, hcancelled j, ?_⟩⟩
    -- A run that has returned stays so.
    have hleads := execution.leads_of_le hj
    rw [(execution.reachable hfirst i).after_return hreturned hleads]
    exact hreturned
  · intro schedule chores now husable hlimit hallot
    obtain ⟨last, hdrive, hreachable, huncancelled, hreturned⟩ :=
      Loop.exists_returned_drive hlimit hallot (workers_pos_of_usable husable) now
    exact ⟨last, hdrive, husable, hlimit, hallot, hreachable, huncancelled, hreturned⟩
  · intro schedule chores trigger run h
    refine ⟨h.summary_eq, ?_, fun tick hfirst hlast => ?_⟩
    · rw [h.reachable.called,
        h.reachable.ticks_of_returned h.limit h.uncancelled h.returned]
    · exact mem_recorded_of_allotment h.limit h.allotted h.reachable h.uncancelled h.returned
        ⟨hfirst, hlast⟩
  · intro schedule schedule' chores chores' trigger trigger' run run' h h'
    rw [h.summary_eq, h'.summary_eq]

/-! ### Four fates, twice -/

/-- One tick completes, one panics, one fails and one gives up. -/
def fourFates : Nat → Fate
  | 1 => .returns (.completed 5)
  | 2 => .panics "no engine"
  | 3 => .returns (.failed 2)
  | _ => .returns .cancelled

/-- Ticks with these fates, each of which lasts for so long. -/
def fourChores (nanos : Nat → Nat) (tick : Nat) : Chore :=
  .lasting (some (nanos tick)) (fourFates tick)

theorem allotment_fourChores (nanos : Nat → Nat) :
    Chore.Allotment (fourChores nanos) 4 fourFates :=
  fun tick _ _ => ⟨nanos tick, rfl⟩

/-- The run that actions lead to when ticks with these fates are scheduled. -/
def fourRun (schedule : Schedule) (nanos : Nat → Nat) (actions : List Action) :
    Run Unit Chore.Started Empty :=
  ((start schedule 0 false ()).steps? schedule (Chore.work (fourChores nanos) .never)
    actions).getD (start schedule 0 false ())

/-- One worker, and ticks that are done at once. -/
def lonelySchedule : Schedule := ⟨⟨10⟩, 1, some 4, .ideal⟩

/-- The ticks come one after the other. -/
def lonelyActions : List Action :=
  firing 0 ++ [.poll 1, .collect 0, .ticker] ++ firing 10 ++ [.poll 2, .collect 0, .ticker] ++
    firing 20 ++ [.poll 3, .collect 0, .ticker] ++ firing 30 ++ [.poll 4, .collect 0, .ticker,
      .ticker, .ticker]

/-- Three workers, and a firing every nanosecond. -/
def hastySchedule : Schedule := ⟨⟨1⟩, 3, some 4, .ideal⟩

/-- How long the ticks last. -/
def hastyNanos : Nat → Nat
  | 1 => 50
  | 2 => 1
  | 3 => 7
  | _ => 0

/-- The first tick is the last one to end. -/
def hastyActions : List Action :=
  firing 0 ++ [.ticker] ++ firing 1 ++ [.ticker] ++ firing 2 ++ [.poll 2, .collect 0, .ticker] ++
    firing 3 ++ [.poll 4, .wait 60, .poll 3, .poll 1, .collect 1, .collect 0, .collect 0,
      .ticker, .ticker, .ticker]

theorem steps?_lonelyActions :
    (start lonelySchedule 0 false ()).steps? lonelySchedule
      (Chore.work (fourChores fun _ => 0) .never) lonelyActions =
      some (fourRun lonelySchedule (fun _ => 0) lonelyActions) := rfl

theorem totals_of_four_fates :
    Entry.recordedIn (fourRun lonelySchedule (fun _ => 0) lonelyActions).entries ≠
      Entry.recordedIn (fourRun hastySchedule hastyNanos hastyActions).entries ∧
    (fourRun lonelySchedule (fun _ => 0) lonelyActions).summary =
      (fourRun hastySchedule hastyNanos hastyActions).summary ∧
    (fourRun lonelySchedule (fun _ => 0) lonelyActions).summary = Fate.totals 4 fourFates ∧
    Fate.totals 4 fourFates = ⟨4, 1, 2, 1, 7⟩ ∧
    (∃ i, ∀ j ≥ i, ((Execution.ofSteps steps?_lonelyActions).run j).CameThrough 4 fourFates
      lonelySchedule (fourChores fun _ => 0) .never) ∧
    ∃ last, (Loop.start none (start hastySchedule 0 false ())).drive hastySchedule
        (Chore.work (fourChores hastyNanos) .never) 161 = some last ∧
      last.run.summary = ⟨4, 1, 2, 1, 7⟩ := by
  have hlonely : (fourRun lonelySchedule (fun _ => 0) lonelyActions).CameThrough 4 fourFates
      lonelySchedule (fourChores fun _ => 0) .never :=
    ⟨rfl, rfl, allotment_fourChores _, ⟨0, false, (), lonelyActions, steps?_lonelyActions⟩, rfl,
      rfl⟩
  have hhasty : (fourRun hastySchedule hastyNanos hastyActions).CameThrough 4 fourFates
      hastySchedule (fourChores hastyNanos) .never :=
    ⟨rfl, rfl, allotment_fourChores _, ⟨0, false, (), hastyActions, rfl⟩, rfl, rfl⟩
  have hfits : (Fate.totals 4 fourFates).Fits :=
    ⟨by decide, by decide, by decide, by decide, by decide⟩
  have hall := totals_are_those_of_the_fates hfits
  refine ⟨by decide +kernel, hall.2.2.2.2 hlonely hhasty, (hall.2.2.2.1 hlonely).1, rfl, ?_, ?_⟩
  · exact (hall.1 (Execution.ofSteps steps?_lonelyActions) rfl rfl (allotment_fourChores _)
      ⟨0, false, (), [], rfl⟩
      (Execution.fair_ofSteps steps?_lonelyActions hlonely.reachable hlonely.returned)
      (Execution.uncancelled_ofSteps steps?_lonelyActions hlonely.uncancelled)).2
  · have husable : hastySchedule.misuse? = none := rfl
    obtain ⟨last, hdrive, hlast⟩ := hall.2.1 0 husable rfl (allotment_fourChores hastyNanos)
    exact ⟨last, hdrive, (hall.2.2.2.1 hlast).1⟩

/-! ### Totals out of reach -/

/-- Batches as large as a word can tell. -/
def hugeFates (_ : Nat) : Fate :=
  .returns (.completed 18446744073709551615)

/-- Ticks that send such batches at once. -/
def hugeChores (tick : Nat) : Chore :=
  .lasting (some 0) (hugeFates tick)

/-- A schedule of two ticks. -/
def hugeSchedule : Schedule := ⟨⟨10⟩, 1, some 2, .ideal⟩

/-- One such tick after the other. -/
def hugeActions : List Action :=
  firing 0 ++ [.poll 1, .collect 0, .ticker] ++ firing 10 ++
    [.poll 2, .collect 0, .ticker, .ticker, .ticker]

/-- The run of two such ticks. -/
def hugeRun : Run Unit Chore.Started Empty :=
  ((start hugeSchedule 0 false ()).steps? hugeSchedule (Chore.work hugeChores .never)
    hugeActions).getD (start hugeSchedule 0 false ())

/-- A pool of one worker more than the greatest does not come about, and with batches that large
two completed ticks have sent more than the total can hold. -/
theorem totals_out_of_reach :
    (⟨⟨1000000⟩, 2305843009213693952, some 1, .milliseconds⟩ : Schedule).misuse? =
        some .poolTooLarge ∧
      hugeRun.CameThrough 2 hugeFates hugeSchedule hugeChores .never ∧
      hugeRun.summary.ordersSent = 36893488147419103230 ∧ ¬ hugeRun.summary.Fits := by
  have hsent : hugeRun.summary.ordersSent = 36893488147419103230 := by decide +kernel
  have hallot : Chore.Allotment hugeChores 2 hugeFates := fun _ _ _ => ⟨0, rfl⟩
  refine ⟨by decide, ⟨rfl, rfl, hallot, ⟨0, false, (), hugeActions, rfl⟩, rfl, rfl⟩, hsent, ?_⟩
  intro hfits
  have hword := hfits.ordersSent
  rw [hsent] at hword
  exact absurd hword (by decide)

end Run

end OrderFlow
