import OrderFlow.Proofs.Scheduler.Effort

/-!
# Rounds that suffice

When a loop on a virtual clock is idle the clock moves to an instant at which an alarm goes off or
the timer fires.  So every turn lowers the effort that is left or ends the run, and a loop that
serves allotted ticks returns within a number of rounds that their number alone decides.
-/

namespace OrderFlow.Loop

variable {schedule : Schedule} {chores : Nat → Chore} {count : Nat} {fate : Nat → Fate}
  {loop : Loop Unit Chore.Started Empty} {first next : Run Unit Chore.Started Empty}

/-! ### The clock -/

/-- As the clock moves on the alarms that are due become jobs. -/
theorem moveTo_eq {σ τ ε : Type} {work : Work σ τ ε} {loop : Loop σ τ ε} {next : Run σ τ ε}
    {instant : Nat} (hcancelled : loop.run.cancelled = false)
    (hstep : loop.run.step? schedule work (.wait instant) = some next) :
    loop.moveTo schedule work instant =
      { loop with
        run := next
        queue := loop.queue ++ (loop.liveAlarms.filter (·.1 ≤ instant)).map Prod.snd
        alarms := loop.liveAlarms.filter (instant < ·.1) } ∧
      loop.run.Lingers next ∧ next.now = instant ∧ next.cancelled = false := by
  have hlater : loop.run.now ≤ instant := by
    by_contra hlater
    simp [Run.step?, hlater] at hstep
  obtain rfl : { loop.run with now := instant } = next := by
    simpa [Run.step?, hlater] using hstep
  refine ⟨?_, ⟨rfl, rfl, rfl, rfl, rfl, rfl, rfl, hlater⟩, rfl, hcancelled⟩
  unfold moveTo
  dsimp only
  rw [act_of_step (show ({ loop with alarms := loop.liveAlarms } : Loop σ τ ε).run.step? _ _ _ = _
    from hstep) hcancelled]
  simp [newJobs]

theorem le_of_nextInstant? {σ τ ε : Type} {loop : Loop σ τ ε} {instant : Nat}
    (h : loop.nextInstant? schedule = some instant) :
    loop.run.now ≤ instant ∧
      ((loop.run.phase = .awaitingTimer ∧
          schedule.dueAt loop.run.origin loop.run.fired ≤ instant) ∨
        ∃ alarm ∈ loop.liveAlarms, alarm.1 ≤ instant) := by
  unfold nextInstant? at h
  dsimp only at h
  obtain ⟨other, hother, rfl⟩ := List.mem_map.mp (List.min?_eq_some_iff.mp h).1
  refine ⟨Nat.le_max_left _ _, ?_⟩
  rcases List.mem_append.mp hother with hfiring | halarm
  · split_ifs at hfiring with hphase
    · obtain rfl := List.mem_singleton.mp hfiring
      exact Or.inl ⟨hphase, Nat.le_max_right _ _⟩
    · cases hfiring
  · obtain ⟨alarm, hlive, rfl⟩ := List.mem_map.mp halarm
    exact Or.inr ⟨alarm, hlive, Nat.le_max_right _ _⟩

/-- An alarm for a tick in flight is live. -/
theorem mem_liveAlarms {instant tick : Nat} {started : Chore.Started}
    (halarm : (instant, .tick tick) ∈ loop.alarms) (hmem : (tick, started) ∈ loop.run.running) :
    (instant, .tick tick) ∈ loop.liveAlarms := by
  refine List.mem_filter.mpr ⟨halarm, ?_⟩
  cases hlookup : loop.run.running.lookup tick with
  | some found => simp [isLive, hlookup]
  | none =>
      have hother := List.lookup_eq_none_iff.mp hlookup _ hmem
      simp at hother

/-- A tick whose alarm goes off is done, so its job counts for no more than one. -/
theorem Tended.weight_of_due (h : Tended none loop) (hrunning : next.running = loop.run.running)
    {alarm : Nat × Job} (halarm : alarm ∈ loop.alarms) (hdue : alarm.1 ≤ next.now) :
    alarm.2.weight next ≤ 1 := by
  obtain ⟨due, job⟩ := alarm
  cases job with
  | token => exact Nat.le_refl 1
  | tick number =>
      unfold Job.weight
      dsimp only
      split_ifs with hpending
      · obtain ⟨⟨tick, started⟩, hmem, hlate⟩ := List.any_eq_true.mp hpending
        simp only [Bool.and_eq_true, beq_iff_eq, Option.any_eq_true, decide_eq_true_eq] at hlate
        obtain ⟨rfl, other, hdone, hlate⟩ := hlate
        rw [hrunning] at hmem
        rw [(h.alarmed halarm).2 started hmem] at hdone
        obtain rfl := Option.some.inj hdone
        exact absurd hdue (Nat.not_le.mpr hlate)
      · exact Nat.le_refl 1

theorem length_due_add_later (alarms : List (Nat × Job)) (instant : Nat) :
    (alarms.filter (·.1 ≤ instant)).length + (alarms.filter (instant < ·.1)).length =
      alarms.length := by
  have hnot : (fun alarm : Nat × Job => decide (instant < alarm.1)) =
      fun alarm => !decide (alarm.1 ≤ instant) := by
    funext alarm
    rw [← decide_not]
    exact decide_eq_decide.mpr Nat.not_le.symm
  rw [hnot, ← List.length_append]
  exact (List.filter_append_perm _ alarms).length_eq

theorem Tended.moveTo {instant : Nat} (h : Tended none loop) (hqueue : loop.queue = [])
    (hstep : loop.run.step? schedule (Chore.work chores .never) (.wait instant) = some next) :
    Tended none (loop.moveTo schedule (Chore.work chores .never) instant) := by
  have hsub : ∀ alarm ∈ loop.liveAlarms, alarm ∈ loop.alarms :=
    fun alarm => List.mem_of_mem_filter
  obtain ⟨heq, hlingers, -, hcancelled⟩ := moveTo_eq h.uncancelled hstep
  rw [heq]
  refine ⟨h.untimed, hcancelled, fun hjob => ?_, fun halarm => ?_, fun hmem => ?_⟩
  · dsimp only at hjob ⊢
    rw [hqueue, List.nil_append] at hjob
    obtain ⟨⟨other, job⟩, halarm, hsame⟩ := List.mem_map.mp hjob
    obtain rfl : job = _ := hsame
    rw [hlingers.ticks]
    exact (h.alarmed (hsub _ (List.mem_of_mem_filter halarm))).1
  · dsimp only
    rw [hlingers.ticks, hlingers.running]
    exact h.alarmed (hsub _ (List.mem_of_mem_filter halarm))
  · dsimp only at hmem
    rw [hlingers.running] at hmem
    rcases h.tended hmem with hexempt | hjob | ⟨other, halarm⟩
    · cases hexempt
    · rw [hqueue] at hjob
      cases hjob
    · have hlive := mem_liveAlarms halarm hmem
      refine Or.inr ?_
      rcases Nat.lt_or_ge instant other with hlt | hle
      · exact Or.inr ⟨other, List.mem_filter.mpr ⟨hlive, by simpa using hlt⟩⟩
      · refine Or.inl (List.mem_append_right _ (List.mem_map.mpr ⟨(other, .tick _), ?_, rfl⟩))
        exact List.mem_filter.mpr ⟨hlive, by simpa using hle⟩

/-- The clock moves to an instant at which an alarm goes off or the timer fires, and this lowers
the effort. -/
theorem Tended.effort_moveTo_lt {instant : Nat} (h : Tended none loop)
    (hqueue : loop.queue = []) (hinstant : loop.nextInstant? schedule = some instant)
    (hlate : loop.run.phase = .awaitingTimer →
      loop.run.now < schedule.dueAt loop.run.origin loop.run.fired)
    (hstep : loop.run.step? schedule (Chore.work chores .never) (.wait instant) = some next) :
    effort schedule count (loop.moveTo schedule (Chore.work chores .never) instant) <
      effort schedule count loop := by
  obtain ⟨heq, hlingers, hnow, -⟩ := moveTo_eq h.uncancelled hstep
  have hrank := hlingers.rank_eq count
  have hwait := hlingers.timerWait_le schedule
  have hweight : (((loop.liveAlarms.filter (·.1 ≤ instant)).map Prod.snd).map
      (Job.weight next)).sum ≤ (loop.liveAlarms.filter (·.1 ≤ instant)).length := by
    rw [List.map_map]
    refine Nat.le_trans (List.sum_le_sum (g := fun _ => 1) fun alarm halarm => ?_) (by simp)
    obtain ⟨hlive, hdue⟩ := List.mem_filter.mp halarm
    refine h.weight_of_due hlingers.running (List.mem_of_mem_filter hlive) ?_
    rw [hnow]
    simpa using hdue
  have hsplit := length_due_add_later loop.liveAlarms instant
  have hlive : loop.liveAlarms.length ≤ loop.alarms.length := List.length_filter_le ..
  rw [heq]
  simp only [effort, queueWeight, hqueue, List.nil_append, List.map_nil, List.sum_nil]
  rcases (le_of_nextInstant? hinstant).2 with ⟨hphase, hdue⟩ | ⟨alarm, halarm, hdue⟩
  · have hbefore : loop.run.timerWait schedule = 1 := if_pos ⟨hphase, hlate hphase⟩
    have hafter : next.timerWait schedule = 0 := by
      refine if_neg fun hwaits => Nat.not_lt.mpr hdue ?_
      rw [← hnow, ← hlingers.origin, ← hlingers.fired]
      exact hwaits.2
    omega
  · have hsome : 0 < (loop.liveAlarms.filter (·.1 ≤ instant)).length :=
      List.length_pos_of_mem (List.mem_filter.mpr ⟨halarm, by simpa using hdue⟩)
    omega

/-! ### Turns -/

theorem tickerTurnFor_of_cannot {σ τ ε : Type} {work : Work σ τ ε} {loop : Loop σ τ ε}
    {fuel : Nat} (hcannot : ¬ loop.tickerCanStep schedule = true) :
    tickerTurnFor schedule work fuel loop = loop := by
  cases fuel with
  | zero => rfl
  | succ fuel => exact if_neg hcannot

theorem runJobs_of_queue_nil {σ τ ε : Type} {work : Work σ τ ε} {loop : Loop σ τ ε}
    (hqueue : loop.queue = []) (jobs : Nat) : loop.runJobs schedule work jobs = loop := by
  cases jobs with
  | zero => rfl
  | succ jobs =>
      unfold runJobs
      rw [hqueue]

/-- An idle loop stays as it is in a round that does not end its run. -/
theorem Serves.isIdle_round {σ τ ε : Type} {work : Work σ τ ε} {first : Run σ τ ε}
    {loop : Loop σ τ ε} (h : Serves schedule work first loop) (hallowance : 0 < loop.allowance)
    (hidle : loop.isIdle schedule = true)
    (hover : (loop.round schedule work).run.phase.isOver = false) :
    (loop.round schedule work).isIdle schedule = true := by
  simp only [isIdle, Bool.and_eq_true, List.isEmpty_iff, Bool.not_eq_true'] at hidle ⊢
  obtain ⟨hqueue, hcannot⟩ := hidle
  have hticker : loop.tickerTurn schedule work = loop :=
    tickerTurnFor_of_cannot (Bool.eq_false_iff.mp hcannot)
  have hjobs : loop.runJobs schedule work jobsPerRound = loop :=
    runJobs_of_queue_nil hqueue jobsPerRound
  have hround : loop.round schedule work = loop.refresh loop.isHeldUp := by
    unfold Loop.round at hover ⊢
    rw [hticker] at hover ⊢
    dsimp only at hover ⊢
    split at hover
    · rename_i hended
      rw [hended] at hover
      cases hover
    · rename_i hended
      rw [if_neg hended, hjobs]
  have hrests := h.tickerRests hallowance hcannot
  rw [hround]
  refine ⟨hqueue, Bool.eq_false_iff.mpr fun hcan => ?_⟩
  obtain ⟨action, next, -, -, htickers, hstep, -⟩ := (h.refresh loop.isHeldUp).tickerStep_eq hcan
  exact absurd ((hrests action htickers).symm.trans hstep) (by simp)

/-- Before the run is over an idle loop waits for the timer or for an alarm. -/
theorem exists_nextInstant (hworkers : 0 < schedule.workers)
    (hserves : Serves schedule (Chore.work chores .never) first loop)
    (h : Tended none loop) (hrests : loop.run.TickerRests schedule (Chore.work chores .never))
    (hqueue : loop.queue = []) (hover : loop.run.phase.isOver = false) :
    ∃ instant, loop.nextInstant? schedule = some instant := by
  rw [← Option.ne_none_iff_exists']
  intro hnone
  unfold nextInstant? at hnone
  simp only [List.min?_eq_none_iff, List.map_eq_nil_iff, List.append_eq_nil_iff] at hnone
  obtain ⟨hfiring, halarms⟩ := hnone
  rcases hrests.awaits hserves.punctual.reachable hworkers hover with ⟨hphase, -⟩ | hrunning
  · rw [if_pos hphase] at hfiring
    cases hfiring
  · obtain ⟨⟨tick, started⟩, others, hhead⟩ := List.exists_cons_of_ne_nil hrunning
    have hmem : (tick, started) ∈ loop.run.running := by
      rw [hhead]
      exact List.mem_cons_self
    rcases h.tended hmem with hexempt | hjob | ⟨instant, halarm⟩
    · cases hexempt
    · rw [hqueue] at hjob
      cases hjob
    · have hlive := mem_liveAlarms halarm hmem
      rw [halarms] at hlive
      cases hlive

section Allotted

variable (hlimit : schedule.maxTicks = some count) (hallot : Chore.Allotment chores count fate)

include hlimit hallot

/-- A round keeps looking after all ticks, and unless it ends the run it lowers the effort if
there is anything to do at its beginning. -/
theorem round_tended (hserves : Serves schedule (Chore.work chores .never) first loop)
    (h : Tended none loop) :
    Tended none (loop.round schedule (Chore.work chores .never)) ∧
      effort schedule count (loop.round schedule (Chore.work chores .never)) ≤
        effort schedule count loop ∧
      ((loop.round schedule (Chore.work chores .never)).run.phase.isOver = false →
        loop.isIdle schedule = false →
        effort schedule count (loop.round schedule (Chore.work chores .never)) <
          effort schedule count loop) := by
  obtain ⟨hticked, hticker, htickerLess⟩ :=
    tickerTurnFor_tended hlimit hallot loop.tickerLoad hserves h
  obtain ⟨hworked, hjobs, hjobsLess⟩ :=
    runJobs_tended hlimit hallot jobsPerRound (hserves.tickerTurnFor loop.tickerLoad) hticked
  unfold Loop.round tickerTurn
  dsimp only
  split
  · rename_i hended
    exact ⟨hticked, hticker, fun hover => absurd (hended.symm.trans hover) (by decide)⟩
  · refine ⟨hworked.reready _ _, Nat.le_trans hjobs hticker, fun _ hbusy => ?_⟩
    by_cases hcan : loop.tickerCanStep schedule = true
    · exact Nat.lt_of_le_of_lt hjobs (htickerLess (Nat.add_pos_left (by omega) _) hcan)
    · have hsame : tickerTurnFor schedule (Chore.work chores .never) loop.tickerLoad loop = loop :=
        tickerTurnFor_of_cannot hcan
      have hqueue : loop.queue ≠ [] := by
        intro hqueue
        simp [isIdle, hqueue, hcan] at hbusy
      exact Nat.lt_of_lt_of_le (hjobsLess (by decide) (by rwa [hsame])) hticker

variable (hworkers : 0 < schedule.workers)

include hworkers

/-- A turn keeps looking after all ticks, and it ends the run or lowers the effort. -/
theorem turn_tended (hserves : Serves schedule (Chore.work chores .never) first loop)
    (h : Tended none loop) (hallowance : 0 < loop.allowance) :
    ∃ last, loop.turn? schedule (Chore.work chores .never) = some last ∧ Tended none last ∧
      (last.run.phase.isOver = true ∨
        (0 < last.allowance ∧ effort schedule count last < effort schedule count loop)) := by
  obtain ⟨htended, hle, hless⟩ := round_tended hlimit hallot hserves h
  unfold Loop.turn?
  dsimp only
  cases hover : (loop.round schedule (Chore.work chores .never)).run.phase.isOver with
  | true => exact ⟨_, if_pos rfl, htended, Or.inl hover⟩
  | false =>
      have hpositive := allowance_round_pos hover
      cases hidle : (loop.round schedule (Chore.work chores .never)).isIdle schedule with
      | false =>
          refine ⟨_, if_pos rfl, htended, Or.inr ⟨hpositive, hless hover ?_⟩⟩
          by_contra hwasIdle
          rw [hserves.isIdle_round hallowance (by simpa using hwasIdle) hover] at hidle
          cases hidle
      | true =>
          have hrests := hserves.rests_after_round hover hidle
          have hqueue : (loop.round schedule (Chore.work chores .never)).queue = [] := by
            simp only [isIdle, Bool.and_eq_true, List.isEmpty_iff] at hidle
            exact hidle.1
          obtain ⟨instant, hinstant⟩ :=
            exists_nextInstant hworkers hserves.round htended hrests hqueue hover
          have hstep : (loop.round schedule (Chore.work chores .never)).run.step? schedule
              (Chore.work chores .never) (.wait instant) = some
                { (loop.round schedule (Chore.work chores .never)).run with now := instant } :=
            if_pos (le_of_nextInstant? hinstant).1
          refine ⟨(loop.round schedule (Chore.work chores .never)).moveTo schedule
            (Chore.work chores .never) instant, ?_, htended.moveTo hqueue hstep, Or.inr ⟨?_, ?_⟩⟩
          · rw [hinstant]
            rfl
          · rw [(moveTo_eq htended.uncancelled hstep).1]
            exact hpositive
          · refine Nat.lt_of_lt_of_le (htended.effort_moveTo_lt hqueue hinstant ?_ hstep) hle
            intro hphase
            rcases hrests.phase_cases with ⟨-, hlate⟩ | ⟨hother, -⟩ | hother | hother
            · exact hlate
            · rw [hphase] at hother
              cases hother
            · rw [hphase] at hother
              cases hother
            · rw [hover] at hother
              cases hother

/-- More rounds than the effort that is left are enough for the run to be over. -/
theorem exists_drive {rounds : Nat}
    (hserves : Serves schedule (Chore.work chores .never) first loop)
    (h : Tended none loop) (hallowance : 0 < loop.allowance)
    (hrounds : effort schedule count loop < rounds) :
    ∃ last, loop.drive schedule (Chore.work chores .never) rounds = some last ∧
      Tended none last := by
  induction rounds generalizing loop with
  | zero => exact absurd hrounds (Nat.not_lt_zero _)
  | succ rounds ih =>
      unfold Loop.drive
      cases hover : loop.run.phase.isOver with
      | true => exact ⟨loop, if_pos rfl, h⟩
      | false =>
          obtain ⟨middle, hturn, htended, hended | ⟨hpositive, hless⟩⟩ :=
            turn_tended hlimit hallot hworkers hserves h hallowance
          · rw [if_neg Bool.false_ne_true, hturn]
            refine ⟨middle, ?_, htended⟩
            cases rounds with
            | zero => exact if_pos hended
            | succ rounds => exact if_pos hended
          · rw [if_neg Bool.false_ne_true, hturn]
            exact ih (hserves.turn hturn) htended hpositive (by omega)

/-- The rounds within which a loop that begins to serve allotted ticks returns. -/
theorem exists_returned_drive (now : Nat) :
    ∃ last, (start none (Run.start schedule now false ())).drive schedule
        (Chore.work chores .never) (35 * count + 21) = some last ∧
      last.run.Reachable schedule (Chore.work chores .never) ∧
      last.run.cancelled = false ∧ last.run.phase = .returned := by
  have hserves : Serves schedule (Chore.work chores .never) (Run.start schedule now false ())
      (start none (Run.start schedule now false ())) := .start none now false ()
  have htended : Tended none
      (start none (Run.start schedule now false () : Run Unit Chore.Started Empty)) :=
    ⟨rfl, rfl, fun hjob => absurd hjob List.not_mem_nil,
      fun halarm => absurd halarm List.not_mem_nil, fun hmem => absurd hmem List.not_mem_nil⟩
  have heffort : effort schedule count
      (start none (Run.start schedule now false () : Run Unit Chore.Started Empty)) =
        35 * count + 20 := by
    simp [effort, queueWeight, start, Run.start, Run.rank, Run.timerWait, Phase.rank,
      Summary.zero]
    omega
  obtain ⟨last, hdrive, hlast⟩ :=
    exists_drive hlimit hallot hworkers hserves htended (Nat.zero_lt_succ _)
      (Nat.lt_of_le_of_lt (Nat.le_of_eq heffort) (Nat.lt_succ_self _))
  obtain ⟨hover, turns, hturns⟩ := turns?_of_drive hdrive
  have hreachable := (hserves.turns hturns).punctual.reachable
  exact ⟨last, hdrive, hreachable, hlast.uncancelled,
    Phase.eq_returned_of_isOver hover (Run.not_aborted_of_allotment hlimit hallot hreachable)⟩

end Allotted

end OrderFlow.Loop
