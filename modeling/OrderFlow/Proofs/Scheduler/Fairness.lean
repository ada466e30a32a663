import OrderFlow.Proofs.Scheduler.Allotment
import OrderFlow.Proofs.Scheduler.Cancellation
import OrderFlow.Proofs.Scheduler.Punctuality
import OrderFlow.Proofs.Scheduler.Rows

/-!
# Fair executions

An execution goes on for ever: once its run has returned, time still passes.  It is fair if the
ticker is not kept from moving for ever, no tick that can get further is left unpolled for
ever, and time passes beyond every instant.  Nothing else is asked of the order of events.  A
rank that every action lowers, but for those in which nothing comes of it, shows that a fair
execution of allotted ticks returns.
-/

namespace OrderFlow

namespace Run

variable {σ τ ε : Type}

/-- A tick is in flight and a poll can get it further. -/
def PollDue (work : Work σ τ ε) (run : Run σ τ ε) (tick : Nat) : Prop :=
  ∃ state instant, run.running.lookup tick = some state ∧
    work.wakesAt? run.now state = some instant ∧ instant ≤ run.now

/-- A ticker that rests before the end of its run awaits the timer or a tick in flight. -/
theorem TickerRests.awaits {schedule : Schedule} {work : Work σ τ ε} {run : Run σ τ ε}
    (h : run.TickerRests schedule work) (hreachable : run.Reachable schedule work)
    (hworkers : 0 < schedule.workers) (hover : run.phase.isOver = false) :
    (run.phase = .awaitingTimer ∧ run.now < schedule.dueAt run.origin run.fired) ∨
      run.running ≠ [] := by
  rcases h.phase_cases with htimer | ⟨hphase, hfree⟩ | hphase | hended
  · exact Or.inl htimer
  · have hpooled := hreachable.pooled
    rw [hphase, hfree] at hpooled
    simp only [Phase.permitsHeld, Nat.zero_add] at hpooled
    exact Or.inr (List.ne_nil_of_length_pos (by omega))
  · refine Or.inr fun hrunning => ?_
    by_cases hfinished : run.finished = []
    · have hready := h.not_ready
      simp [tickerReady, hphase, hfinished, hrunning] at hready
    · have hcollect := h (.collect 0) rfl
      obtain ⟨record, rest, hrecord⟩ := List.exists_cons_of_ne_nil hfinished
      simp [step?, collect?, hphase, hrecord] at hcollect
  · rw [hover] at hended
    cases hended

end Run

/-- A run and all its future. -/
structure Execution {σ τ ε : Type} (schedule : Schedule) (work : Work σ τ ε)
    (first : Run σ τ ε) where
  run : Nat → Run σ τ ε
  action : Nat → Action
  begins : run 0 = first
  step : ∀ i, (run i).step? schedule work (action i) = some (run (i + 1))

namespace Execution

variable {σ τ ε : Type} {schedule : Schedule} {work : Work σ τ ε} {first : Run σ τ ε}

/-- Nobody is kept waiting for ever. -/
structure Fair (execution : Execution schedule work first) : Prop where
  /-- Again and again the ticker moves or has nothing to do. -/
  ticker : ∀ i, ∃ j ≥ i, (execution.action j).isTickers = true ∨
    (execution.run j).TickerRests schedule work
  /-- Again and again a tick is polled or a poll would not get it further. -/
  polls : ∀ tick i, ∃ j ≥ i, execution.action j = .poll tick ∨
    ¬ (execution.run j).PollDue work tick
  /-- Time passes beyond every instant. -/
  clock : ∀ instant, ∃ i, instant ≤ (execution.run i).now

variable (execution : Execution schedule work first)

theorem leads_of_le {i j : Nat} (h : i ≤ j) :
    (execution.run i).Leads schedule work (execution.run j) := by
  induction j, h using Nat.le_induction with
  | base => exact .refl _
  | succ j _ ih => exact ih.step (execution.step j)

theorem reachable (hfirst : first.Reachable schedule work) (i : Nat) :
    (execution.run i).Reachable schedule work := by
  obtain ⟨actions, hactions⟩ := execution.leads_of_le (Nat.zero_le i)
  rw [execution.begins] at hactions
  exact hfirst.of_steps hactions

theorem now_mono {i j : Nat} (h : i ≤ j) : (execution.run i).now ≤ (execution.run j).now := by
  induction j, h using Nat.le_induction with
  | base => exact Nat.le_refl _
  | succ j _ ih =>
      exact Nat.le_trans ih (Run.transition_of_step (execution.step j)).now_le

theorem uncancelled_of_le {i j : Nat} (h : i ≤ j) :
    (execution.run j).cancelled = false → (execution.run i).cancelled = false := by
  induction j, h using Nat.le_induction with
  | base => exact id
  | succ j _ ih =>
      intro hcancelled
      exact ih ((Run.transition_of_step (execution.step j)).uncancelled hcancelled)

/-! ### Runs that returned -/

section Waiting

variable (schedule work first) (actions : List Action)

/-- The run after so many of some actions, and in the time after the last one. -/
def runAfter : Nat → Run σ τ ε
  | 0 => first
  | i + 1 => (runAfter i).perform schedule work
      (actions[i]?.getD (.wait ((runAfter i).now + 1)))

/-- The actions one after the other, and after the last one that time passes. -/
def actionAt (i : Nat) : Action :=
  actions[i]?.getD (.wait ((runAfter schedule work first actions i).now + 1))

variable {schedule work first actions} {last : Run σ τ ε}
  (h : first.steps? schedule work actions = some last)

include h

theorem steps?_take {i : Nat} (hi : i ≤ actions.length) :
    first.steps? schedule work (actions.take i) =
      some (runAfter schedule work first actions i) := by
  induction i with
  | zero => rfl
  | succ i ih =>
      have hsplit : actions.take i ++ actions[i] :: actions.drop (i + 1) = actions := by
        rw [List.getElem_cons_drop, List.take_append_drop]
      rw [← hsplit] at h
      obtain ⟨middle, next, hmiddle, hstep, -⟩ := Run.steps?_split h
      rw [ih (Nat.le_of_succ_le hi)] at hmiddle
      obtain rfl := Option.some.inj hmiddle
      rw [List.take_succ_eq_append_getElem hi, Run.steps?_append,
        ih (Nat.le_of_succ_le hi), Option.bind_some, Run.steps?_cons_eq_some_iff]
      refine ⟨next, hstep, ?_⟩
      rw [runAfter, List.getElem?_eq_getElem hi, Option.getD_some, Run.perform, hstep]
      rfl

/-- Actions that can happen, followed by time that passes, are an execution. -/
def ofSteps : Execution schedule work first where
  run := runAfter schedule work first actions
  action := actionAt schedule work first actions
  begins := rfl
  step := by
    intro i
    by_cases hi : i < actions.length
    · have htake := steps?_take h (Nat.succ_le_of_lt hi)
      rw [List.take_succ_eq_append_getElem hi, Run.steps?_append,
        steps?_take h (Nat.le_of_lt hi), Option.bind_some,
        Run.steps?_cons_eq_some_iff] at htake
      obtain ⟨next, hstep, hnext⟩ := htake
      obtain rfl := Option.some.inj hnext
      rw [actionAt, List.getElem?_eq_getElem hi]
      exact hstep
    · have hnone : actions[i]? = none := List.getElem?_eq_none (Nat.not_lt.mp hi)
      rw [actionAt, runAfter, hnone, Option.getD_none, Run.perform, Run.step?,
        if_pos (Nat.le_succ _), Option.getD_some]

theorem run_ofSteps_add (later : Nat) :
    (ofSteps h).run (actions.length + later) = { last with now := last.now + later } := by
  induction later with
  | zero =>
      have htake := steps?_take h (Nat.le_refl actions.length)
      rw [List.take_length, h] at htake
      exact (Option.some.inj htake).symm
  | succ later ih =>
      have hnone : actions[actions.length + later]? = none :=
        List.getElem?_eq_none (Nat.le_add_right _ _)
      have hnext : (ofSteps h).run (actions.length + (later + 1)) =
          ((ofSteps h).run (actions.length + later)).perform schedule work
            (.wait (((ofSteps h).run (actions.length + later)).now + 1)) := by
        change runAfter schedule work first actions (actions.length + later + 1) = _
        rw [runAfter, hnone]
        rfl
      rw [hnext, ih]
      simp [Run.perform, Run.step?, Nat.add_assoc]

theorem uncancelled_ofSteps (hcancelled : last.cancelled = false) (i : Nat) :
    ((ofSteps h).run i).cancelled = false := by
  apply (ofSteps h).uncancelled_of_le (Nat.le_add_left i actions.length)
  rw [run_ofSteps_add h i]
  exact hcancelled

/-- A run that returned goes on in a fair execution. -/
theorem fair_ofSteps (hreachable : last.Reachable schedule work)
    (hphase : last.phase = .returned) : (ofSteps h).Fair := by
  have hrunning := (hreachable.idle_of_returned hphase).2
  have hlater : ∀ i, ∃ j ≥ i, ∃ later,
      (ofSteps h).run j = { last with now := last.now + later } :=
    fun i => ⟨actions.length + i, Nat.le_add_left i _, i, run_ofSteps_add h i⟩
  refine ⟨?_, ?_, ?_⟩
  · intro i
    obtain ⟨j, hj, later, hrun⟩ := hlater i
    refine ⟨j, hj, Or.inr ?_⟩
    rw [hrun]
    intro action htickers
    cases action with
    | ticker => simp [Run.step?, Run.tickerReady, hphase]
    | collect index => simp [Run.step?, Run.collect?, hphase]
    | _ => cases htickers
  · intro tick i
    obtain ⟨j, hj, later, hrun⟩ := hlater i
    refine ⟨j, hj, Or.inr ?_⟩
    rw [hrun]
    rintro ⟨state, instant, hlookup, -⟩
    rw [hrunning] at hlookup
    cases hlookup
  · intro instant
    refine ⟨actions.length + instant, ?_⟩
    rw [run_ofSteps_add h instant]
    exact Nat.le_add_left instant _

end Waiting

end Execution

/-! ## A rank -/

namespace Phase

theorem eq_returned_of_isOver {phase : Phase} (hover : phase.isOver = true)
    (haborted : phase.isAborted = false) : phase = .returned := by
  cases phase with
  | returned => rfl
  | aborted message => cases haborted
  | _ => cases hover

/-- A bound on the moves of the ticker from a phase to the next call, or to the return. -/
def rank : Phase → Nat
  | .collecting => 5
  | .checking => 4
  | .awaitingTimer => 3
  | .awaitingPermit => 2
  | .holdingPermit => 1
  | .draining => 1
  | .returned => 0
  | .aborted _ => 0

end Phase

namespace Run

/-- A bound on the actions, other than waiting and polling in vain, until a run with so many
ticks returns. -/
def rank {σ τ ε : Type} (count : Nat) (run : Run σ τ ε) : Nat :=
  7 * (count - run.summary.ticks) + 2 * run.running.length + run.finished.length + run.phase.rank

/-- Between two states of a run nothing came of anything but that time passed. -/
structure Lingers {σ τ ε : Type} (run next : Run σ τ ε) : Prop where
  phase : next.phase = run.phase
  origin : next.origin = run.origin
  fired : next.fired = run.fired
  free : next.free = run.free
  running : next.running = run.running
  finished : next.finished = run.finished
  ticks : next.summary.ticks = run.summary.ticks
  now : run.now ≤ next.now

theorem Lingers.refl {σ τ ε : Type} (run : Run σ τ ε) : run.Lingers run :=
  ⟨rfl, rfl, rfl, rfl, rfl, rfl, rfl, Nat.le_refl _⟩

theorem Lingers.trans {σ τ ε : Type} {first second third : Run σ τ ε}
    (h : first.Lingers second) (h' : second.Lingers third) : first.Lingers third where
  phase := h'.phase.trans h.phase
  origin := h'.origin.trans h.origin
  fired := h'.fired.trans h.fired
  free := h'.free.trans h.free
  running := h'.running.trans h.running
  finished := h'.finished.trans h.finished
  ticks := h'.ticks.trans h.ticks
  now := Nat.le_trans h.now h'.now

theorem Lingers.rank_eq {σ τ ε : Type} {run next : Run σ τ ε} (h : run.Lingers next)
    (count : Nat) : next.rank count = run.rank count := by
  rw [rank, rank, h.ticks, h.running, h.finished, h.phase]

theorem Advance.rank_lt {σ τ ε : Type} {schedule : Schedule} {run : Run σ τ ε} {phase : Phase}
    {fired : Nat} {events : List Event} (move : Advance schedule run phase fired events) :
    phase.rank < run.phase.rank := by
  cases move <;> simp [‹run.phase = _›, Phase.rank]

/-- A tick that is kept in flight with the state that it had leaves those in flight as they
were. -/
theorem map_keep_of_lookup {τ : Type} {running : List (Nat × τ)} {tick : Nat} {state : τ}
    (hnodup : (running.map Prod.fst).Nodup) (h : running.lookup tick = some state) :
    (running.map fun entry => if entry.1 = tick then (tick, state) else entry) = running := by
  have hsame : ∀ entry ∈ running,
      (if entry.1 = tick then (tick, state) else entry) = entry := by
    intro entry hentry
    by_cases htick : entry.1 = tick
    · rw [if_pos htick]
      exact (List.inj_on_of_nodup_map hnodup hentry (mem_of_lookup h) htick).symm
    · rw [if_neg htick]
  rw [List.map_congr_left hsame, List.map_id']

variable {schedule : Schedule} {chores : Nat → Chore} {trigger : Trigger} {count : Nat}
  {fate : Nat → Fate} {run next : Run Unit Chore.Started Empty}

section Allotted

variable (hlimit : schedule.maxTicks = some count) (hallot : Chore.Allotment chores count fate)

include hlimit hallot

/-- While the token has not fired every action lowers the rank, but those of which nothing
comes: time passes, or a tick is polled that is not done. -/
theorem rank_lt_or_lingers {action : Action}
    (h : run.Reachable schedule (Chore.work chores trigger))
    (hnext : next.Reachable schedule (Chore.work chores trigger))
    (htransition : Transition schedule (Chore.work chores trigger) run action next)
    (hcancelled : next.cancelled = false) :
    next.rank count < run.rank count ∨
      (run.Lingers next ∧ action.isTickers = false ∧
        ∀ tick, action = .poll tick → ¬ run.PollDue (Chore.work chores trigger) tick) := by
  have haborted := not_aborted_of_allotment hlimit hallot hnext
  cases htransition with
  | advance move =>
      have hrank := move.rank_lt
      exact Or.inl (by simp only [rank]; omega)
  | takePermit phase uncancelled free =>
      exact Or.inl (by simp only [rank, phase, Phase.rank]; omega)
  | call phase called =>
      have hroom := lt_of_limitReached_eq_false (h.limited.room (by rw [phase]; rfl)) hlimit
      refine Or.inl ?_
      simp only [rank, phase, Phase.rank, Summary.ticks_fire, List.length_append,
        List.length_singleton]
      omega
  | callPanics phase called => cases haborted
  | collect phase found =>
      obtain ⟨hindex, -⟩ := List.getElem?_eq_some_iff.mp found
      have hlength := List.length_eraseIdx_of_lt hindex
      refine Or.inl ?_
      simp only [rank, Summary.ticks_record, hlength]
      omega
  | finish running polled ending =>
      have hlength := h.length_running_of_lookup running
      refine Or.inl ?_
      simp only [rank, List.length_append, List.length_singleton]
      omega
  | drop running polled fired => cases hcancelled
  | @keep tick started later effect running polled unfired =>
      rcases Chore.poll_cases polled with ⟨hpending, hlate⟩ | ⟨-, hending⟩
      · obtain rfl := Status.pending.inj hpending
        have hsame := map_keep_of_lookup (h.settled.nodup_running h) running
        refine Or.inr ⟨⟨rfl, rfl, rfl, rfl, hsame, rfl, rfl, Nat.le_refl _⟩, rfl, ?_⟩
        rintro other hother ⟨started', instant, hstarted', hwakes, hdue⟩
        obtain rfl := Action.poll.inj hother
        rw [running] at hstarted'
        obtain rfl := Option.some.inj hstarted'
        exact Nat.not_lt.mpr hdue (hlate instant hwakes)
      · cases hending
  | cancel => cases hcancelled
  | wait later =>
      exact Or.inr ⟨⟨rfl, rfl, rfl, rfl, rfl, rfl, rfl, later⟩, rfl,
        fun tick hpoll => Action.noConfusion hpoll⟩

end Allotted

end Run

namespace Execution

variable {schedule : Schedule} {chores : Nat → Chore} {trigger : Trigger} {count : Nat}
  {fate : Nat → Fate} {first : Run Unit Chore.Started Empty}
  {execution : Execution schedule (Chore.work chores trigger) first}

section Allotted

variable (hlimit : schedule.maxTicks = some count) (hallot : Chore.Allotment chores count fate)
  (hfirst : first.Reachable schedule (Chore.work chores trigger))

include hlimit hallot hfirst

/-- If nothing comes of anything any more there is a tick in flight: the ticker rests again and
again, and it awaits no firing once its instant has passed. -/
theorem running_ne_nil_of_lingers (hworkers : 0 < schedule.workers) (hfair : execution.Fair)
    {i : Nat} (hphase : (execution.run i).phase ≠ .returned)
    (hlingers : ∀ j ≥ i, (execution.run i).Lingers (execution.run j) ∧
      (execution.action j).isTickers = false) :
    (execution.run i).running ≠ [] := by
  have hrests : ∀ k ≥ i, ∃ j ≥ k, (execution.run j).TickerRests schedule
      (Chore.work chores trigger) := by
    intro k hk
    obtain ⟨j, hj, hmoves | hrest⟩ := hfair.ticker k
    · rw [(hlingers j (Nat.le_trans hk hj)).2] at hmoves
      cases hmoves
    · exact ⟨j, hj, hrest⟩
  obtain ⟨k, hk⟩ := hfair.clock
    (schedule.dueAt (execution.run i).origin (execution.run i).fired)
  obtain ⟨j, hj, hrest⟩ := hrests (max i k) (Nat.le_max_left i k)
  have hlinger := (hlingers j (Nat.le_trans (Nat.le_max_left i k) hj)).1
  have hnow := Nat.le_trans hk (execution.now_mono (Nat.le_trans (Nat.le_max_right i k) hj))
  have hreached := execution.reachable hfirst j
  have hover : (execution.run j).phase.isOver = false := by
    have haborted := Run.not_aborted_of_allotment hlimit hallot hreached
    rw [hlinger.phase] at haborted ⊢
    exact Bool.eq_false_iff.mpr fun hover =>
      hphase (Phase.eq_returned_of_isOver hover haborted)
  rw [← hlinger.running]
  rcases hrest.awaits hreached hworkers hover with ⟨-, hlate⟩ | hrunning
  · rw [hlinger.origin, hlinger.fired] at hlate
    exact absurd hnow (Nat.not_le.mpr hlate)
  · exact hrunning

variable (hcancelled : ∀ i, (execution.run i).cancelled = false)

include hcancelled

theorem rank_lt_or_lingers_at (i : Nat) :
    (execution.run (i + 1)).rank count < (execution.run i).rank count ∨
      ((execution.run i).Lingers (execution.run (i + 1)) ∧
        (execution.action i).isTickers = false ∧
        ∀ tick, execution.action i = .poll tick →
          ¬ (execution.run i).PollDue (Chore.work chores trigger) tick) :=
  Run.rank_lt_or_lingers hlimit hallot (execution.reachable hfirst i)
    (execution.reachable hfirst (i + 1)) (Run.transition_of_step (execution.step i))
    (hcancelled (i + 1))

theorem rank_le {i j : Nat} (h : i ≤ j) :
    (execution.run j).rank count ≤ (execution.run i).rank count := by
  induction j, h using Nat.le_induction with
  | base => exact Nat.le_refl _
  | succ j _ ih =>
      rcases rank_lt_or_lingers_at hlimit hallot hfirst hcancelled j with hless | ⟨hlingers, -⟩
      · exact Nat.le_trans (Nat.le_of_lt hless) ih
      · rwa [hlingers.rank_eq count]

/-- If the rank is never lowered any more nothing comes of anything but that time passes. -/
theorem lingers_of_rank_ge {i : Nat}
    (h : ∀ j ≥ i, (execution.run i).rank count ≤ (execution.run j).rank count) :
    ∀ j ≥ i, (execution.run i).Lingers (execution.run j) ∧
      (execution.action j).isTickers = false ∧
      ∀ tick, execution.action j = .poll tick →
        ¬ (execution.run j).PollDue (Chore.work chores trigger) tick := by
  have hstep : ∀ j ≥ i, (execution.run j).Lingers (execution.run (j + 1)) ∧
      (execution.action j).isTickers = false ∧
      ∀ tick, execution.action j = .poll tick →
        ¬ (execution.run j).PollDue (Chore.work chores trigger) tick := by
    intro j hj
    rcases rank_lt_or_lingers_at hlimit hallot hfirst hcancelled j with hless | hlingers
    · have hle := rank_le hlimit hallot hfirst hcancelled hj
      exact absurd (h (j + 1) (Nat.le_succ_of_le hj)) (by omega)
    · exact hlingers
  have hlingers : ∀ j ≥ i, (execution.run i).Lingers (execution.run j) := by
    intro j hj
    induction j, hj using Nat.le_induction with
    | base => exact .refl _
    | succ j hj ih => exact ih.trans (hstep j hj).1
  exact fun j hj => ⟨hlingers j hj, (hstep j hj).2⟩

variable (hworkers : 0 < schedule.workers) (hfair : execution.Fair)

include hworkers hfair

/-- A fair execution of allotted ticks does not linger for ever before its run has returned. -/
theorem exists_rank_lt {i : Nat} (hphase : (execution.run i).phase ≠ .returned) :
    ∃ j ≥ i, (execution.run j).rank count < (execution.run i).rank count := by
  by_contra hnone
  push Not at hnone
  have hlingers := lingers_of_rank_ge hlimit hallot hfirst hcancelled hnone
  have hrunning := running_ne_nil_of_lingers hlimit hallot hfirst hworkers hfair hphase
    fun j hj => ⟨(hlingers j hj).1, (hlingers j hj).2.1⟩
  obtain ⟨⟨tick, started⟩, others, hhead⟩ := List.exists_cons_of_ne_nil hrunning
  have hreachable := execution.reachable hfirst i
  obtain ⟨instant, hdone⟩ := Run.doneAt_of_running hlimit hallot hreachable
    (show (tick, started) ∈ (execution.run i).running by rw [hhead]; exact List.mem_cons_self)
  have hdue : ∀ j ≥ i, instant ≤ (execution.run j).now →
      (execution.run j).PollDue (Chore.work chores trigger) tick := by
    intro j hj hnow
    refine ⟨started, instant, ?_, hdone, hnow⟩
    rw [(hlingers j hj).1.running, hhead, List.lookup_cons_self]
  -- The instant of the tick comes, and from then on it is due until it is polled.
  obtain ⟨k, hk⟩ := hfair.clock instant
  obtain ⟨j, hj, hpolled | hrest⟩ := hfair.polls tick (max i k)
  · have hij := Nat.le_trans (Nat.le_max_left i k) hj
    have hnow := Nat.le_trans hk (execution.now_mono (Nat.le_trans (Nat.le_max_right i k) hj))
    exact (hlingers j hij).2.2 tick hpolled (hdue j hij hnow)
  · have hij := Nat.le_trans (Nat.le_max_left i k) hj
    have hnow := Nat.le_trans hk (execution.now_mono (Nat.le_trans (Nat.le_max_right i k) hj))
    exact hrest (hdue j hij hnow)

/-- A fair execution of allotted ticks returns. -/
theorem exists_returned (i : Nat) : ∃ j ≥ i, (execution.run j).phase = .returned := by
  induction hrank : (execution.run i).rank count using Nat.strong_induction_on generalizing i with
  | _ rank ih =>
      by_cases hphase : (execution.run i).phase = .returned
      · exact ⟨i, Nat.le_refl i, hphase⟩
      · obtain ⟨j, hj, hless⟩ :=
          exists_rank_lt hlimit hallot hfirst hcancelled hworkers hfair hphase
        obtain ⟨k, hk, hreturned⟩ := ih _ (by omega) j rfl
        exact ⟨k, Nat.le_trans hj hk, hreturned⟩

end Allotted

end Execution

end OrderFlow
