import Mathlib.Algebra.Order.BigOperators.Group.List
import Mathlib.Algebra.Order.Ring.Nat
import OrderFlow.Proofs.Scheduler.Fairness
import OrderFlow.Proofs.Scheduler.Interrupts

/-!
# The effort that is left to a loop

While nobody fires the token a loop looks after every tick in flight, by a job or by an alarm
set for the instant at which the tick is done.  What it has still to do is measured: the rank
of its run counts for most, then the jobs and the alarms, and last the wait for the timer.
Every step of the ticker and every job lowers this effort.
-/

namespace OrderFlow

namespace Run

variable {schedule : Schedule} {chores : Nat → Chore} {trigger : Trigger} {count : Nat}
  {run next : Run Unit Chore.Started Empty} {action : Action}

/-- Chores stay in flight as they are, until they leave or the next one joins. -/
theorem Transition.running_cases
    (h : Transition schedule (Chore.work chores trigger) run action next) :
    ((∀ entry ∈ next.running, entry ∈ run.running) ∧
      next.running.length ≤ run.running.length ∧ run.summary.ticks ≤ next.summary.ticks) ∨
    ∃ started, action = .ticker ∧
      next.running = run.running ++ [(run.summary.ticks + 1, started)] ∧
      next.summary.ticks = run.summary.ticks + 1 := by
  cases h with
  | call phase called => exact Or.inr ⟨_, rfl, rfl, rfl⟩
  | callPanics phase called =>
      exact Or.inl ⟨List.forall_mem_nil _, Nat.zero_le _, Nat.le_succ _⟩
  | collect phase found => exact Or.inl ⟨fun _ => id, Nat.le_refl _, by simp⟩
  | finish running polled ending =>
      exact Or.inl ⟨fun _ => List.mem_of_mem_filter, List.length_filter_le .., Nat.le_refl _⟩
  | drop running polled fired =>
      exact Or.inl ⟨fun _ => List.mem_of_mem_filter, List.length_filter_le .., Nat.le_refl _⟩
  | @keep tick started later effect running polled unfired =>
      refine Or.inl ⟨fun entry hentry => ?_, by simp, Nat.le_refl _⟩
      obtain ⟨hpending, -⟩ | ⟨-, hending⟩ := Chore.poll_cases polled
      · obtain rfl := Status.pending.inj hpending
        obtain ⟨other, hother, rfl⟩ := List.mem_map.mp hentry
        split_ifs
        · exact mem_of_lookup running
        · exact hother
      · cases hending
  | _ => exact Or.inl ⟨fun _ => id, Nat.le_refl _, Nat.le_refl _⟩

theorem Transition.uncancelled_of_never
    (h : Transition schedule (Chore.work chores .never) run action next)
    (hcancelled : run.cancelled = false) (haction : action ≠ .cancel) :
    next.cancelled = false := by
  have hspares : (Chore.work chores .never).SparesToken :=
    ⟨fun _ _ _ => rfl, fun _ _ _ _ => Bool.and_false _⟩
  rw [h.cancelled_eq hspares, hcancelled, decide_eq_false haction]
  rfl

theorem Reachable.le_ticks_of_running {σ τ ε : Type} {work : Work σ τ ε} {run : Run σ τ ε}
    {tick : Nat} {state : τ} (h : run.Reachable schedule work)
    (hmem : (tick, state) ∈ run.running) (haborted : run.phase.isAborted = false) :
    tick ≤ run.summary.ticks := by
  have hcalled := h.called_of_running hmem haborted
  rw [h.called, List.mem_range'_1] at hcalled
  omega

/-- A tick is in flight only once. -/
theorem Reachable.eq_of_running {σ τ ε : Type} {work : Work σ τ ε} {run : Run σ τ ε}
    {tick : Nat} {state other : τ} (h : run.Reachable schedule work)
    (hmem : (tick, state) ∈ run.running) (hother : (tick, other) ∈ run.running) :
    state = other :=
  (Prod.mk.inj
    (List.inj_on_of_nodup_map (h.settled.nodup_running h) hmem hother rfl)).2

/-- A tick is in flight and not done yet. -/
def isPending (run : Run Unit Chore.Started Empty) (tick : Nat) : Bool :=
  run.running.any fun entry => entry.1 == tick && entry.2.doneAt.any (run.now < ·)

theorem isPending_of_mem {tick instant : Nat} {started : Chore.Started}
    (hmem : (tick, started) ∈ run.running) (hdone : started.doneAt = some instant)
    (hlate : run.now < instant) : run.isPending tick = true :=
  List.any_eq_true.mpr ⟨_, hmem, by simp [hdone, hlate]⟩

/-- One while the ticker waits for the timer. -/
def timerWait (schedule : Schedule) (run : Run Unit Chore.Started Empty) : Nat :=
  if run.phase = .awaitingTimer ∧ run.now < schedule.dueAt run.origin run.fired then 1 else 0

theorem timerWait_le (schedule : Schedule) (run : Run Unit Chore.Started Empty) :
    run.timerWait schedule ≤ 1 := by
  unfold timerWait
  split_ifs <;> omega

theorem Lingers.timerWait_le (h : run.Lingers next) (schedule : Schedule) :
    next.timerWait schedule ≤ run.timerWait schedule := by
  have hnow := h.now
  unfold timerWait
  rw [h.phase, h.origin, h.fired]
  split_ifs with hafter hbefore
  · exact Nat.le_refl 1
  · exact absurd ⟨hafter.1, Nat.lt_of_le_of_lt hnow hafter.2⟩ hbefore
  · exact Nat.zero_le 1
  · exact Nat.le_refl 0

/-- No tick that was called before becomes pending. -/
theorem Transition.isPending_le {tick : Nat}
    (h : Transition schedule (Chore.work chores trigger) run action next)
    (hknown : tick ≤ run.summary.ticks) (hpending : next.isPending tick = true) :
    run.isPending tick = true := by
  obtain ⟨⟨number, started⟩, hentry, hlate⟩ := List.any_eq_true.mp hpending
  simp only [Bool.and_eq_true, beq_iff_eq, Option.any_eq_true, decide_eq_true_eq] at hlate
  obtain ⟨rfl, instant, hdone, hlate⟩ := hlate
  refine isPending_of_mem ?_ hdone (Nat.lt_of_le_of_lt h.now_le hlate)
  rcases h.running_cases with ⟨hsub, -⟩ | ⟨other, -, hrunning, -⟩
  · exact hsub _ hentry
  · rw [hrunning, List.mem_append, List.mem_singleton] at hentry
    rcases hentry with hentry | hnew
    · exact hentry
    · obtain ⟨rfl, -⟩ := Prod.mk.inj hnew
      exact absurd hknown (Nat.not_succ_le_self _)

end Run

/-- What a job counts for: more if it can do no more than set an alarm. -/
def Job.weight (run : Run Unit Chore.Started Empty) : Job → Nat
  | .token => 1
  | .tick number => if run.isPending number then 3 else 1

theorem Job.one_le_weight (run : Run Unit Chore.Started Empty) (job : Job) :
    1 ≤ job.weight run := by
  unfold weight
  split
  · exact Nat.le_refl 1
  · split_ifs <;> omega

theorem Job.weight_le (run : Run Unit Chore.Started Empty) (job : Job) :
    job.weight run ≤ 3 := by
  unfold weight
  split
  · omega
  · split_ifs <;> omega

namespace Loop

section Acting

variable {σ τ ε : Type} {schedule : Schedule} {work : Work σ τ ε} {loop : Loop σ τ ε}
  {next : Run σ τ ε} {action : Action}

theorem act_of_none (h : loop.run.step? schedule work action = none) :
    loop.act schedule work action = loop := by
  simp [act, Run.perform, h]

/-- The jobs for the ticks that an action called. -/
def newJobs (run next : Run σ τ ε) : List Job :=
  (next.running.drop run.running.length).map fun entry => .tick entry.1

/-- While the token has not fired an action adds a job for the tick that it calls. -/
theorem act_of_step (h : loop.run.step? schedule work action = some next)
    (hcancelled : next.cancelled = false) :
    loop.act schedule work action =
      { loop with
        run := next
        queue := loop.queue ++ newJobs loop.run next
        arrivals :=
          loop.arrivals ++ (next.finished.drop loop.run.finished.length).map Prod.fst } := by
  simp [act, Run.perform, h, hcancelled, newJobs]

end Acting

variable {schedule : Schedule} {chores : Nat → Chore} {count : Nat} {fate : Nat → Fate}
  {exempt : Option Nat} {first : Run Unit Chore.Started Empty}
  {loop last : Loop Unit Chore.Started Empty}
  {next : Run Unit Chore.Started Empty} {action : Action}

/-- What the jobs of a loop count for. -/
def queueWeight (loop : Loop Unit Chore.Started Empty) : Nat :=
  (loop.queue.map (Job.weight loop.run)).sum

/-- A bound on the turns of a loop until a run with so many ticks returns. -/
def effort (schedule : Schedule) (count : Nat) (loop : Loop Unit Chore.Started Empty) : Nat :=
  5 * loop.run.rank count + loop.queueWeight + 2 * loop.alarms.length +
    loop.run.timerWait schedule

/-- Nobody fires the token, and every tick in flight, but perhaps one, has a job or an alarm
set for the instant at which it is done. -/
structure Tended (exempt : Option Nat) (loop : Loop Unit Chore.Started Empty) : Prop where
  untimed : loop.cancelAt = none
  uncancelled : loop.run.cancelled = false
  queued : ∀ {tick}, .tick tick ∈ loop.queue → tick ≤ loop.run.summary.ticks
  alarmed : ∀ {instant tick}, (instant, .tick tick) ∈ loop.alarms →
    tick ≤ loop.run.summary.ticks ∧
      ∀ started, (tick, started) ∈ loop.run.running → started.doneAt = some instant
  tended : ∀ {tick started}, (tick, started) ∈ loop.run.running →
    exempt = some tick ∨ .tick tick ∈ loop.queue ∨
      ∃ instant, (instant, .tick tick) ∈ loop.alarms

/-- An action adds a job if it is the ticker that calls a tick, and none otherwise. -/
theorem newJobs_cases
    (hstep : loop.run.step? schedule (Chore.work chores .never) action = some next) :
    (newJobs loop.run next = [] ∧ (∀ entry ∈ next.running, entry ∈ loop.run.running) ∧
      loop.run.summary.ticks ≤ next.summary.ticks) ∨
    (action = .ticker ∧ newJobs loop.run next = [.tick (loop.run.summary.ticks + 1)] ∧
      (∃ started, next.running =
        loop.run.running ++ [(loop.run.summary.ticks + 1, started)]) ∧
      next.summary.ticks = loop.run.summary.ticks + 1) := by
  rcases (Run.transition_of_step hstep).running_cases with
    ⟨hsub, hlength, hticks⟩ | ⟨started, haction, hrunning, hticks⟩
  · refine Or.inl ⟨?_, hsub, hticks⟩
    rw [newJobs, List.drop_eq_nil_of_le hlength, List.map_nil]
  · refine Or.inr ⟨haction, ?_, ⟨started, hrunning⟩, hticks⟩
    rw [newJobs, hrunning, List.drop_left, List.map_singleton]

theorem Tended.act (h : Tended exempt loop) (haction : action ≠ .cancel)
    (hstep : loop.run.step? schedule (Chore.work chores .never) action = some next) :
    Tended exempt (loop.act schedule (Chore.work chores .never) action) := by
  have hcancelled :=
    (Run.transition_of_step hstep).uncancelled_of_never h.uncancelled haction
  rw [act_of_step hstep hcancelled]
  rcases newJobs_cases hstep with ⟨hnone, hsub, hticks⟩ | ⟨-, hnew, ⟨started, hrunning⟩, hticks⟩
  · rw [hnone, List.append_nil]
    refine ⟨h.untimed, hcancelled, fun hjob => Nat.le_trans (h.queued hjob) hticks,
      fun halarm => ?_, fun hmem => h.tended (hsub _ hmem)⟩
    obtain ⟨hknown, hright⟩ := h.alarmed halarm
    exact ⟨Nat.le_trans hknown hticks, fun started hmem => hright started (hsub _ hmem)⟩
  · rw [hnew]
    refine ⟨h.untimed, hcancelled, fun hjob => ?_, fun halarm => ?_, fun hmem => ?_⟩
    · dsimp only at hjob ⊢
      rw [List.mem_append, List.mem_singleton] at hjob
      rcases hjob with hjob | hjob
      · have hknown := h.queued hjob
        omega
      · obtain rfl := Job.tick.inj hjob
        exact Nat.le_of_eq hticks.symm
    · obtain ⟨hknown, hright⟩ := h.alarmed halarm
      dsimp only
      refine ⟨by omega, fun other hmem => ?_⟩
      rw [hrunning, List.mem_append, List.mem_singleton] at hmem
      rcases hmem with hmem | hmem
      · exact hright other hmem
      · obtain rfl := (Prod.mk.inj hmem).1
        omega
    · dsimp only at hmem ⊢
      rw [hrunning, List.mem_append, List.mem_singleton] at hmem
      rcases hmem with hmem | hmem
      · rcases h.tended hmem with hexempt | hjob | halarm
        · exact Or.inl hexempt
        · exact Or.inr (Or.inl (List.mem_append_left _ hjob))
        · exact Or.inr (Or.inr halarm)
      · obtain rfl := (Prod.mk.inj hmem).1
        exact Or.inr (Or.inl (List.mem_append_right _ (List.mem_singleton_self _)))

/-- No job that is already there comes to count for more. -/
theorem Tended.queueWeight_act_le (h : Tended exempt loop) (haction : action ≠ .cancel)
    (hstep : loop.run.step? schedule (Chore.work chores .never) action = some next) :
    (loop.act schedule (Chore.work chores .never) action).queueWeight ≤
      loop.queueWeight + 3 ∧
    (action ≠ .ticker → (loop.act schedule (Chore.work chores .never) action).queueWeight ≤
      loop.queueWeight) := by
  have htransition := Run.transition_of_step hstep
  have hcancelled := htransition.uncancelled_of_never h.uncancelled haction
  have hold : (loop.queue.map (Job.weight next)).sum ≤ loop.queueWeight := by
    apply List.sum_le_sum
    intro job hjob
    cases job with
    | token => exact Nat.le_refl 1
    | tick number =>
        unfold Job.weight
        dsimp only
        split_ifs with hafter hbefore
        · exact Nat.le_refl 3
        · exact absurd (htransition.isPending_le (h.queued hjob) hafter) hbefore
        · omega
        · exact Nat.le_refl 1
  rw [act_of_step hstep hcancelled]
  unfold queueWeight at hold ⊢
  dsimp only
  rw [List.map_append, List.sum_append]
  rcases newJobs_cases hstep with ⟨hnone, -⟩ | ⟨hticker, hnew, -⟩
  · rw [hnone, List.map_nil, List.sum_nil]
    exact ⟨by omega, fun _ => by omega⟩
  · have hweight := Job.weight_le next (.tick (loop.run.summary.ticks + 1))
    rw [hnew, List.map_singleton, List.sum_singleton]
    exact ⟨by omega, fun hother => absurd hticker hother⟩

/-! ### The ticker -/

/-- What the ticker can do in a round is an action of the ticker that can happen. -/
theorem Serves.tickerStep_eq {σ τ ε : Type} {work : Work σ τ ε} {first : Run σ τ ε}
    {loop : Loop σ τ ε} (h : Serves schedule work first loop)
    (hcan : loop.tickerCanStep schedule = true) :
    ∃ action next arrivals allowance, action.isTickers = true ∧
      loop.run.step? schedule work action = some next ∧
      loop.tickerStep schedule work =
        { loop with arrivals, allowance }.act schedule work action := by
  have hcollect : ∀ {tick rest}, loop.arrivals = tick :: rest →
      tick ∈ loop.run.finished.map Prod.fst := by
    intro tick rest harrivals
    have hperm := h.arrivals
    rw [harrivals] at hperm
    exact hperm.mem_iff.mp List.mem_cons_self
  unfold tickerCanStep at hcan
  unfold Loop.tickerStep
  split
  · rename_i tick rest hphase harrivals
    obtain ⟨index, how, hindex, hstep, -⟩ :=
      @Run.step?_collect _ _ _ schedule work _ _ (Or.inl hphase) (hcollect harrivals)
    refine ⟨.collect index, _, rest, loop.allowance, rfl, hstep, ?_⟩
    rw [Loop.collect, hindex]
  · rename_i tick rest hphase harrivals
    obtain ⟨index, how, hindex, hstep, -⟩ :=
      @Run.step?_collect _ _ _ schedule work _ _ (Or.inr hphase) (hcollect harrivals)
    refine ⟨.collect index, _, rest, loop.allowance - 1, rfl, hstep, ?_⟩
    rw [Loop.collect, hindex]
  · rename_i hcollecting hdraining
    have hready : loop.run.tickerReady schedule = true := by
      split at hcan
      · exact (hcollecting _ _ ‹_› ‹_›).elim
      · exact (hdraining _ _ ‹_› ‹_›).elim
      · exact (Bool.and_eq_true_iff.mp hcan).1
    have hstep : loop.run.step? schedule work .ticker =
        some (loop.run.tickerMove schedule work) := if_pos hready
    split
    · exact ⟨_, _, loop.arrivals, loop.allowance - 1, rfl, hstep, rfl⟩
    · exact ⟨_, _, loop.arrivals, loop.allowance, rfl, hstep, rfl⟩

/-- What a loop has done before does not matter to the effort that is left. -/
theorem Tended.reready (h : Tended exempt loop) (arrivals : List Nat) (allowance : Nat) :
    Tended exempt { loop with arrivals, allowance } :=
  ⟨h.untimed, h.uncancelled, h.queued, h.alarmed, h.tended⟩

/-- An action that lowers the rank lowers the effort. -/
theorem Tended.effort_act_lt (h : Tended exempt loop) (haction : action ≠ .cancel)
    (hstep : loop.run.step? schedule (Chore.work chores .never) action = some next)
    (hrank : next.rank count < loop.run.rank count) :
    effort schedule count (loop.act schedule (Chore.work chores .never) action) <
      effort schedule count loop ∧
    (action ≠ .ticker →
      effort schedule count (loop.act schedule (Chore.work chores .never) action) + 4 ≤
        effort schedule count loop) := by
  have hcancelled :=
    (Run.transition_of_step hstep).uncancelled_of_never h.uncancelled haction
  obtain ⟨hweight, hother⟩ := h.queueWeight_act_le haction hstep
  have hwait := Run.timerWait_le schedule next
  rw [act_of_step hstep hcancelled] at hweight hother ⊢
  simp only [effort] at hweight hother ⊢
  refine ⟨by omega, fun hticker => ?_⟩
  have hsame := hother hticker
  omega

/-- An action of which nothing comes does not add to the effort. -/
theorem Tended.effort_act_le (h : Tended exempt loop) (haction : action ≠ .cancel)
    (hticker : action ≠ .ticker)
    (hstep : loop.run.step? schedule (Chore.work chores .never) action = some next)
    (hlingers : loop.run.Lingers next) :
    effort schedule count (loop.act schedule (Chore.work chores .never) action) ≤
      effort schedule count loop := by
  have hcancelled :=
    (Run.transition_of_step hstep).uncancelled_of_never h.uncancelled haction
  have hweight := (h.queueWeight_act_le haction hstep).2 hticker
  have hwait := hlingers.timerWait_le schedule
  have hrank := hlingers.rank_eq count
  rw [act_of_step hstep hcancelled] at hweight ⊢
  simp only [effort] at hweight ⊢
  omega

/-! ### Jobs -/

/-- The tick that a job is for. -/
def tickOf? : Job → Option Nat
  | .token => none
  | .tick number => some number

theorem Tended.pop {job : Job} {rest : List Job} (h : Tended none loop)
    (hqueue : loop.queue = job :: rest) :
    Tended (tickOf? job) { loop with queue := rest } := by
  refine ⟨h.untimed, h.uncancelled, fun hjob => h.queued ?_, h.alarmed, fun hmem => ?_⟩
  · rw [hqueue]
    exact List.mem_cons_of_mem _ hjob
  · rcases h.tended hmem with hexempt | hjob | halarm
    · cases hexempt
    · rw [hqueue, List.mem_cons] at hjob
      rcases hjob with rfl | hjob
      · exact Or.inl rfl
      · exact Or.inr (Or.inl hjob)
    · exact Or.inr (Or.inr halarm)

theorem effort_pop {job : Job} {rest : List Job} (schedule : Schedule) (count : Nat)
    (hqueue : loop.queue = job :: rest) :
    effort schedule count loop =
      effort schedule count { loop with queue := rest } + job.weight loop.run := by
  simp only [effort, queueWeight, hqueue, List.map_cons, List.sum_cons]
  omega

/-- A tick that is not in flight needs no looking after. -/
theorem Tended.release {number : Nat} (h : Tended (some number) loop)
    (hnone : loop.run.running.lookup number = none) : Tended none loop := by
  refine ⟨h.untimed, h.uncancelled, h.queued, h.alarmed, fun {tick started} hmem => ?_⟩
  rcases h.tended hmem with hexempt | hlooked
  · obtain rfl := Option.some.inj hexempt
    have hother := List.lookup_eq_none_iff.mp hnone _ hmem
    simp at hother
  · exact Or.inr hlooked

/-- A tick in flight is looked after once it is planned for the instant at which it is done. -/
theorem Tended.plan {number instant : Nat} {started : Chore.Started}
    (h : Tended (some number) loop) (hknown : number ≤ loop.run.summary.ticks)
    (honly : ∀ other, (number, other) ∈ loop.run.running → other = started)
    (hdone : started.doneAt = some instant) :
    Tended none (loop.plan instant (.tick number)) := by
  unfold Loop.plan
  split
  · refine ⟨h.untimed, h.uncancelled, fun hjob => ?_, h.alarmed, fun hmem => ?_⟩
    · dsimp only at hjob
      rw [List.mem_append, List.mem_singleton] at hjob
      rcases hjob with hjob | hjob
      · exact h.queued hjob
      · obtain rfl := Job.tick.inj hjob
        exact hknown
    · rcases h.tended hmem with hexempt | hjob | halarm
      · obtain rfl := Option.some.inj hexempt
        exact Or.inr (Or.inl (List.mem_append_right _ (List.mem_singleton_self _)))
      · exact Or.inr (Or.inl (List.mem_append_left _ hjob))
      · exact Or.inr (Or.inr halarm)
  · refine ⟨h.untimed, h.uncancelled, h.queued, fun halarm => ?_, fun hmem => ?_⟩
    · dsimp only at halarm
      rw [List.mem_append, List.mem_singleton] at halarm
      rcases halarm with halarm | halarm
      · exact h.alarmed halarm
      · obtain ⟨rfl, hjob⟩ := Prod.mk.inj halarm
        obtain rfl := Job.tick.inj hjob
        refine ⟨hknown, fun other hother => ?_⟩
        rw [honly other hother, hdone]
    · rcases h.tended hmem with hexempt | hjob | ⟨other, halarm⟩
      · obtain rfl := Option.some.inj hexempt
        exact Or.inr (Or.inr ⟨instant, List.mem_append_right _ (List.mem_singleton_self _)⟩)
      · exact Or.inr (Or.inl hjob)
      · exact Or.inr (Or.inr ⟨other, List.mem_append_left _ halarm⟩)

/-- A plan counts for no more than a job, and for less if it sets an alarm. -/
theorem effort_plan_le (schedule : Schedule) (count instant : Nat) (job : Job)
    (loop : Loop Unit Chore.Started Empty) :
    effort schedule count (loop.plan instant job) ≤ effort schedule count loop + 3 ∧
      (loop.run.now < instant →
        effort schedule count (loop.plan instant job) ≤ effort schedule count loop + 2) := by
  have hweight := Job.weight_le loop.run job
  unfold Loop.plan
  split
  · rename_i hdue
    simp only [effort, queueWeight, List.map_append, List.map_singleton, List.sum_append,
      List.sum_singleton]
    exact ⟨by omega, fun hlate => by omega⟩
  · simp only [effort, queueWeight, List.length_append, List.length_singleton]
    exact ⟨by omega, fun _ => by omega⟩

section Allotted

variable (hlimit : schedule.maxTicks = some count) (hallot : Chore.Allotment chores count fate)

include hlimit hallot

theorem tickerStep_tended (hserves : Serves schedule (Chore.work chores .never) first loop)
    (h : Tended none loop) (hcan : loop.tickerCanStep schedule = true) :
    Tended none (loop.tickerStep schedule (Chore.work chores .never)) ∧
      effort schedule count (loop.tickerStep schedule (Chore.work chores .never)) <
        effort schedule count loop := by
  obtain ⟨action, next, arrivals, allowance, htickers, hstep, heq⟩ := hserves.tickerStep_eq hcan
  have haction : action ≠ .cancel := by
    rintro rfl
    cases htickers
  have htransition := Run.transition_of_step hstep
  have hcancelled := htransition.uncancelled_of_never h.uncancelled haction
  have hreachable := hserves.punctual.reachable
  rw [heq]
  refine ⟨(h.reready arrivals allowance).act haction hstep, ?_⟩
  rcases Run.rank_lt_or_lingers hlimit hallot hreachable (hreachable.step hstep)
    htransition hcancelled with hrank | ⟨-, hnot, -⟩
  · exact ((h.reready arrivals allowance).effort_act_lt haction hstep hrank).1
  · rw [hnot] at htickers
    cases htickers

/-- A poll of which something comes lowers the effort by more than a plan for the tick adds. -/
theorem effort_poll_cases {number : Nat} (h : Tended exempt loop)
    (hreachable : loop.run.Reachable schedule (Chore.work chores .never))
    (hstep : loop.run.step? schedule (Chore.work chores .never) (.poll number) = some next) :
    effort schedule count (loop.act schedule (Chore.work chores .never) (.poll number)) + 4 ≤
        effort schedule count loop ∨
      (effort schedule count (loop.act schedule (Chore.work chores .never) (.poll number)) ≤
          effort schedule count loop ∧
        loop.run.Lingers next ∧ next.now = loop.run.now ∧
        ¬ loop.run.PollDue (Chore.work chores .never) number) := by
  have htransition := Run.transition_of_step hstep
  have hcancel : Action.poll number ≠ .cancel := by simp
  have hticker : Action.poll number ≠ .ticker := by simp
  rcases Run.rank_lt_or_lingers hlimit hallot hreachable (hreachable.step hstep) htransition
    (htransition.uncancelled_of_never h.uncancelled hcancel) with hrank | ⟨hlingers, -, hvain⟩
  · exact Or.inl ((h.effort_act_lt hcancel hstep hrank).2 hticker)
  · refine Or.inr ⟨h.effort_act_le hcancel hticker hstep hlingers, hlingers, ?_, hvain number rfl⟩
    cases htransition <;> rfl

/-- The plan for a tick that a poll left in flight does not take the effort back to where it was:
if nothing came of the poll the tick was not due, and its job counted for more than an alarm. -/
theorem effort_plan_after_poll_lt {number instant : Nat} {started : Chore.Started}
    (h : Tended exempt loop)
    (hreachable : loop.run.Reachable schedule (Chore.work chores .never))
    (hstep : loop.run.step? schedule (Chore.work chores .never) (.poll number) = some next)
    (hlookup : next.running.lookup number = some started)
    (hdone : started.doneAt = some instant) :
    effort schedule count ((loop.act schedule (Chore.work chores .never) (.poll number)).plan
        instant (.tick number)) <
      effort schedule count loop + Job.weight loop.run (.tick number) := by
  have hone := Job.one_le_weight loop.run (.tick number)
  obtain ⟨hplan, hplanLate⟩ := effort_plan_le schedule count instant (.tick number)
    (loop.act schedule (Chore.work chores .never) (.poll number))
  rcases effort_poll_cases hlimit hallot h hreachable hstep with
    hless | ⟨hle, hlingers, hnow, hvain⟩
  · omega
  · rw [hlingers.running] at hlookup
    have hlate : loop.run.now < instant := by
      by_contra hdue
      exact hvain ⟨started, instant, hlookup, hdone, Nat.not_lt.mp hdue⟩
    have hweight : Job.weight loop.run (.tick number) = 3 :=
      if_pos (Run.isPending_of_mem (Run.mem_of_lookup hlookup) hdone hlate)
    have hthree := hplanLate (by
      rw [act_of_step hstep ((Run.transition_of_step hstep).uncancelled_of_never h.uncancelled
        (by simp)), hnow]
      exact hlate)
    omega

/-- A poll of a tick that stays in flight is followed by a plan for it. -/
theorem runJob_tick_tended {number : Nat}
    (hserves : Serves schedule (Chore.work chores .never) first loop)
    (h : Tended (some number) loop) :
    Tended none (loop.runJob schedule (Chore.work chores .never) (.tick number)) ∧
      effort schedule count (loop.runJob schedule (Chore.work chores .never) (.tick number)) <
        effort schedule count loop + Job.weight loop.run (.tick number) := by
  have hreachable := hserves.punctual.reachable
  have hone := Job.one_le_weight loop.run (.tick number)
  unfold Loop.runJob
  dsimp only
  cases hstep : loop.run.step? schedule (Chore.work chores .never) (.poll number) with
  | none =>
      have hlookup : loop.run.running.lookup number = none := Option.map_eq_none_iff.mp hstep
      rw [act_of_none hstep, hlookup]
      exact ⟨h.release hlookup, Nat.lt_add_of_pos_right hone⟩
  | some next =>
      have hnext := hreachable.step hstep
      have hacted := h.act (by simp) hstep
      have hrun : (loop.act schedule (Chore.work chores .never) (.poll number)).run = next := by
        rw [act_of_step hstep ((Run.transition_of_step hstep).uncancelled_of_never h.uncancelled
          (by simp))]
      rw [hrun]
      cases hlookup : next.running.lookup number with
      | none =>
          refine ⟨hacted.release (by rw [hrun, hlookup]), ?_⟩
          rcases effort_poll_cases hlimit hallot h hreachable hstep with hless | ⟨hle, -⟩
          · dsimp only
            omega
          · exact Nat.lt_of_le_of_lt hle (Nat.lt_add_of_pos_right hone)
      | some started =>
          have hmem := Run.mem_of_lookup hlookup
          have haborted := Run.not_aborted_of_allotment hlimit hallot hnext
          obtain ⟨instant, hdone⟩ := Run.doneAt_of_running hlimit hallot hnext hmem
          have hwakes : (Chore.work chores .never).wakesAt? next.now started = some instant :=
            hdone
          dsimp only
          rw [hwakes]
          refine ⟨hacted.plan ?_ (fun other hother => ?_) hdone,
            effort_plan_after_poll_lt hlimit hallot h hreachable hstep hlookup hdone⟩
          · rw [hrun]
            exact hnext.le_ticks_of_running hmem haborted
          · rw [hrun] at hother
            exact hnext.eq_of_running hother hmem

theorem runJob_tended {job : Job} {rest : List Job}
    (hserves : Serves schedule (Chore.work chores .never) first loop) (h : Tended none loop)
    (hqueue : loop.queue = job :: rest) :
    Tended none ({ loop with queue := rest }.runJob schedule (Chore.work chores .never) job) ∧
      effort schedule count
        ({ loop with queue := rest }.runJob schedule (Chore.work chores .never) job) <
          effort schedule count loop := by
  rw [effort_pop schedule count hqueue]
  cases job with
  | token =>
      have hsame : { loop with queue := rest }.runJob schedule (Chore.work chores .never) .token =
          { loop with queue := rest } := by
        simp [Loop.runJob, h.untimed]
      rw [hsame]
      exact ⟨h.pop hqueue, Nat.lt_succ_self _⟩
  | tick number =>
      exact runJob_tick_tended hlimit hallot (hserves.reschedule rfl (.refl _)) (h.pop hqueue)

/-- Jobs lower the effort, if there are any. -/
theorem runJobs_tended (jobs : Nat)
    (hserves : Serves schedule (Chore.work chores .never) first loop)
    (h : Tended none loop) :
    Tended none (runJobs schedule (Chore.work chores .never) jobs loop) ∧
      effort schedule count (runJobs schedule (Chore.work chores .never) jobs loop) ≤
        effort schedule count loop ∧
      (0 < jobs → loop.queue ≠ [] →
        effort schedule count (runJobs schedule (Chore.work chores .never) jobs loop) <
          effort schedule count loop) := by
  induction jobs generalizing loop with
  | zero => exact ⟨h, Nat.le_refl _, fun hjobs => absurd hjobs (Nat.lt_irrefl 0)⟩
  | succ jobs ih =>
      unfold runJobs
      split
      · rename_i hqueue
        exact ⟨h, Nat.le_refl _, fun _ hnone => absurd hqueue hnone⟩
      · rename_i job rest hqueue
        have hrest : Serves schedule (Chore.work chores .never) first { loop with queue := rest } :=
          hserves.reschedule rfl (.refl _)
        obtain ⟨htended, hless⟩ := runJob_tended hlimit hallot hserves h hqueue
        obtain ⟨hlast, hle, -⟩ := ih (hrest.runJob job) htended
        exact ⟨hlast, Nat.le_trans hle (Nat.le_of_lt hless),
          fun _ _ => Nat.lt_of_le_of_lt hle hless⟩

/-- The steps of the ticker lower the effort, if there are any. -/
theorem tickerTurnFor_tended (fuel : Nat)
    (hserves : Serves schedule (Chore.work chores .never) first loop) (h : Tended none loop) :
    Tended none (tickerTurnFor schedule (Chore.work chores .never) fuel loop) ∧
      effort schedule count (tickerTurnFor schedule (Chore.work chores .never) fuel loop) ≤
        effort schedule count loop ∧
      (0 < fuel → loop.tickerCanStep schedule = true →
        effort schedule count (tickerTurnFor schedule (Chore.work chores .never) fuel loop) <
          effort schedule count loop) := by
  induction fuel generalizing loop with
  | zero => exact ⟨h, Nat.le_refl _, fun hfuel => absurd hfuel (Nat.lt_irrefl 0)⟩
  | succ fuel ih =>
      unfold tickerTurnFor
      split
      · rename_i hcan
        obtain ⟨htended, hless⟩ := tickerStep_tended hlimit hallot hserves h hcan
        obtain ⟨hlast, hle, -⟩ := ih hserves.tickerStep htended
        exact ⟨hlast, Nat.le_trans hle (Nat.le_of_lt hless),
          fun _ _ => Nat.lt_of_le_of_lt hle hless⟩
      · rename_i hcannot
        exact ⟨h, Nat.le_refl _, fun _ hcan => absurd hcan hcannot⟩

end Allotted

end Loop

end OrderFlow
