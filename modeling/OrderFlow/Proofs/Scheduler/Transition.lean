import OrderFlow.Scheduler.Journal

/-!
# Transitions of a run

`Run.step?` is a function with a case for every action and every phase.  This
module states once, as the relation `Run.Transition`, what an action can do to a
run: its guard, the fields it changes and the entries it adds to the journal.
Everything that is proved of runs later is proved by cases on a transition, and
`Run.Reachable.induction` carries it over to every reachable run.
-/

namespace OrderFlow

variable {σ τ ε : Type}

/-- The ending that a poll's status is by itself: none while the work is pending. -/
def Status.ending? : Status τ → Option Ending
  | .pending _ => none
  | .returned outcome => some (.returned outcome)
  | .panicked message => some (.panicked message)

/-- Whether an action is the ticker's own: it moves on, or it records a finished tick. -/
def Action.isTickers : Action → Bool
  | .ticker => true
  | .collect _ => true
  | _ => false

namespace Run

/-- The journal of a run as a list. -/
def entries (run : Run σ τ ε) : List (Entry ε) :=
  run.journal.toList

/-- The journal of a run with some notes added. -/
def journalWith (run : Run σ τ ε) (notes : List (Entry ε)) : Array (Entry ε) :=
  run.journal ++ notes

/-- What the ticker has to say of an ending: a panic is logged. -/
def endingEvents (tick : Nat) : Ending → List Event
  | .panicked message => [.tickAborted tick message]
  | _ => []

/-- What the ticker writes when it records an ending: a panic is logged first. -/
def recordNotes (tick : Nat) (how : Ending) : List (Entry ε) :=
  (endingEvents tick how).map Entry.logged ++ [.recorded tick how]

/-- What is written of ticks in flight that go with an aborted run. -/
def abortNotes (work : Work σ τ ε) (now : Nat) (running : List (Nat × τ)) :
    List (Entry ε) :=
  running.flatMap fun (tick, state) =>
    (work.drop state).map (Entry.did tick) ++ [.ended tick now .dropped]

/-- The moves of the ticker that concern no tick: the phase and the firing counter after the
move, and the events it logs. -/
inductive Advance (schedule : Schedule) (run : Run σ τ ε) :
    Phase → Nat → List Event → Prop
  | reachLimit (phase : run.phase = .checking)
      (limit : schedule.limitReached run.summary.ticks = true) :
      Advance schedule run .draining run.fired
        [.tickLimitReached, .waiting (run.running.length + run.finished.length)]
  | goOn (phase : run.phase = .checking)
      (limit : schedule.limitReached run.summary.ticks = false) :
      Advance schedule run .awaitingTimer run.fired []
  | stopAtTimer (phase : run.phase = .awaitingTimer) (cancelled : run.cancelled = true) :
      Advance schedule run .draining run.fired
        [.waiting (run.running.length + run.finished.length)]
  | timerFires (phase : run.phase = .awaitingTimer) (uncancelled : run.cancelled = false)
      (due : schedule.dueAt run.origin run.fired ≤ run.now) :
      Advance schedule run .awaitingPermit (run.fired + 1) []
  | stopAtPool (phase : run.phase = .awaitingPermit) (cancelled : run.cancelled = true) :
      Advance schedule run .draining run.fired
        [.waiting (run.running.length + run.finished.length)]
  | allCollected (phase : run.phase = .collecting) (finished : run.finished = []) :
      Advance schedule run .checking run.fired []
  | stop (phase : run.phase = .draining) (finished : run.finished = [])
      (running : run.running = []) :
      Advance schedule run .returned run.fired [.schedulerStopped run.summary]

/-- What one action can do to a run. -/
inductive Transition (schedule : Schedule) (work : Work σ τ ε) (run : Run σ τ ε) :
    Action → Run σ τ ε → Prop
  /-- The ticker moves on without touching a tick. -/
  | advance {phase : Phase} {fired : Nat} {events : List Event}
      (move : Advance schedule run phase fired events) :
      Transition schedule work run .ticker
        { run with
          phase
          fired
          journal := run.journalWith (events.map Entry.logged) }
  /-- The ticker gets a permit. -/
  | takePermit (phase : run.phase = .awaitingPermit) (uncancelled : run.cancelled = false)
      (free : 0 < run.free) :
      Transition schedule work run .ticker
        { run with phase := .holdingPermit, free := run.free - 1 }
  /-- The ticker calls the next tick and puts it in flight. -/
  | call {effect : Effect σ ε} {state : τ} (phase : run.phase = .holdingPermit)
      (called : work.call (run.summary.ticks + 1) run.now run.shared = (effect, .ok state)) :
      Transition schedule work run .ticker
        { run with
          phase := .collecting
          cancelled := run.cancelled || effect.cancels
          running := run.running ++ [(run.summary.ticks + 1, state)]
          summary := run.summary.fire
          shared := effect.shared
          journal := run.journalWith (.called (run.summary.ticks + 1) run.now ::
            effect.acts.map (Entry.did (run.summary.ticks + 1))) }
  /-- The call of the next tick panics and takes the run with it. -/
  | callPanics {effect : Effect σ ε} {message : String} (phase : run.phase = .holdingPermit)
      (called : work.call (run.summary.ticks + 1) run.now run.shared =
        (effect, .error message)) :
      Transition schedule work run .ticker
        { run with
          phase := .aborted message
          free := run.free + run.running.length + 1
          cancelled := run.cancelled || effect.cancels
          running := []
          summary := run.summary.fire
          shared := effect.shared
          journal := run.journalWith (.called (run.summary.ticks + 1) run.now ::
            (effect.acts.map (Entry.did (run.summary.ticks + 1)) ++
              abortNotes work run.now run.running)) }
  /-- The ticker records a finished tick. -/
  | collect {index tick : Nat} {how : Ending}
      (phase : run.phase = .collecting ∨ run.phase = .draining)
      (found : run.finished[index]? = some (tick, how)) :
      Transition schedule work run (.collect index)
        { run with
          finished := run.finished.eraseIdx index
          summary := run.summary.record how
          journal := run.journalWith (recordNotes tick how) }
  /-- A poll brings a tick to its own ending. -/
  | finish {tick : Nat} {state : τ} {effect : Effect σ ε} {status : Status τ} {how : Ending}
      (running : run.running.lookup tick = some state)
      (polled : work.poll tick run.now run.shared state = (effect, status))
      (ending : status.ending? = some how) :
      Transition schedule work run (.poll tick)
        { run with
          free := run.free + 1
          cancelled := run.cancelled || effect.cancels
          running := run.running.filter fun entry => entry.1 != tick
          finished := run.finished ++ [(tick, how)]
          shared := effect.shared
          journal := run.journalWith
            (effect.acts.map (Entry.did tick) ++ [.ended tick run.now how]) }
  /-- A poll leaves a tick pending and the token drops it. -/
  | drop {tick : Nat} {state next : τ} {effect : Effect σ ε}
      (running : run.running.lookup tick = some state)
      (polled : work.poll tick run.now run.shared state = (effect, .pending next))
      (fired : (run.cancelled || effect.cancels) = true) :
      Transition schedule work run (.poll tick)
        { run with
          free := run.free + 1
          cancelled := true
          running := run.running.filter fun entry => entry.1 != tick
          finished := run.finished ++ [(tick, .dropped)]
          shared := effect.shared
          journal := run.journalWith ((effect.acts ++ work.drop next).map (Entry.did tick) ++
            [.ended tick run.now .dropped]) }
  /-- A poll leaves a tick pending. -/
  | keep {tick : Nat} {state next : τ} {effect : Effect σ ε}
      (running : run.running.lookup tick = some state)
      (polled : work.poll tick run.now run.shared state = (effect, .pending next))
      (unfired : (run.cancelled || effect.cancels) = false) :
      Transition schedule work run (.poll tick)
        { run with
          running := run.running.map fun entry =>
            if entry.1 = tick then (tick, next) else entry
          shared := effect.shared
          journal := run.journalWith (effect.acts.map (Entry.did tick)) }
  /-- The cancellation token fires. -/
  | cancel : Transition schedule work run .cancel
      { run with cancelled := true, journal := run.journalWith run.cancelNotes }
  /-- Time passes. -/
  | wait {instant : Nat} (later : run.now ≤ instant) :
      Transition schedule work run (.wait instant) { run with now := instant }

/-! ## The end of a run -/

section Return

variable {schedule : Schedule} {work : Work σ τ ε} {run next : Run σ τ ε}

/-- A run returns by the ticker's last move. -/
theorem Transition.stops_or_stays {action : Action}
    (h : Transition schedule work run action next) (hphase : next.phase = .returned) :
    run.phase = .returned ∨
      (run.finished = [] ∧ run.running = [] ∧
        next = { run with
          phase := .returned
          journal := run.journalWith [.logged (.schedulerStopped run.summary)] }) := by
  cases h with
  | advance move =>
      cases move with
      | stop phase finished running => exact Or.inr ⟨finished, running, rfl⟩
      | _ => cases hphase
  | takePermit phase uncancelled free => cases hphase
  | call phase called => cases hphase
  | callPanics phase called => cases hphase
  | _ => exact Or.inl hphase

/-- A run that is over takes no note of the token. -/
theorem journalWith_cancelNotes_of_isOver (h : run.phase.isOver = true) :
    run.journalWith run.cancelNotes = run.journal := by
  rw [cancelNotes, h, Bool.or_true, if_pos rfl]
  exact Array.append_empty

/-- Nothing but the token and the clock moves after a run returned. -/
theorem Transition.after_return {action : Action}
    (h : Transition schedule work run action next) (hphase : run.phase = .returned)
    (hrunning : run.running = []) :
    next = { run with cancelled := next.cancelled, now := next.now } := by
  cases h with
  | advance move =>
      cases move <;> simp_all
  | cancel => rw [journalWith_cancelNotes_of_isOver (by rw [hphase]; rfl)]
  | wait later => rfl
  | _ => simp_all

end Return

/-! ## From actions to transitions -/

variable {schedule : Schedule} {work : Work σ τ ε} {run next : Run σ τ ε}

theorem Transition.of_eq {action : Action} {other : Run σ τ ε}
    (h : Transition schedule work run action other) (same : next = other) :
    Transition schedule work run action next :=
  same ▸ h

theorem transition_callNext (phase : run.phase = .holdingPermit) :
    Transition schedule work run .ticker (run.callNext work) := by
  rcases hcall : work.call (run.summary.ticks + 1) run.now run.shared with ⟨effect, reply⟩
  cases reply with
  | ok state =>
      refine (Transition.call phase hcall).of_eq ?_
      simp [callNext, announce, launch, noteEffect, hcall, journalWith]
  | error message =>
      refine (Transition.callPanics phase hcall).of_eq ?_
      simp [callNext, announce, launch, noteEffect, abort, abortNotes, hcall, journalWith]
      exact Array.ext' (by simp)

theorem transition_of_ticker (ready : run.tickerReady schedule = true) :
    Transition schedule work run .ticker (run.tickerMove schedule work) := by
  cases phase : run.phase with
  | checking =>
      cases limit : schedule.limitReached run.summary.ticks with
      | true =>
          refine (Transition.advance (.reachLimit phase limit)).of_eq ?_
          simp [tickerMove, phase, limit, log, drain, journalWith]
      | false =>
          refine (Transition.advance (.goOn phase limit)).of_eq ?_
          simp [tickerMove, phase, limit, journalWith]
  | awaitingTimer =>
      cases cancelled : run.cancelled with
      | true =>
          refine (Transition.advance (.stopAtTimer phase cancelled)).of_eq ?_
          simp [tickerMove, phase, cancelled, log, drain, journalWith]
      | false =>
          have due : schedule.dueAt run.origin run.fired ≤ run.now := by
            simpa [tickerReady, phase, cancelled] using ready
          refine (Transition.advance (.timerFires phase cancelled due)).of_eq ?_
          simp [tickerMove, phase, cancelled, journalWith]
  | awaitingPermit =>
      cases cancelled : run.cancelled with
      | true =>
          refine (Transition.advance (.stopAtPool phase cancelled)).of_eq ?_
          simp [tickerMove, phase, cancelled, log, drain, journalWith]
      | false =>
          have free : 0 < run.free := by
            simpa [tickerReady, phase, cancelled] using ready
          refine (Transition.takePermit phase cancelled free).of_eq ?_
          simp [tickerMove, phase, cancelled]
  | holdingPermit =>
      refine (transition_callNext phase).of_eq ?_
      simp [tickerMove, phase]
  | collecting =>
      have finished : run.finished = [] := by
        simpa [tickerReady, phase] using ready
      refine (Transition.advance (.allCollected phase finished)).of_eq ?_
      simp [tickerMove, phase, journalWith]
  | draining =>
      have idle : run.finished = [] ∧ run.running = [] := by
        simpa [tickerReady, phase] using ready
      refine (Transition.advance (.stop phase idle.1 idle.2)).of_eq ?_
      simp [tickerMove, phase, log, journalWith]
  | returned => simp [tickerReady, phase] at ready
  | aborted message => simp [tickerReady, phase] at ready

theorem transition_of_collect {index : Nat} (h : run.collect? index = some next) :
    Transition schedule work run (.collect index) next := by
  simp only [collect?] at h
  split at h
  · rename_i phase
    obtain ⟨⟨tick, how⟩, found, rfl⟩ := Option.map_eq_some_iff.1 h
    refine (Transition.collect phase found).of_eq ?_
    cases how <;> simp [recordEnding, recordNotes, endingEvents, log, journalWith]
  · cases h

theorem transition_of_poll {tick : Nat} (h : run.pollTick? work tick = some next) :
    Transition schedule work run (.poll tick) next := by
  obtain ⟨state, running, rfl⟩ := Option.map_eq_some_iff.1 h
  rcases polled : work.poll tick run.now run.shared state with ⟨effect, status⟩
  cases status with
  | returned outcome =>
      refine (Transition.finish running polled rfl).of_eq ?_
      simp [takePoll, noteEffect, finish, journalWith]
      exact Array.ext' (by simp)
  | panicked message =>
      refine (Transition.finish running polled rfl).of_eq ?_
      simp [takePoll, noteEffect, finish, journalWith]
      exact Array.ext' (by simp)
  | pending state' =>
      cases fired : (run.cancelled || effect.cancels) with
      | true =>
          refine (Transition.drop running polled fired).of_eq ?_
          simp [takePoll, noteEffect, fired, dropTick, finish, journalWith]
          exact Array.ext' (by simp)
      | false =>
          refine (Transition.keep running polled fired).of_eq ?_
          simp_all [takePoll, noteEffect, keepTick, journalWith]

/-- Whatever an action does to a run is a transition. -/
theorem transition_of_step {action : Action}
    (h : run.step? schedule work action = some next) :
    Transition schedule work run action next := by
  cases action with
  | ticker =>
      simp only [step?] at h
      split at h
      · rename_i ready
        cases h
        exact transition_of_ticker ready
      · cases h
  | collect index => exact transition_of_collect h
  | poll tick => exact transition_of_poll h
  | cancel =>
      cases h
      exact .cancel
  | wait instant =>
      simp only [step?] at h
      split at h
      · rename_i later
        cases h
        exact .wait later
      · cases h

/-! ## Runs that can be reached -/

theorem steps?_cons_eq_some_iff {action : Action} {rest : List Action} {last : Run σ τ ε} :
    run.steps? schedule work (action :: rest) = some last ↔
      ∃ middle, run.step? schedule work action = some middle ∧
        middle.steps? schedule work rest = some last := by
  rw [steps?, Option.bind_eq_some_iff]

theorem steps?_append (first second : List Action) (run : Run σ τ ε) :
    run.steps? schedule work (first ++ second) =
      (run.steps? schedule work first).bind (steps? schedule work second) := by
  induction first generalizing run with
  | nil => rfl
  | cons action rest ih =>
      rw [List.cons_append, steps?, steps?, Option.bind_assoc]
      congr 1
      funext middle
      exact ih middle

theorem Leads.refl (run : Run σ τ ε) : run.Leads schedule work run :=
  ⟨[], rfl⟩

theorem Leads.step {first : Run σ τ ε} {action : Action} (h : first.Leads schedule work run)
    (hstep : run.step? schedule work action = some next) :
    first.Leads schedule work next := by
  obtain ⟨actions, hactions⟩ := h
  refine ⟨actions ++ [action], ?_⟩
  rw [steps?_append, hactions, Option.bind_some]
  exact steps?_cons_eq_some_iff.mpr ⟨next, hstep, rfl⟩

/-- What holds at first and is kept by every step holds ever after. -/
@[elab_as_elim]
theorem Leads.induction_step {motive : Run σ τ ε → Prop} {first last : Run σ τ ε}
    (h : first.Leads schedule work last) (base : motive first)
    (keep : ∀ {run action next}, first.Leads schedule work run →
      run.step? schedule work action = some next → motive run → motive next) :
    motive last := by
  obtain ⟨actions, hactions⟩ := h
  -- The induction goes forward, so the state already passed is part of the hypothesis.
  suffices hforward : ∀ (actions : List Action) (run : Run σ τ ε),
      first.Leads schedule work run → motive run →
        run.steps? schedule work actions = some last → motive last from
    hforward actions first (Leads.refl first) base hactions
  intro actions
  induction actions with
  | nil =>
      intro run _ hrun hlast
      cases hlast
      exact hrun
  | cons action rest ih =>
      intro run hleads hrun hlast
      obtain ⟨middle, hstep, hrest⟩ := steps?_cons_eq_some_iff.mp hlast
      exact ih middle (hleads.step hstep) (keep hleads hstep hrun) hrest

/-- What holds at first and is kept by every transition holds ever after. -/
@[elab_as_elim]
theorem Leads.induction {motive : Run σ τ ε → Prop} {first last : Run σ τ ε}
    (h : first.Leads schedule work last) (base : motive first)
    (keep : ∀ {run action next}, first.Leads schedule work run →
      Transition schedule work run action next → motive run → motive next) :
    motive last :=
  h.induction_step base fun hleads hstep => keep hleads (transition_of_step hstep)

/-- One run can become another by way of runs all of which have a property. -/
inductive LeadsThrough (schedule : Schedule) (work : Work σ τ ε) (kept : Run σ τ ε → Prop)
    (first : Run σ τ ε) : Run σ τ ε → Prop
  | refl (here : kept first) : LeadsThrough schedule work kept first first
  | step {run next : Run σ τ ε} {action : Action}
      (before : LeadsThrough schedule work kept first run)
      (taken : run.step? schedule work action = some next) (here : kept next) :
      LeadsThrough schedule work kept first next

theorem LeadsThrough.leads {kept : Run σ τ ε → Prop} {first : Run σ τ ε}
    (h : LeadsThrough schedule work kept first run) : first.Leads schedule work run := by
  induction h with
  | refl here => exact .refl first
  | step before taken here ih => exact ih.step taken

theorem LeadsThrough.kept {kept : Run σ τ ε → Prop} {first : Run σ τ ε}
    (h : LeadsThrough schedule work kept first run) : kept run := by
  cases h with
  | refl here => exact here
  | step before taken here => exact here

/-- A run that the scheduler can come to, begun at any instant, with the token fired before or
not, and with any shared state. -/
def Reachable (schedule : Schedule) (work : Work σ τ ε) (run : Run σ τ ε) : Prop :=
  ∃ now cancelled shared, (start schedule now cancelled shared).Leads schedule work run

theorem Reachable.of_steps {first : Run σ τ ε} {actions : List Action}
    (h : first.Reachable schedule work)
    (hsteps : first.steps? schedule work actions = some next) :
    next.Reachable schedule work := by
  obtain ⟨now, cancelled, shared, earlier, hearlier⟩ := h
  refine ⟨now, cancelled, shared, earlier ++ actions, ?_⟩
  rw [steps?_append, hearlier, Option.bind_some, hsteps]

theorem Reachable.step {action : Action} (h : run.Reachable schedule work)
    (hstep : run.step? schedule work action = some next) : next.Reachable schedule work := by
  have hsteps : run.steps? schedule work [action] = some next :=
    steps?_cons_eq_some_iff.mpr ⟨next, hstep, rfl⟩
  exact h.of_steps hsteps

/-- What holds of every run about to begin and is kept by every transition holds of every
reachable run. -/
@[elab_as_elim]
theorem Reachable.induction {motive : Run σ τ ε → Prop}
    (h : run.Reachable schedule work)
    (base : ∀ now cancelled shared, motive (start schedule now cancelled shared))
    (keep : ∀ {run action next}, run.Reachable schedule work →
      Transition schedule work run action next → motive run → motive next) :
    motive run := by
  obtain ⟨now, cancelled, shared, hleads⟩ := h
  exact hleads.induction (base now cancelled shared)
    fun hrun => keep ⟨now, cancelled, shared, hrun⟩

end Run

end OrderFlow
