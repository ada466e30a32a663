import OrderFlow.Proofs.Scheduler.Pool
import OrderFlow.Simulation

/-!
# Cancellation

Once the token has fired no tick is called any more, each tick in flight is polled
at most once more and leaves with its own ending or as dropped, and when all of them
were polled the ticker needs only so many moves to return.  The one gap is the move
between getting a permit and calling a tick: a token that fires there comes too late
for that tick.  A poll of the ticker does not pause there, which is all of a poll's
atomicity that matters; `Run.AtomicallyReachable` allows every run without that pause.
-/

namespace OrderFlow

variable {σ τ ε : Type}

/-- How a tick ends whose poll came to a status after the token fired: in its own way if it is
done, and as dropped if not. -/
def Status.endingOnceFired (status : Status τ) : Ending :=
  status.ending?.getD .dropped

/-- A bound on the moves that the ticker needs from a phase to its return, once the token has
fired and no tick is in flight or unrecorded. -/
def Phase.movesToReturn : Phase → Nat
  | .collecting => 4
  | .checking => 3
  | .awaitingTimer => 2
  | .awaitingPermit => 2
  | .draining => 1
  | _ => 0

theorem Phase.movesToReturn_le (phase : Phase) : phase.movesToReturn ≤ 4 := by
  cases phase <;> simp [movesToReturn]

namespace Run

variable {schedule : Schedule} {work : Work σ τ ε} {run next first last : Run σ τ ε}

/-! ## Runs in which the ticker does not pause with a permit -/

/-- What an action does to a run, if it can happen and does not come between a permit and the
call it is for. -/
def atomicStep? (schedule : Schedule) (work : Work σ τ ε) (action : Action)
    (run : Run σ τ ε) : Option (Run σ τ ε) :=
  if run.phase = .holdingPermit ∧ action ≠ .ticker then none
  else run.step? schedule work action

/-- What some actions, one after the other, do to a run, if none of them comes between a permit
and its call. -/
def atomicSteps? (schedule : Schedule) (work : Work σ τ ε) :
    List Action → Run σ τ ε → Option (Run σ τ ε)
  | [], run => some run
  | action :: rest, run =>
      (run.atomicStep? schedule work action).bind (atomicSteps? schedule work rest)

/-- A run that the scheduler can come to when no poll of the ticker pauses between a permit and
the call it is for. -/
def AtomicallyReachable (schedule : Schedule) (work : Work σ τ ε) (run : Run σ τ ε) : Prop :=
  ∃ now cancelled shared actions,
    (start schedule now cancelled shared).atomicSteps? schedule work actions = some run

theorem step?_of_atomicStep? {action : Action}
    (h : run.atomicStep? schedule work action = some next) :
    run.step? schedule work action = some next ∧
      (run.phase = .holdingPermit → action = .ticker) := by
  unfold atomicStep? at h
  split at h
  · cases h
  · rename_i hguard
    refine ⟨h, fun hphase => ?_⟩
    by_contra haction
    exact hguard ⟨hphase, haction⟩

theorem steps?_of_atomicSteps? {actions : List Action}
    (h : first.atomicSteps? schedule work actions = some last) :
    first.steps? schedule work actions = some last := by
  induction actions generalizing first with
  | nil => exact h
  | cons action rest ih =>
      obtain ⟨middle, hstep, hrest⟩ := Option.bind_eq_some_iff.mp h
      exact steps?_cons_eq_some_iff.mpr
        ⟨middle, (step?_of_atomicStep? hstep).1, ih hrest⟩

theorem AtomicallyReachable.reachable (h : run.AtomicallyReachable schedule work) :
    run.Reachable schedule work := by
  obtain ⟨now, cancelled, shared, actions, hactions⟩ := h
  exact ⟨now, cancelled, shared, actions, steps?_of_atomicSteps? hactions⟩

theorem uncancelled_step {action : Action} (h : Transition schedule work run action next)
    (hguard : run.phase = .holdingPermit → action = .ticker) :
    next.phase = .holdingPermit → next.cancelled = false := by
  intro hphase
  cases h with
  | advance move => cases move <;> cases hphase
  | takePermit phase uncancelled free => exact uncancelled
  | call phase called => cases hphase
  | callPanics phase called => cases hphase
  | collect phase found =>
      rcases phase with phase | phase <;> simp [phase] at hphase
  | _ => cases hguard hphase

/-- The ticker holds a permit only while the token has not fired. -/
theorem AtomicallyReachable.uncancelled_of_holdingPermit
    (h : run.AtomicallyReachable schedule work) :
    run.phase = .holdingPermit → run.cancelled = false := by
  obtain ⟨now, cancelled, shared, actions, hactions⟩ := h
  suffices hforward : ∀ (actions : List Action) (first : Run σ τ ε),
      (first.phase = .holdingPermit → first.cancelled = false) →
        first.atomicSteps? schedule work actions = some run →
          run.phase = .holdingPermit → run.cancelled = false from
    hforward actions _ (fun hphase => by cases hphase) hactions
  intro actions
  induction actions with
  | nil =>
      intro first hfirst hrun
      cases hrun
      exact hfirst
  | cons action rest ih =>
      intro first _ hrun
      obtain ⟨middle, hstep, hrest⟩ := Option.bind_eq_some_iff.mp hrun
      obtain ⟨hstep', hguard⟩ := step?_of_atomicStep? hstep
      exact ih middle (uncancelled_step (transition_of_step hstep') hguard) hrest

/-! ## Once the token has fired -/

/-- The token has fired and no permit is on its way to a call. -/
structure Stopping (run : Run σ τ ε) : Prop where
  cancelled : run.cancelled = true
  parted : run.phase ≠ .holdingPermit

theorem AtomicallyReachable.stopping (h : run.AtomicallyReachable schedule work)
    (hcancelled : run.cancelled = true) : Stopping run := by
  refine ⟨hcancelled, fun hphase => ?_⟩
  rw [h.uncancelled_of_holdingPermit hphase] at hcancelled
  cases hcancelled

/-- What any one action leaves as it is once the token has fired. -/
structure Stopping.Kept (run next : Run σ τ ε) : Prop where
  stopping : Stopping next
  ticks : next.summary.ticks = run.summary.ticks
  called : Entry.calledIn next.entries = Entry.calledIn run.entries
  aborted : next.phase.isAborted = run.phase.isAborted
  journal : ∃ notes, next.entries = run.entries ++ notes

theorem Stopping.step {action : Action} (h : Stopping run)
    (htransition : Transition schedule work run action next) : Stopping.Kept run next := by
  obtain ⟨hcancelled, hparted⟩ := h
  have hjournal := htransition.entries_append
  cases htransition with
  | advance move =>
      obtain ⟨hbefore, hafter⟩ := move.not_aborted
      refine ⟨⟨hcancelled, ?_⟩, rfl, by simp, by rw [hbefore, hafter], hjournal⟩
      cases move <;> simp
  | takePermit phase uncancelled free =>
      rw [hcancelled] at uncancelled
      cases uncancelled
  | call phase called => exact absurd phase hparted
  | callPanics phase called => exact absurd phase hparted
  | collect phase found =>
      exact ⟨⟨hcancelled, hparted⟩, by simp, by simp, rfl, hjournal⟩
  | finish running polled ending =>
      exact ⟨⟨by simp [hcancelled], hparted⟩, rfl, by simp, rfl, hjournal⟩
  | drop running polled fired =>
      exact ⟨⟨rfl, hparted⟩, rfl, by simp, rfl, hjournal⟩
  | keep running polled unfired => simp [hcancelled] at unfired
  | cancel => exact ⟨⟨rfl, hparted⟩, rfl, by simp, rfl, hjournal⟩
  | wait later => exact ⟨⟨hcancelled, hparted⟩, rfl, rfl, rfl, hjournal⟩

/-- A poll once the token has fired ends the tick, in its own way if it can. -/
theorem Stopping.poll {tick : Nat} (h : Stopping run)
    (htransition : Transition schedule work run (.poll tick) next) :
    ∃ state effect status, run.running.lookup tick = some state ∧
      work.poll tick run.now run.shared state = (effect, status) ∧
      (tick, status.endingOnceFired) ∈ Entry.endedIn next.entries ∧
      next.running = run.running.filter fun entry => entry.1 != tick := by
  cases htransition with
  | finish running polled ending =>
      refine ⟨_, _, _, running, polled, ?_, rfl⟩
      simp [Status.endingOnceFired, ending]
  | drop running polled fired =>
      refine ⟨_, _, _, running, polled, ?_, rfl⟩
      simp [Status.endingOnceFired, Status.ending?]
  | keep running polled unfired => simp [h.cancelled] at unfired

/-- Only a poll ends a tick once the token has fired. -/
theorem Stopping.running_of_not_poll {action : Action} (h : Stopping run)
    (htransition : Transition schedule work run action next)
    (haction : ∀ tick, action ≠ .poll tick) : next.running = run.running := by
  cases htransition with
  | call phase called => exact absurd phase h.parted
  | callPanics phase called => exact absurd phase h.parted
  | finish running polled ending => exact absurd rfl (haction _)
  | drop running polled fired => exact absurd rfl (haction _)
  | keep running polled unfired => exact absurd rfl (haction _)
  | _ => rfl

/-- What all later actions leave as it is. -/
theorem Stopping.steps {actions : List Action} (h : Stopping first)
    (hsteps : first.steps? schedule work actions = some last) : Stopping.Kept first last := by
  induction actions generalizing first with
  | nil =>
      cases hsteps
      exact ⟨h, rfl, rfl, rfl, [], (List.append_nil _).symm⟩
  | cons action rest ih =>
      obtain ⟨middle, hstep, hrest⟩ := steps?_cons_eq_some_iff.mp hsteps
      have hmiddle := h.step (transition_of_step hstep)
      have hlast := ih hmiddle.stopping hrest
      obtain ⟨notes, hnotes⟩ := hmiddle.journal
      obtain ⟨more, hmore⟩ := hlast.journal
      refine ⟨hlast.stopping, hlast.ticks.trans hmiddle.ticks,
        hlast.called.trans hmiddle.called, hlast.aborted.trans hmiddle.aborted,
        notes ++ more, ?_⟩
      rw [hmore, hnotes, List.append_assoc]

/-- The ticks still in flight are those in flight at first that were not polled. -/
theorem Stopping.running_eq_filter {actions : List Action} (h : Stopping first)
    (hsteps : first.steps? schedule work actions = some last) :
    last.running = first.running.filter fun entry => .poll entry.1 ∉ actions := by
  induction actions generalizing first with
  | nil =>
      cases hsteps
      simp
  | cons action rest ih =>
      obtain ⟨middle, hstep, hrest⟩ := steps?_cons_eq_some_iff.mp hsteps
      have htransition := transition_of_step hstep
      rw [ih (h.step htransition).stopping hrest]
      by_cases hpoll : ∃ tick, action = .poll tick
      · obtain ⟨tick, rfl⟩ := hpoll
        obtain ⟨state, effect, status, _, _, _, hrunning⟩ := h.poll htransition
        rw [hrunning, List.filter_filter]
        apply List.filter_congr
        intro entry _
        by_cases heq : entry.1 = tick
        · simp [heq]
        · simp [heq]
      · have haction : ∀ tick, action ≠ .poll tick := fun tick heq => hpoll ⟨tick, heq⟩
        rw [h.running_of_not_poll htransition haction]
        apply List.filter_congr
        intro entry _
        simp [Ne.symm (haction entry.1)]

theorem lookup_filter_fst (p : Nat → Bool) (running : List (Nat × τ)) (tick : Nat) :
    (running.filter fun entry => p entry.1).lookup tick =
      if p tick then running.lookup tick else none := by
  induction running with
  | nil => simp
  | cons entry rest ih =>
      obtain ⟨number, state⟩ := entry
      by_cases hnumber : tick = number
      · subst hnumber
        cases hp : p tick with
        | true => simp [hp]
        | false => simpa [hp] using ih
      · have hlookup : ∀ others : List (Nat × τ),
            ((number, state) :: others).lookup tick = others.lookup tick := by
          intro others
          rw [List.lookup_cons, beq_false_of_ne hnumber]
        rw [hlookup, ← ih]
        cases hp : p number with
        | true => simp only [hp, List.filter_cons_of_pos, hlookup]
        | false => simp [hp]

theorem Stopping.lookup_eq {actions : List Action} (h : Stopping first)
    (hsteps : first.steps? schedule work actions = some last) (tick : Nat) :
    last.running.lookup tick =
      if .poll tick ∈ actions then none else first.running.lookup tick := by
  rw [h.running_eq_filter hsteps,
    lookup_filter_fst (fun number => decide (Action.poll number ∉ actions))]
  by_cases hpolled : Action.poll tick ∈ actions
  · simp [hpolled]
  · simp [hpolled]

/-! ## The last polls -/

theorem steps?_split {before after : List Action} {action : Action}
    (h : first.steps? schedule work (before ++ action :: after) = some last) :
    ∃ middle next, first.steps? schedule work before = some middle ∧
      middle.step? schedule work action = some next ∧
      next.steps? schedule work after = some last := by
  rw [steps?_append] at h
  obtain ⟨middle, hbefore, hrest⟩ := Option.bind_eq_some_iff.mp h
  obtain ⟨next, hstep, hafter⟩ := steps?_cons_eq_some_iff.mp hrest
  exact ⟨middle, next, hbefore, hstep, hafter⟩

/-- A tick that is not in flight is not polled. -/
theorem Stopping.not_polled {actions : List Action} {tick : Nat} (h : Stopping first)
    (hsteps : first.steps? schedule work actions = some last)
    (hlookup : first.running.lookup tick = none) : .poll tick ∉ actions := by
  intro hmem
  obtain ⟨before, after, rfl⟩ := List.append_of_mem hmem
  obtain ⟨middle, next, hbefore, hstep, _⟩ := steps?_split hsteps
  have hmiddle := (h.steps hbefore).stopping
  obtain ⟨state, effect, status, hstate, _⟩ := hmiddle.poll (transition_of_step hstep)
  rw [h.lookup_eq hbefore, hlookup, ite_self] at hstate
  cases hstate

/-- No tick is polled twice. -/
theorem Stopping.count_poll_le {actions : List Action} (h : Stopping first)
    (hsteps : first.steps? schedule work actions = some last) (tick : Nat) :
    actions.count (.poll tick) ≤ 1 := by
  by_cases hmem : .poll tick ∈ actions
  · obtain ⟨before, after, rfl, hbefore⟩ := List.eq_append_cons_of_mem hmem
    obtain ⟨middle, next, hmiddle, hstep, hafter⟩ := steps?_split hsteps
    have hstopping := (h.steps hmiddle).stopping
    have htransition := transition_of_step hstep
    obtain ⟨_, _, _, _, _, _, hrunning⟩ := hstopping.poll htransition
    have hgone : next.running.lookup tick = none := by
      rw [hrunning, lookup_filter_fst (· != tick)]
      simp
    have hnot := (hstopping.step htransition).stopping.not_polled hafter hgone
    simp [List.count_append, List.count_eq_zero_of_not_mem, hbefore, hnot]
  · rw [List.count_eq_zero_of_not_mem hmem]
    exact Nat.zero_le 1

/-- A tick ends in one way only. -/
theorem Reachable.ending_unique {tick : Nat} {how other : Ending}
    (h : run.Reachable schedule work) (haborted : run.phase.isAborted = false)
    (hhow : (tick, how) ∈ Entry.endedIn run.entries)
    (hother : (tick, other) ∈ Entry.endedIn run.entries) : other = how := by
  have hnodup := (h.settled.called haborted).nodup_iff.mp h.nodup_called
  have hended := (List.nodup_append.mp hnodup).1
  have hsame := List.inj_on_of_nodup_map hended hother hhow rfl
  exact congrArg Prod.snd hsame

/-- Where a tick was polled it left in its own way if it could, and is recorded so. -/
theorem Stopping.outcome {before after : List Action} {tick : Nat} (h : Stopping first)
    (hreachable : first.Reachable schedule work)
    (hsteps : first.steps? schedule work (before ++ .poll tick :: after) = some last) :
    ∃ middle state effect status, first.steps? schedule work before = some middle ∧
      first.running.lookup tick = some state ∧
      work.poll tick middle.now middle.shared state = (effect, status) ∧
      (∀ how, (tick, how) ∈ Entry.recordedIn last.entries → how = status.endingOnceFired) ∧
      (last.phase = .returned →
        (tick, status.endingOnceFired) ∈ Entry.recordedIn last.entries) := by
  have hlast := hreachable.of_steps hsteps
  obtain ⟨middle, next, hbefore, hstep, hafter⟩ := steps?_split hsteps
  have hmiddle := (h.steps hbefore).stopping
  have htransition := transition_of_step hstep
  obtain ⟨state, effect, status, hstate, hpolled, hended, _⟩ := hmiddle.poll htransition
  have hfirst : first.running.lookup tick = some state := by
    rw [h.lookup_eq hbefore] at hstate
    split at hstate
    · cases hstate
    · exact hstate
  have haborted : last.phase.isAborted = false := by
    rw [(h.steps hsteps).aborted]
    exact hreachable.settled.not_aborted hfirst
  have hended' : (tick, status.endingOnceFired) ∈ Entry.endedIn last.entries := by
    obtain ⟨notes, hnotes⟩ := ((hmiddle.step htransition).stopping.steps hafter).journal
    rw [hnotes]
    exact Entry.mem_seen_append_left hended notes
  refine ⟨middle, state, effect, status, hbefore, hfirst, hpolled, ?_, ?_⟩
  · intro how hrecorded
    exact hlast.ending_unique haborted hended' (hlast.recorded.ended _ hrecorded)
  · intro hphase
    have hperm := hlast.settled.ended haborted
    rw [(hlast.idle_of_returned hphase).1, List.append_nil] at hperm
    exact hperm.mem_iff.mp hended'

/-- A tick that had ended keeps its ending. -/
theorem Stopping.keeps_ending {actions : List Action} {tick : Nat} {how other : Ending}
    (h : Stopping first) (hreachable : first.Reachable schedule work)
    (haborted : first.phase.isAborted = false)
    (hsteps : first.steps? schedule work actions = some last)
    (hended : (tick, how) ∈ Entry.endedIn first.entries)
    (hrecorded : (tick, other) ∈ Entry.recordedIn last.entries) : other = how := by
  have hlast := hreachable.of_steps hsteps
  have hkept := h.steps hsteps
  obtain ⟨notes, hnotes⟩ := hkept.journal
  have hended' : (tick, how) ∈ Entry.endedIn last.entries := by
    rw [hnotes]
    exact Entry.mem_seen_append_left hended notes
  exact hlast.ending_unique (hkept.aborted.trans haborted) hended'
    (hlast.recorded.ended _ hrecorded)

/-! ## The way to the return -/

/-- A bound on the moves that the ticker needs to return when no tick is in flight. -/
def movesLeft (run : Run σ τ ε) : Nat :=
  run.finished.length + run.phase.movesToReturn

theorem Advance.movesToReturn_lt {phase : Phase} {fired : Nat} {events : List Event}
    (move : Advance schedule run phase fired events) (hcancelled : run.cancelled = true) :
    phase.movesToReturn < run.phase.movesToReturn := by
  cases move with
  | timerFires phase uncancelled due =>
      rw [hcancelled] at uncancelled
      cases uncancelled
  | _ => simp [‹run.phase = _›, Phase.movesToReturn]

/-- Every move of the ticker brings it nearer to its return, and nothing takes it back. -/
theorem Stopping.movesLeft_step {action : Action} (h : Stopping run)
    (hrunning : run.running = []) (htransition : Transition schedule work run action next) :
    next.running = [] ∧
      movesLeft next + [action].countP Action.isTickers ≤ movesLeft run := by
  obtain ⟨hcancelled, hparted⟩ := h
  cases htransition with
  | advance move =>
      have hnearer := move.movesToReturn_lt hcancelled
      refine ⟨hrunning, ?_⟩
      simp only [movesLeft, List.countP_singleton, Action.isTickers, if_true]
      omega
  | takePermit phase uncancelled free =>
      rw [hcancelled] at uncancelled
      cases uncancelled
  | call phase called => exact absurd phase hparted
  | callPanics phase called => exact absurd phase hparted
  | @collect index tick how phase found =>
      refine ⟨hrunning, ?_⟩
      obtain ⟨hindex, _⟩ := List.getElem?_eq_some_iff.mp found
      have hlength := List.length_eraseIdx_of_lt hindex
      simp only [movesLeft, hlength, List.countP_singleton, Action.isTickers, if_true]
      omega
  | finish running polled ending =>
      rw [hrunning] at running
      cases running
  | drop running polled fired =>
      rw [hrunning] at running
      cases running
  | keep running polled unfired =>
      rw [hrunning] at running
      cases running
  | cancel => exact ⟨hrunning, Nat.le_refl _⟩
  | wait later => exact ⟨hrunning, Nat.le_refl _⟩

theorem Stopping.movesLeft_steps {actions : List Action} (h : Stopping first)
    (hrunning : first.running = [])
    (hsteps : first.steps? schedule work actions = some last) :
    last.running = [] ∧
      movesLeft last + actions.countP Action.isTickers ≤ movesLeft first := by
  induction actions generalizing first with
  | nil =>
      cases hsteps
      exact ⟨hrunning, Nat.le_refl _⟩
  | cons action rest ih =>
      obtain ⟨middle, hstep, hrest⟩ := steps?_cons_eq_some_iff.mp hsteps
      have htransition := transition_of_step hstep
      obtain ⟨hmiddle, hmoves⟩ := h.movesLeft_step hrunning htransition
      obtain ⟨hlast, hleft⟩ := ih (h.step htransition).stopping hmiddle hrest
      refine ⟨hlast, ?_⟩
      rw [← List.singleton_append, List.countP_append]
      omega

/-- The ticker can always move on until it has returned. -/
theorem Stopping.returned_or_ready (h : Stopping run) (hrunning : run.running = [])
    (haborted : run.phase.isAborted = false) :
    run.phase = .returned ∨
      ∃ action, action.isTickers = true ∧ (run.step? schedule work action).isSome := by
  obtain ⟨hcancelled, hparted⟩ := h
  have hticker : run.tickerReady schedule = true →
      ∃ action, action.isTickers = true ∧ (run.step? schedule work action).isSome :=
    fun hready => ⟨.ticker, rfl, by simp [step?, hready]⟩
  have hcollect : (run.phase = .collecting ∨ run.phase = .draining) → run.finished ≠ [] →
      ∃ action, action.isTickers = true ∧ (run.step? schedule work action).isSome := by
    intro hphase hfinished
    obtain ⟨record, rest, hrecord⟩ := List.exists_cons_of_ne_nil hfinished
    exact ⟨.collect 0, rfl, by simp [step?, collect?, hphase, hrecord]⟩
  cases hphase : run.phase with
  | checking => exact Or.inr (hticker (by simp [tickerReady, hphase]))
  | awaitingTimer => exact Or.inr (hticker (by simp [tickerReady, hphase, hcancelled]))
  | awaitingPermit => exact Or.inr (hticker (by simp [tickerReady, hphase, hcancelled]))
  | holdingPermit => exact absurd hphase hparted
  | collecting =>
      by_cases hfinished : run.finished = []
      · exact Or.inr (hticker (by simp [tickerReady, hphase, hfinished]))
      · exact Or.inr (hcollect (Or.inl hphase) hfinished)
  | draining =>
      by_cases hfinished : run.finished = []
      · exact Or.inr (hticker (by simp [tickerReady, hphase, hfinished, hrunning]))
      · exact Or.inr (hcollect (Or.inr hphase) hfinished)
  | returned => exact Or.inl rfl
  | aborted message => simp [hphase, Phase.isAborted] at haborted

/-! ## How many ticks are cancelled -/

/-- The ticks that ended as cancelled, recorded or not. -/
def cancelledTicks (run : Run σ τ ε) : Nat :=
  run.summary.cancelled + (run.finished.map Prod.snd).countP Ending.isCancellation

theorem cancelledTicks_collect {index tick : Nat} {how : Ending} {finished : List (Nat × Ending)}
    (found : finished[index]? = some (tick, how)) (summary : Summary) :
    (summary.record how).cancelled +
        ((finished.eraseIdx index).map Prod.snd).countP Ending.isCancellation =
      summary.cancelled + (finished.map Prod.snd).countP Ending.isCancellation := by
  obtain ⟨hindex, hfound⟩ := List.getElem?_eq_some_iff.mp found
  have hperm := (List.getElem_cons_eraseIdx_perm hindex).map Prod.snd
  have hcount := hperm.countP_eq Ending.isCancellation
  rw [hfound, List.map_cons, List.countP_cons] at hcount
  rcases how with outcome | message | _
  · cases outcome <;>
      simp [Summary.record, Summary.recordOutcome, Ending.isCancellation] at hcount ⊢ <;> omega
  · simp [Summary.record, Ending.isCancellation] at hcount ⊢
    omega
  · simp [Summary.record, Summary.recordOutcome, Ending.isCancellation] at hcount ⊢
    omega

/-- No tick of a run ended by yielding that it was cancelled. -/
def NoneGaveUp (run : Run σ τ ε) : Prop :=
  ∀ tick, (tick, .returned .cancelled) ∉ Entry.endedIn run.entries

theorem NoneGaveUp.of_append {notes : List (Entry ε)} (h : NoneGaveUp next)
    (hentries : next.entries = run.entries ++ notes) : NoneGaveUp run := by
  intro tick hmem
  apply h tick
  rw [hentries]
  exact Entry.mem_seen_append_left hmem notes

theorem isCancellation_eq_false {status : Status τ} {how : Ending}
    (ending : status.ending? = some how) (hhow : how ≠ .returned .cancelled) :
    how.isCancellation = false := by
  cases status with
  | pending next => cases ending
  | panicked message =>
      cases ending
      rfl
  | returned outcome =>
      cases ending
      cases outcome with
      | cancelled => exact absurd rfl hhow
      | _ => rfl

/-- The ticks that ended as cancelled were in flight when the token fired, all at once. -/
theorem Reachable.cancelledTicks_le (h : run.Reachable schedule work) :
    NoneGaveUp run →
      cancelledTicks run + run.phase.permitsHeld + run.running.length ≤ schedule.workers ∧
      (run.cancelled = false → cancelledTicks run = 0) := by
  refine h.induction (fun _ _ _ => ?_) ?_
  · intro _
    exact ⟨by simp [cancelledTicks, start, Phase.permitsHeld, Summary.zero], fun _ => rfl⟩
  intro run action next hreachable htransition ih hnone
  obtain ⟨notes, hnotes⟩ := htransition.entries_append
  obtain ⟨hle, hzero⟩ := ih (hnone.of_append hnotes)
  cases htransition with
  | advance move =>
      obtain ⟨hbefore, hafter⟩ := move.permitsHeld
      refine ⟨?_, hzero⟩
      simp only [cancelledTicks, hbefore, hafter] at hle ⊢
      exact hle
  | takePermit phase uncancelled free =>
      -- The one step that adds to the sum: the token has not fired, so the pool bounds it.
      have hpooled := hreachable.pooled
      have hnot := hzero uncancelled
      refine ⟨?_, hzero⟩
      simp only [cancelledTicks, phase, Phase.permitsHeld] at hpooled hnot ⊢
      omega
  | call phase called =>
      refine ⟨?_, fun huncancelled => hzero ?_⟩
      · simp only [cancelledTicks, phase, Phase.permitsHeld, Summary.fire,
          List.length_append, List.length_singleton] at hle ⊢
        omega
      · exact (Bool.or_eq_false_iff.mp huncancelled).1
  | callPanics phase called =>
      refine ⟨?_, fun huncancelled => hzero ?_⟩
      · simp only [cancelledTicks, phase, Phase.permitsHeld, Summary.fire,
          List.length_nil] at hle ⊢
        omega
      · exact (Bool.or_eq_false_iff.mp huncancelled).1
  | collect phase found =>
      have hsame := cancelledTicks_collect found run.summary
      unfold cancelledTicks at hle hzero ⊢
      simp only at hsame ⊢
      rw [hsame]
      exact ⟨hle, hzero⟩
  | @finish tick state effect status how running polled ending =>
      have hlength := hreachable.length_running_of_lookup running
      have hhow : how ≠ .returned .cancelled := by
        rintro rfl
        exact hnone tick (by simp)
      have hnot := isCancellation_eq_false ending hhow
      refine ⟨?_, fun huncancelled => ?_⟩
      · simp only [cancelledTicks, List.map_append, List.countP_append, List.map_singleton,
          List.countP_singleton, hnot, Bool.false_eq_true, if_false] at hle ⊢
        omega
      · have hbefore := hzero (Bool.or_eq_false_iff.mp huncancelled).1
        simpa [cancelledTicks, hnot] using hbefore
  | drop running polled fired =>
      -- A tick in flight becomes a cancelled one.
      have hlength := hreachable.length_running_of_lookup running
      refine ⟨?_, fun huncancelled => by cases huncancelled⟩
      simp only [cancelledTicks, List.map_append, List.countP_append, List.map_singleton,
        List.countP_singleton, Ending.isCancellation, if_true] at hle ⊢
      omega
  | keep running polled unfired =>
      refine ⟨?_, hzero⟩
      simpa [cancelledTicks] using hle
  | cancel => exact ⟨hle, fun huncancelled => by cases huncancelled⟩
  | wait later => exact ⟨hle, hzero⟩

/-- Where no poll yields that its tick was cancelled no tick of a run does. -/
theorem Reachable.noneGaveUp
    (hpoll : ∀ tick now shared state,
      (work.poll tick now shared state).2 ≠ .returned .cancelled)
    (h : run.Reachable schedule work) : NoneGaveUp run := by
  refine h.induction (fun _ _ _ _ hmem => by cases hmem) ?_
  intro run action next _ htransition ih tick hmem
  cases htransition with
  | @finish n state effect status how running polled ending =>
      have hwhere : (tick, .returned .cancelled) ∈ Entry.endedIn run.entries ∨
          tick = n ∧ .returned .cancelled = how := by
        simpa using hmem
      rcases hwhere with hbefore | ⟨rfl, rfl⟩
      · exact ih tick hbefore
      · have hnot := hpoll tick run.now run.shared state
        rw [polled] at hnot
        cases status with
        | returned outcome =>
            cases ending
            exact hnot rfl
        | _ => cases ending
  | takePermit phase uncancelled free => exact ih tick hmem
  | wait later => exact ih tick hmem
  | _ => exact ih tick (by simpa using hmem)

theorem noneGaveUp_simulation {timer : Timer} {plan : Plan} {peers : Nat → Peer}
    {run : Simulation.DeliveryRun}
    (h : run.Reachable schedule (Simulation.work timer plan peers)) : NoneGaveUp run := by
  apply h.noneGaveUp
  intro tick now generator delivery
  simp only [Simulation.work]
  unfold Delivery.status
  split
  · simp
  · simp
  · rename_i result _
    cases result <;> simp [Delivery.conclude]

/-- Cancellation is safe, whatever the ticks do and whenever the token fires.

Take any run in which the ticker does not pause with a permit and the token has fired, and
anything that happens from there.  No tick is called and none is polled twice; a tick that is
not polled stays in flight as it is; a tick that is polled, and a tick that had ended already,
is recorded with its own ending, which is to be dropped only if its poll left it pending; and
once every tick in flight was polled the ticker can always move on until it has returned, which
takes only so many moves.

Hence a run none of whose ticks yields by itself that it was cancelled, as no tick of a
simulation does, has at most as many cancelled ticks as workers, and none if the token has not
fired. -/
theorem cancellation_polls_once_and_returns :
    (∀ {σ τ ε : Type} {schedule : Schedule} {work : Work σ τ ε} {first last : Run σ τ ε}
      {actions : List Action},
      first.AtomicallyReachable schedule work → first.cancelled = true →
      first.steps? schedule work actions = some last →
        last.summary.ticks = first.summary.ticks ∧
        Entry.calledIn last.entries = Entry.calledIn first.entries ∧
        (∀ tick, actions.count (.poll tick) ≤ 1) ∧
        (∀ tick, .poll tick ∉ actions →
          last.running.lookup tick = first.running.lookup tick) ∧
        (∀ before after tick, actions = before ++ .poll tick :: after →
          ∃ middle state effect status, first.steps? schedule work before = some middle ∧
            first.running.lookup tick = some state ∧
            work.poll tick middle.now middle.shared state = (effect, status) ∧
            (∀ how, (tick, how) ∈ Entry.recordedIn last.entries →
              how = status.endingOnceFired) ∧
            (last.phase = .returned →
              (tick, status.endingOnceFired) ∈ Entry.recordedIn last.entries)) ∧
        (first.phase.isAborted = false →
          (∀ tick how other, (tick, how) ∈ Entry.endedIn first.entries →
            (tick, other) ∈ Entry.recordedIn last.entries → other = how) ∧
          ((∀ entry ∈ first.running, .poll entry.1 ∈ actions) →
            ∀ more final, last.steps? schedule work more = some final →
              more.countP Action.isTickers ≤ last.finished.length + 4 ∧
              (final.phase = .returned ∨ ∃ action, action.isTickers = true ∧
                (final.step? schedule work action).isSome)))) ∧
    (∀ {σ τ ε : Type} {schedule : Schedule} {work : Work σ τ ε} {run : Run σ τ ε},
      run.Reachable schedule work → NoneGaveUp run →
        run.summary.cancelled ≤ schedule.workers ∧
        (run.cancelled = false → run.summary.cancelled = 0)) ∧
    (∀ {timer : Timer} {plan : Plan} {peers : Nat → Peer} {schedule : Schedule}
      {run : Simulation.DeliveryRun},
      run.Reachable schedule (Simulation.work timer plan peers) → NoneGaveUp run) := by
  refine ⟨?_, ?_, noneGaveUp_simulation⟩
  · intro σ τ ε schedule work first last actions h hcancelled hsteps
    have hstopping := h.stopping hcancelled
    have hkept := hstopping.steps hsteps
    refine ⟨hkept.ticks, hkept.called, hstopping.count_poll_le hsteps, ?_, ?_, ?_⟩
    · intro tick hnot
      rw [hstopping.lookup_eq hsteps, if_neg hnot]
    · rintro before after tick rfl
      exact hstopping.outcome h.reachable hsteps
    intro haborted
    refine ⟨?_, ?_⟩
    · intro tick how other hended hrecorded
      exact hstopping.keeps_ending h.reachable haborted hsteps hended hrecorded
    · intro hpolled more final hmore
      have hrunning : last.running = [] := by
        rw [hstopping.running_eq_filter hsteps, List.filter_eq_nil_iff]
        intro entry hentry
        simpa using hpolled entry hentry
      have hlast := hkept.stopping
      have hfinal := hlast.steps hmore
      obtain ⟨hidle, hmoves⟩ := hlast.movesLeft_steps hrunning hmore
      have hbound := last.phase.movesToReturn_le
      constructor
      · simp only [movesLeft] at hmoves
        omega
      · exact hfinal.stopping.returned_or_ready hidle
          (hfinal.aborted.trans (hkept.aborted.trans haborted))
  · intro σ τ ε schedule work run h hnone
    obtain ⟨hle, hzero⟩ := h.cancelledTicks_le hnone
    simp only [cancelledTicks] at hle hzero
    constructor
    · omega
    · intro huncancelled
      have hnot := hzero huncancelled
      omega

/-- The mixed run up to the firing of the token, while the last tick is stuck. -/
def stuckRun : Run Unit Chore.Started Empty :=
  ((start mixedSchedule 0 false ()).atomicSteps? mixedSchedule mixedWork
    (mixedActions.take 33)).getD (start mixedSchedule 0 false ())

/-- The work of a simulation with batches of one order, for a peer that takes everything. -/
def singleWork : Work Generator Delivery Act :=
  Simulation.work .ideal ⟨"localhost:7000", 1, none⟩ fun _ => .engine

/-- A generator with words enough for one order. -/
def singleOrder : Generator :=
  ⟨⟨Vector.replicate 8 0, 0, [5, 6, 7, 8, 9, 10]⟩⟩

/-- The run of a simulation whose first tick was delivered. -/
def singleRun : Simulation.DeliveryRun :=
  ((start mixedSchedule 0 false singleOrder).steps? mixedSchedule singleWork
    (firing 0 ++ [.poll 1, .collect 0])).getD (start mixedSchedule 0 false singleOrder)

theorem stuck_tick_is_cancelled :
    (stuckRun.AtomicallyReachable mixedSchedule mixedWork ∧ stuckRun.cancelled = true ∧
      stuckRun.steps? mixedSchedule mixedWork [.poll 4, .collect 0, .ticker] =
        some mixedRun ∧
      mixedRun.summary.ticks = stuckRun.summary.ticks) ∧
    (mixedRun.Reachable mixedSchedule mixedWork ∧ NoneGaveUp mixedRun ∧
      mixedRun.summary.cancelled ≤ 2) ∧
    (singleRun.Reachable mixedSchedule singleWork ∧ singleRun.summary.completed = 1 ∧
      NoneGaveUp singleRun) := by
  have hstuck : stuckRun.AtomicallyReachable mixedSchedule mixedWork :=
    ⟨0, false, (), mixedActions.take 33, rfl⟩
  have hsteps : stuckRun.steps? mixedSchedule mixedWork [.poll 4, .collect 0, .ticker] =
      some mixedRun := rfl
  have hended : Entry.endedIn mixedRun.entries =
      [(2, .panicked "no engine"), (1, .returned (.completed 5)),
        (3, .returned (.failed 2)), (4, .dropped)] := rfl
  have hnone : NoneGaveUp mixedRun := by
    intro tick
    simp [hended]
  have hsingle : singleRun.Reachable mixedSchedule singleWork :=
    ⟨0, false, singleOrder, firing 0 ++ [.poll 1, .collect 0], rfl⟩
  exact ⟨⟨hstuck, rfl, hsteps,
      (cancellation_polls_once_and_returns.1 hstuck rfl hsteps).1⟩,
    ⟨reachable_mixedRun, hnone,
      (cancellation_polls_once_and_returns.2.1 reachable_mixedRun hnone).1⟩,
    hsingle, rfl, cancellation_polls_once_and_returns.2.2 hsingle⟩

end Run

end OrderFlow
