import Mathlib.Data.List.Perm.Basic
import OrderFlow.Proofs.Scheduler.Transition
import OrderFlow.Scheduler.Clock

/-!
# Runs with a punctual ticker

`Run.Leads` lets time pass at any moment.  In a punctual run time passes only while
the ticker has nothing to do, and never beyond the instant at which the firing that
the ticker waits for is due; ticks may still be polled, and end, whenever they like.
A loop on a virtual clock serves its run in this way: its clock moves only when the
loop is idle, and to the next instant at which something happens.
-/

namespace OrderFlow

variable {σ τ ε : Type}

namespace Run

/-- The ticker has nothing to do: it can neither move on nor record a tick. -/
def TickerRests (schedule : Schedule) (work : Work σ τ ε) (run : Run σ τ ε) : Prop :=
  ∀ action : Action, action.isTickers = true → run.step? schedule work action = none

/-- An action does not keep the ticker waiting: time passes only while the ticker rests, and not
beyond the firing that it waits for. -/
def OnTime (schedule : Schedule) (work : Work σ τ ε) (run : Run σ τ ε) : Action → Prop
  | .wait instant => run.TickerRests schedule work ∧
      (run.phase = .awaitingTimer → instant ≤ schedule.dueAt run.origin run.fired)
  | _ => True

/-- The runs of a scheduler whose ticker is never kept waiting. -/
inductive Punctual (schedule : Schedule) (work : Work σ τ ε) : Run σ τ ε → Prop
  | start (now : Nat) (cancelled : Bool) (shared : σ) :
      Punctual schedule work (start schedule now cancelled shared)
  | step {run next : Run σ τ ε} {action : Action} (earlier : Punctual schedule work run)
      (onTime : run.OnTime schedule work action)
      (taken : run.step? schedule work action = some next) : Punctual schedule work next

variable {schedule : Schedule} {work : Work σ τ ε} {run next first : Run σ τ ε}

theorem Punctual.reachable (h : run.Punctual schedule work) : run.Reachable schedule work := by
  induction h with
  | start now cancelled shared => exact ⟨now, cancelled, shared, Leads.refl _⟩
  | step _ _ taken ih =>
      obtain ⟨now, cancelled, shared, hleads⟩ := ih
      exact ⟨now, cancelled, shared, hleads.step taken⟩

theorem TickerRests.not_ready (h : run.TickerRests schedule work) :
    run.tickerReady schedule = false := by
  have hnone := h .ticker rfl
  simpa [step?] using hnone

/-- What the ticker may be at while it rests: it waits for a firing or a permit, awaits the ticks
in flight, or is done. -/
theorem TickerRests.phase_cases (h : run.TickerRests schedule work) :
    (run.phase = .awaitingTimer ∧ run.now < schedule.dueAt run.origin run.fired) ∨
    (run.phase = .awaitingPermit ∧ run.free = 0) ∨
    run.phase = .draining ∨ run.phase.isOver = true := by
  have hready := h.not_ready
  cases hphase : run.phase with
  | checking => simp [tickerReady, hphase] at hready
  | awaitingTimer =>
      simp only [tickerReady, hphase, Bool.or_eq_false_iff, decide_eq_false_iff_not] at hready
      exact Or.inl ⟨rfl, Nat.not_le.mp hready.2⟩
  | awaitingPermit =>
      simp only [tickerReady, hphase, Bool.or_eq_false_iff, decide_eq_false_iff_not] at hready
      exact Or.inr (Or.inl ⟨rfl, by omega⟩)
  | holdingPermit => simp [tickerReady, hphase] at hready
  | collecting =>
      have hcollect := h (.collect 0) rfl
      have hfinished : run.finished ≠ [] := by simpa [tickerReady, hphase] using hready
      obtain ⟨record, rest, hrecord⟩ := List.exists_cons_of_ne_nil hfinished
      simp [step?, collect?, hphase, hrecord] at hcollect
  | draining => exact Or.inr (Or.inr (Or.inl rfl))
  | returned => exact Or.inr (Or.inr (Or.inr rfl))
  | aborted message => exact Or.inr (Or.inr (Or.inr rfl))

/-- Only recording takes a tick out of the finished ones; all else adds to them. -/
theorem Transition.finished_append {action : Action}
    (h : Transition schedule work run action next) (haction : ∀ index, action ≠ .collect index) :
    ∃ more, next.finished = run.finished ++ more := by
  cases h with
  | collect phase found => exact absurd rfl (haction _)
  | finish running polled ending => exact ⟨_, rfl⟩
  | drop running polled fired => exact ⟨_, rfl⟩
  | _ => exact ⟨[], (List.append_nil _).symm⟩

/-- A tick that ended can be collected while the ticker collects. -/
theorem step?_collect {tick : Nat} (hphase : run.phase = .collecting ∨ run.phase = .draining)
    (hmem : tick ∈ run.finished.map Prod.fst) :
    ∃ index how, run.finished.findIdx (fun entry => entry.1 == tick) = index ∧
      run.step? schedule work (.collect index) =
        some ({ run with finished := run.finished.eraseIdx index }.recordEnding tick how) ∧
      (tick :: (run.finished.eraseIdx index).map Prod.fst).Perm
        (run.finished.map Prod.fst) := by
  have hindex : run.finished.findIdx (fun entry => entry.1 == tick) < run.finished.length := by
    obtain ⟨entry, hentry, hfst⟩ := List.mem_map.mp hmem
    exact List.findIdx_lt_length_of_exists ⟨entry, hentry, by simpa using hfst⟩
  have hfound := @List.findIdx_getElem _ (fun entry : Nat × Ending => entry.1 == tick) _ hindex
  have htick : (run.finished[run.finished.findIdx fun entry => entry.1 == tick]).1 = tick :=
    beq_iff_eq.mp hfound
  have hperm := (List.getElem_cons_eraseIdx_perm hindex).map Prod.fst
  rw [List.map_cons, htick] at hperm
  refine ⟨_, (run.finished[run.finished.findIdx fun entry => entry.1 == tick]).2, rfl, ?_, hperm⟩
  simp [step?, collect?, hphase, hindex, htick]

end Run

/-! ## Loops -/

namespace Loop

variable {schedule : Schedule} {work : Work σ τ ε} {first : Run σ τ ε}
  {loop last : Loop σ τ ε}

/-- The run of a loop is punctual and goes on from a first one, and the loop knows which ticks are
to be recorded. -/
structure Serves (schedule : Schedule) (work : Work σ τ ε) (first : Run σ τ ε)
    (loop : Loop σ τ ε) : Prop where
  punctual : loop.run.Punctual schedule work
  leads : first.Leads schedule work loop.run
  arrivals : loop.arrivals.Perm (loop.run.finished.map Prod.fst)

theorem Serves.start (cancelAt : Option Nat) (now : Nat) (cancelled : Bool) (shared : σ) :
    Serves schedule work (.start schedule now cancelled shared)
      (.start cancelAt (.start schedule now cancelled shared)) :=
  ⟨.start now cancelled shared, .refl _, .nil⟩

/-- What a loop has to do and when is no matter of its run. -/
theorem Serves.reschedule (h : Serves schedule work first loop) (hrun : last.run = loop.run)
    (harrivals : last.arrivals.Perm loop.arrivals) : Serves schedule work first last := by
  refine ⟨?_, ?_, ?_⟩
  · rw [hrun]
    exact h.punctual
  · rw [hrun]
    exact h.leads
  · rw [hrun]
    exact harrivals.trans h.arrivals

theorem Serves.act {action : Action} (h : Serves schedule work first loop)
    (honTime : loop.run.OnTime schedule work action)
    (haction : ∀ index, action ≠ .collect index) :
    Serves schedule work first (loop.act schedule work action) := by
  unfold Loop.act Run.perform
  dsimp only
  cases hstep : loop.run.step? schedule work action with
  | none =>
      refine ⟨h.punctual, h.leads, ?_⟩
      simpa using h.arrivals
  | some next =>
      obtain ⟨more, hmore⟩ :=
        (Run.transition_of_step hstep).finished_append haction
      refine ⟨h.punctual.step honTime hstep, h.leads.step hstep, ?_⟩
      simpa [hmore] using h.arrivals.append_right (more.map Prod.fst)

/-- A loop that recorded the tick it was to record next goes on with the others. -/
theorem Serves.collect {tick : Nat} {rest : List Nat}
    (hpunctual : loop.run.Punctual schedule work)
    (hleads : first.Leads schedule work loop.run)
    (hphase : loop.run.phase = .collecting ∨ loop.run.phase = .draining)
    (harrivals : (tick :: rest).Perm (loop.run.finished.map Prod.fst))
    (hrest : loop.arrivals = rest) :
    Serves schedule work first (loop.collect schedule work tick) := by
  obtain ⟨index, how, hindex, hstep, hperm⟩ := @Run.step?_collect _ _ _ schedule work loop.run
    tick hphase (harrivals.mem_iff.mp List.mem_cons_self)
  have hfinished : ∀ run : Run σ τ ε, (run.recordEnding tick how).finished = run.finished := by
    intro run
    cases how <;> rfl
  have hlength := List.length_eraseIdx_le loop.run.finished index
  unfold Loop.collect Loop.act Run.perform
  dsimp only
  rw [hindex, hstep, Option.getD_some]
  have honTime : loop.run.OnTime schedule work (.collect index) := trivial
  refine ⟨hpunctual.step honTime hstep, hleads.step hstep, ?_⟩
  rw [hfinished, List.drop_eq_nil_of_le hlength, hrest]
  simpa using (harrivals.trans hperm.symm).cons_inv

theorem Serves.tickerStep (h : Serves schedule work first loop) :
    Serves schedule work first (loop.tickerStep schedule work) := by
  unfold Loop.tickerStep
  split
  · rename_i tick rest hphase harrivals
    have hperm := h.arrivals
    rw [harrivals] at hperm
    exact Serves.collect h.punctual h.leads (Or.inl hphase) hperm rfl
  · rename_i tick rest hphase harrivals
    have hperm := h.arrivals
    rw [harrivals] at hperm
    exact Serves.collect h.punctual h.leads (Or.inr hphase) hperm rfl
  · split
    · exact Serves.act (h.reschedule rfl (.refl _)) trivial (by simp)
    · exact h.act trivial (by simp)

theorem Serves.tickerTurnFor (fuel : Nat) (h : Serves schedule work first loop) :
    Serves schedule work first (Loop.tickerTurnFor schedule work fuel loop) := by
  induction fuel generalizing loop with
  | zero => exact h
  | succ fuel ih =>
      unfold Loop.tickerTurnFor
      split
      · exact ih h.tickerStep
      · exact h

theorem Serves.plan (h : Serves schedule work first loop) (instant : Nat) (job : Job) :
    Serves schedule work first (loop.plan instant job) := by
  unfold Loop.plan
  split
  · exact h.reschedule rfl (.refl _)
  · exact h.reschedule rfl (.refl _)

theorem Serves.runJob (h : Serves schedule work first loop) (job : Job) :
    Serves schedule work first (loop.runJob schedule work job) := by
  cases job with
  | token =>
      unfold Loop.runJob
      dsimp only
      split
      · exact h
      · split
        · exact h.act trivial (by simp)
        · exact h.plan _ _
  | tick number =>
      have honTime : loop.run.OnTime schedule work (.poll number) := trivial
      have hpolled := h.act honTime (by simp)
      unfold Loop.runJob
      dsimp only
      split
      · exact hpolled
      · split
        · exact hpolled
        · exact hpolled.plan _ _

theorem Serves.runJobs (count : Nat) (h : Serves schedule work first loop) :
    Serves schedule work first (Loop.runJobs schedule work count loop) := by
  induction count generalizing loop with
  | zero => exact h
  | succ count ih =>
      unfold Loop.runJobs
      split
      · exact h
      · rename_i job rest _
        have hrest : Serves schedule work first { loop with queue := rest } :=
          h.reschedule rfl (.refl _)
        exact ih (hrest.runJob job)

theorem rotateLeft_perm (ticks : List Nat) : ticks.rotateLeft.Perm ticks := by
  unfold List.rotateLeft
  dsimp only
  split
  · exact .refl _
  · rename_i hlength
    have hperm : (ticks.drop (1 % ticks.length) ++ ticks.take (1 % ticks.length)).Perm
        (ticks.take (1 % ticks.length) ++ ticks.drop (1 % ticks.length)) :=
      List.perm_append_comm
    rwa [List.take_append_drop] at hperm

theorem Serves.refresh (heldUp : Bool) (h : Serves schedule work first loop) :
    Serves schedule work first (loop.refresh heldUp) := by
  refine h.reschedule rfl ?_
  unfold Loop.refresh
  cases heldUp with
  | true => exact rotateLeft_perm loop.arrivals
  | false => exact .refl _

theorem Serves.round (h : Serves schedule work first loop) :
    Serves schedule work first (loop.round schedule work) := by
  have hticker := h.tickerTurnFor loop.tickerLoad
  unfold Loop.round Loop.tickerTurn
  dsimp only
  split
  · exact hticker
  · exact (hticker.runJobs _).refresh _

/-- In an idle loop that may still pass gates the ticker rests. -/
theorem Serves.tickerRests (h : Serves schedule work first loop) (hallowance : 0 < loop.allowance)
    (hidle : loop.tickerCanStep schedule = false) :
    loop.run.TickerRests schedule work := by
  have hnothing : (loop.run.phase = .collecting ∨ loop.run.phase = .draining) →
      loop.run.finished = [] := by
    intro hphase
    cases harrivals : loop.arrivals with
    | nil =>
        have hperm := h.arrivals
        rw [harrivals] at hperm
        exact List.map_eq_nil_iff.mp hperm.nil_eq.symm
    | cons tick rest =>
        rcases hphase with hphase | hphase
        · simp [Loop.tickerCanStep, hphase, harrivals] at hidle
        · simp [Loop.tickerCanStep, hphase, harrivals] at hidle
          omega
  have hready : loop.run.tickerReady schedule = false := by
    unfold Loop.tickerCanStep at hidle
    split at hidle
    · cases hidle
    · simp at hidle
      omega
    · simpa [hallowance] using hidle
  intro action htickers
  cases action with
  | ticker => simp [Run.step?, hready]
  | collect index =>
      unfold Run.step? Run.collect?
      dsimp only
      split
      · rename_i hphase
        simp [hnothing hphase]
      · rfl
  | poll tick => cases htickers
  | cancel => cases htickers
  | wait instant => cases htickers

/-- The clock of an idle loop moves to no instant beyond the firing that the ticker waits for. -/
theorem nextInstant?_le {instant : Nat} (hinstant : loop.nextInstant? schedule = some instant)
    (hphase : loop.run.phase = .awaitingTimer)
    (hlate : loop.run.now < schedule.dueAt loop.run.origin loop.run.fired) :
    instant ≤ schedule.dueAt loop.run.origin loop.run.fired := by
  unfold Loop.nextInstant? at hinstant
  dsimp only at hinstant
  rw [if_pos hphase] at hinstant
  have hmin := (List.min?_eq_some_iff.mp hinstant).2
  have hfiring := hmin (max loop.run.now (schedule.dueAt loop.run.origin loop.run.fired))
    (by simp)
  omega

theorem Serves.moveTo {instant : Nat} (h : Serves schedule work first loop)
    (hrests : loop.run.TickerRests schedule work)
    (hinstant : loop.nextInstant? schedule = some instant) :
    Serves schedule work first (loop.moveTo schedule work instant) := by
  have honTime : loop.run.OnTime schedule work (.wait instant) := by
    refine ⟨hrests, fun hphase => ?_⟩
    rcases hrests.phase_cases with ⟨_, hlate⟩ | ⟨hother, _⟩ | hother | hother
    · exact nextInstant?_le hinstant hphase hlate
    · rw [hphase] at hother
      cases hother
    · rw [hphase] at hother
      cases hother
    · rw [hphase] at hother
      cases hother
  have hlive : Serves schedule work first { loop with alarms := loop.liveAlarms } :=
    h.reschedule rfl (.refl _)
  exact (hlive.act honTime (by simp)).reschedule rfl (.refl _)

/-- A round that did not end the run readied the loop for the next one. -/
theorem allowance_round_pos (hover : (loop.round schedule work).run.phase.isOver = false) :
    0 < (loop.round schedule work).allowance := by
  unfold Loop.round at hover ⊢
  dsimp only at hover ⊢
  split at hover
  · rename_i hended
    rw [hended] at hover
    cases hover
  · rename_i hended
    rw [if_neg hended]
    exact Nat.zero_lt_succ _

/-- A round that leaves nothing to do lets the ticker rest. -/
theorem Serves.rests_after_round (h : Serves schedule work first loop)
    (hover : (loop.round schedule work).run.phase.isOver = false)
    (hidle : (loop.round schedule work).isIdle schedule = true) :
    (loop.round schedule work).run.TickerRests schedule work := by
  simp only [Loop.isIdle, Bool.and_eq_true, Bool.not_eq_true'] at hidle
  exact h.round.tickerRests (allowance_round_pos hover) hidle.2

theorem Serves.turn (h : Serves schedule work first loop)
    (hturn : loop.turn? schedule work = some last) : Serves schedule work first last := by
  have hround := h.round
  unfold Loop.turn? at hturn
  dsimp only at hturn
  split at hturn
  · cases hturn
    exact hround
  · rename_i hbusy
    obtain ⟨instant, hinstant, rfl⟩ := Option.map_eq_some_iff.mp hturn
    simp only [Bool.or_eq_true, not_or, Bool.not_eq_true, Bool.not_eq_false'] at hbusy
    exact hround.moveTo (h.rests_after_round hbusy.1 hbusy.2) hinstant

/-- A loop that comes to a stop waits for a permit that nobody will give back, or for ticks that
will never end. -/
theorem Serves.phase_of_stuck (h : Serves schedule work first loop)
    (hturn : loop.turn? schedule work = none) :
    ((loop.round schedule work).run.phase = .awaitingPermit ∧
      (loop.round schedule work).run.free = 0) ∨
    (loop.round schedule work).run.phase = .draining := by
  unfold Loop.turn? at hturn
  dsimp only at hturn
  split at hturn
  · cases hturn
  · rename_i hbusy
    simp only [Bool.or_eq_true, not_or, Bool.not_eq_true, Bool.not_eq_false'] at hbusy
    rcases (h.rests_after_round hbusy.1 hbusy.2).phase_cases with
      ⟨hphase, _⟩ | hpool | hdraining | hover
    · simp [Loop.nextInstant?, hphase] at hturn
    · exact Or.inl hpool
    · exact Or.inr hdraining
    · rw [hover] at hbusy
      cases hbusy.1

/-- A loop after so many turns, if it does not come to a stop before. -/
def turns? (schedule : Schedule) (work : Work σ τ ε) :
    Nat → Loop σ τ ε → Option (Loop σ τ ε)
  | 0, loop => some loop
  | count + 1, loop => (loop.turn? schedule work).bind (turns? schedule work count)

theorem Serves.turns {count : Nat} (h : Serves schedule work first loop)
    (hturns : loop.turns? schedule work count = some last) : Serves schedule work first last := by
  induction count generalizing loop with
  | zero =>
      cases hturns
      exact h
  | succ count ih =>
      obtain ⟨middle, hturn, hrest⟩ := Option.bind_eq_some_iff.mp hturns
      exact ih (h.turn hturn) hrest

theorem turns?_of_drive {rounds : Nat} (h : loop.drive schedule work rounds = some last) :
    last.run.phase.isOver = true ∧ ∃ count, loop.turns? schedule work count = some last := by
  induction rounds generalizing loop with
  | zero =>
      unfold Loop.drive at h
      split at h
      · rename_i hover
        cases h
        exact ⟨hover, 0, rfl⟩
      · cases h
  | succ rounds ih =>
      unfold Loop.drive at h
      split at h
      · rename_i hover
        cases h
        exact ⟨hover, 0, rfl⟩
      · split at h
        · cases h
        · rename_i middle hturn
          obtain ⟨hover, count, hrest⟩ := ih h
          refine ⟨hover, count + 1, ?_⟩
          rw [turns?, hturn, Option.bind_some, hrest]

end Loop

end OrderFlow
