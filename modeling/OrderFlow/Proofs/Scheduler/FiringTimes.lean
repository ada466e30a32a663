import Mathlib.Data.List.Induction
import Mathlib.Order.Bounds.Basic
import OrderFlow.Proofs.Scheduler.Punctuality
import OrderFlow.Proofs.Scheduler.Rows
import OrderFlow.Scheduler.Chore

/-!
# When ticks fire

In a punctual run a tick fires at the first instant at which its firing is due, the
tick before it was called, and fewer ticks than there are workers are unfinished.
The instant at which a firing is due depends on its number alone, so no delay is
ever passed on: a ticker that is late catches up as soon as the pool allows.  Of the
timer only this is taken for granted, that it keeps the pace asked for.
-/

namespace OrderFlow

variable {σ τ ε : Type}

namespace Run

/-- The instant from which on the ticker waits for a permit after some ticks: the next firing is
due and the last of them was called. -/
def readyAfter (schedule : Schedule) (origin : Nat) (earlier : List Row) : Nat :=
  max (schedule.dueAt origin earlier.length) ((earlier.getLast?.map Row.start).getD origin)

/-- The instants at which the tick after some others may fire: the ticker is ready for it, and
fewer of the others than there are workers are unfinished. -/
def openings (schedule : Schedule) (origin : Nat) (earlier : List Row) : Set Nat :=
  {instant | readyAfter schedule origin earlier ≤ instant ∧
    earlier.countP (Row.unfinishedAt instant) < schedule.workers}

section Openings

variable {schedule : Schedule} {origin now instant : Nat} {notes : List (Entry ε)}
  {earlier : List Row}

@[simp] theorem readyAfter_extend (schedule : Schedule) (origin : Nat) (notes : List (Entry ε))
    (earlier : List Row) :
    readyAfter schedule origin (earlier.map (Row.extend notes)) =
      readyAfter schedule origin earlier := by
  unfold readyAfter
  rw [List.length_map, List.getLast?_map, Option.map_map]
  rfl

/-- What is written now leaves the openings before now as they are. -/
theorem mem_openings_extend (hnotes : WrittenAt now notes) (hinstant : instant < now) :
    instant ∈ openings schedule origin (earlier.map (Row.extend notes)) ↔
      instant ∈ openings schedule origin earlier := by
  simp only [openings, Set.mem_ofPred_eq, readyAfter_extend,
    countP_unfinishedAt_extend hnotes hinstant]

/-- What is written later does not change the first opening that was used. -/
theorem isLeast_openings_extend {start : Nat} (hnotes : WrittenAt now notes)
    (hstart : start ≤ now) (h : IsLeast (openings schedule origin earlier) start) :
    IsLeast (openings schedule origin (earlier.map (Row.extend notes))) start := by
  constructor
  · refine ⟨?_, ?_⟩
    · rw [readyAfter_extend]
      exact h.1.1
    · exact Nat.lt_of_le_of_lt (countP_unfinishedAt_extend_le start notes earlier) h.1.2
  · intro instant hinstant
    by_cases hlt : instant < now
    · exact h.2 ((mem_openings_extend hnotes hlt).mp hinstant)
    · exact Nat.le_trans hstart (Nat.not_lt.mp hlt)

end Openings

variable {schedule : Schedule} {work : Work σ τ ε} {run next : Run σ τ ε}

theorem dueAt_le_readyAfter (origin : Nat) (earlier : List Row) :
    schedule.dueAt origin earlier.length ≤ readyAfter schedule origin earlier :=
  Nat.le_max_left _ _

theorem readyAfter_nil (schedule : Schedule) (origin : Nat) :
    readyAfter schedule origin [] = schedule.timer.due origin := by
  have hle := schedule.timer.le_due origin
  simp [readyAfter, Schedule.dueAt, hle]

theorem readyAfter_concat (origin : Nat) (earlier : List Row) (row : Row) :
    readyAfter schedule origin (earlier ++ [row]) =
      max (schedule.dueAt origin (earlier.length + 1)) row.start := by
  simp [readyAfter]

/-! ## What the ticker waits for -/

/-- Where the ticker stands with the next tick: it is not late, or it waits for a permit and had
no chance so far, or it fires no more. -/
def Waiting (schedule : Schedule) (run : Run σ τ ε) : Prop :=
  match run.phase with
  | .checking | .collecting | .awaitingTimer =>
      run.fired = run.rows.length ∧ run.now ≤ readyAfter schedule run.origin run.rows
  | .awaitingPermit | .holdingPermit =>
      run.fired = run.rows.length + 1 ∧ readyAfter schedule run.origin run.rows ≤ run.now ∧
        ∀ instant < run.now, instant ∉ openings schedule run.origin run.rows
  | .draining | .returned =>
      run.cancelled = true ∨ schedule.limitReached run.summary.ticks = true
  | .aborted _ => True

/-- What ticks do while the ticker waits does not make it late. -/
theorem Waiting.pass {action : Action} (h : Waiting schedule run)
    (hreachable : run.Reachable schedule work) (hnext : next.Reachable schedule work)
    (htransition : Transition schedule work run action next)
    (hticks : next.summary.ticks = run.summary.ticks) (hphase : next.phase = run.phase)
    (hfired : next.fired = run.fired) (hnow : next.now = run.now)
    (hcancelled : run.cancelled = true → next.cancelled = true) : Waiting schedule next := by
  obtain ⟨notes, hrows, hnotes⟩ := htransition.rows_of_ticks_eq hreachable hnext hticks
  unfold Waiting at h ⊢
  rw [hphase, hfired, hnow, htransition.origin_eq, hticks, hrows, List.length_map,
    readyAfter_extend]
  generalize run.phase = phase at h
  cases phase with
  | awaitingPermit =>
      refine ⟨h.1, h.2.1, fun instant hlt => ?_⟩
      rw [mem_openings_extend hnotes hlt]
      exact h.2.2 instant hlt
  | holdingPermit =>
      refine ⟨h.1, h.2.1, fun instant hlt => ?_⟩
      rw [mem_openings_extend hnotes hlt]
      exact h.2.2 instant hlt
  | draining => exact h.imp_left hcancelled
  | returned => exact h.imp_left hcancelled
  | _ => exact h

theorem readyAfter_le_now (h : run.Reachable schedule work)
    (hdue : schedule.dueAt run.origin run.rows.length ≤ run.now) :
    readyAfter schedule run.origin run.rows ≤ run.now := by
  refine Nat.max_le.mpr ⟨hdue, ?_⟩
  cases hlast : run.rows.getLast? with
  | none => exact h.origin_le_now
  | some row => exact h.start_le_now (List.mem_of_getLast? hlast)

theorem not_mem_openings_of_full {instant : Nat} (h : run.Reachable schedule work)
    (hphase : run.phase = .awaitingPermit) (hfree : run.free = 0) (hinstant : run.now ≤ instant) :
    instant ∉ openings schedule run.origin run.rows := by
  rintro ⟨_, hfew⟩
  have hpooled := h.pooled
  rw [h.countP_unfinishedAt (by rw [hphase]; rfl) hinstant] at hfew
  rw [hphase, hfree] at hpooled
  simp only [Phase.permitsHeld] at hpooled
  omega

/-- Time that passes on time does not make the ticker late. -/
theorem Waiting.wait {instant : Nat} (h : Waiting schedule run)
    (hreachable : run.Reachable schedule work) (hlater : run.now ≤ instant)
    (honTime : run.OnTime schedule work (.wait instant)) :
    Waiting schedule { run with now := instant } := by
  obtain ⟨hrests, hdue⟩ := honTime
  have hrows : ({ run with now := instant } : Run σ τ ε).rows = run.rows := rfl
  unfold Waiting at h ⊢
  simp only [hrows]
  rcases hrests.phase_cases with ⟨hphase, _⟩ | ⟨hphase, hfree⟩ | hphase | hover
  · simp only [hphase] at h ⊢
    refine ⟨h.1, Nat.le_trans (hdue hphase) ?_⟩
    rw [h.1]
    exact dueAt_le_readyAfter run.origin run.rows
  · simp only [hphase] at h ⊢
    refine ⟨h.1, Nat.le_trans h.2.1 hlater, fun other _ => ?_⟩
    by_cases hother : other < run.now
    · exact h.2.2 other hother
    · exact not_mem_openings_of_full hreachable hphase hfree (Nat.not_lt.mp hother)
  · simpa only [hphase] using h
  · cases hphase : run.phase with
    | returned => simpa only [hphase] using h
    | aborted message => trivial
    | _ =>
        rw [hphase] at hover
        cases hover

/-- The ticker of a punctual run is never late. -/
theorem Punctual.waiting (h : run.Punctual schedule work) : Waiting schedule run := by
  induction h with
  | start now cancelled shared =>
      refine ⟨rfl, ?_⟩
      have hready := readyAfter_nil schedule now
      have hle := schedule.timer.le_due now
      exact Nat.le_trans hle (Nat.le_of_eq hready.symm)
  | @step run next action earlier onTime taken ih =>
      have hreachable := earlier.reachable
      have hnext := (earlier.step onTime taken).reachable
      cases transition_of_step taken with
      | advance move =>
          obtain ⟨notes, hrows, _⟩ :=
            (Transition.advance move).rows_of_ticks_eq hreachable hnext rfl
          unfold Waiting at ih ⊢
          simp only [hrows, readyAfter_extend, List.length_map]
          cases move with
          | reachLimit phase limit => exact Or.inr limit
          | stopAtTimer phase cancelled => exact Or.inl cancelled
          | stopAtPool phase cancelled => exact Or.inl cancelled
          | timerFires phase uncancelled due =>
              simp only [phase] at ih
              rw [ih.1] at due ⊢
              refine ⟨rfl, readyAfter_le_now hreachable due, fun instant hlt hopening => ?_⟩
              have hready := hopening.1
              rw [readyAfter_extend] at hready
              omega
          | goOn phase limit => simpa only [phase] using ih
          | allCollected phase finished => simpa only [phase] using ih
          | stop phase finished running => simpa only [phase] using ih
      | takePermit phase uncancelled free =>
          unfold Waiting at ih ⊢
          simp only [phase] at ih
          exact ih
      | call phase called =>
          obtain ⟨notes, row, hrows, hstart⟩ :=
            (Transition.call phase called).rows_of_called hreachable hnext rfl
          unfold Waiting at ih ⊢
          simp only [phase] at ih
          rw [hrows, readyAfter_concat, hstart]
          refine ⟨?_, Nat.le_max_right _ _⟩
          simpa using ih.1
      | callPanics phase called => trivial
      | collect phase found =>
          exact ih.pass hreachable hnext (.collect phase found) (by simp) rfl rfl rfl id
      | finish running polled ending =>
          exact ih.pass hreachable hnext (.finish running polled ending) rfl rfl rfl rfl
            (by simp +contextual)
      | drop running polled fired =>
          exact ih.pass hreachable hnext (.drop running polled fired) rfl rfl rfl rfl fun _ => rfl
      | keep running polled unfired =>
          exact ih.pass hreachable hnext (.keep running polled unfired) rfl rfl rfl rfl id
      | cancel => exact ih.pass hreachable hnext .cancel rfl rfl rfl rfl fun _ => rfl
      | wait later => exact ih.wait hreachable later onTime

/-- While the run goes on every opening for the next tick is still to come. -/
theorem Waiting.not_mem_openings {instant : Nat} (h : Waiting schedule run)
    (hcancelled : run.cancelled = false) (haborted : run.phase.isAborted = false)
    (hlimit : schedule.limitReached run.summary.ticks = false) (hinstant : instant < run.now) :
    instant ∉ openings schedule run.origin run.rows := by
  have hlate : run.now ≤ readyAfter schedule run.origin run.rows →
      instant ∉ openings schedule run.origin run.rows := by
    intro hle hopening
    have hready := hopening.1
    omega
  unfold Waiting at h
  cases hphase : run.phase with
  | awaitingPermit =>
      simp only [hphase] at h
      exact h.2.2 instant hinstant
  | holdingPermit =>
      simp only [hphase] at h
      exact h.2.2 instant hinstant
  | draining => simp [hphase, hcancelled, hlimit] at h
  | returned => simp [hphase, hcancelled, hlimit] at h
  | aborted message =>
      rw [hphase] at haborted
      cases haborted
  | _ =>
      simp only [hphase] at h
      exact hlate h.2

/-! ## What fired -/

/-- Each of some ticks fired at the first opening after those before it. -/
def FiredInTurn (schedule : Schedule) (origin : Nat) (rows : List Row) : Prop :=
  ∀ earlier row later, rows = earlier ++ row :: later →
    IsLeast (openings schedule origin earlier) row.start

theorem FiredInTurn.extend {origin now : Nat} {rows : List Row} {notes : List (Entry ε)}
    (h : FiredInTurn schedule origin rows) (hnotes : WrittenAt now notes)
    (hstart : ∀ row ∈ rows, row.start ≤ now) :
    FiredInTurn schedule origin (rows.map (Row.extend notes)) := by
  intro earlier row later hsplit
  obtain ⟨before, rest, rfl, rfl, hrest⟩ := List.map_eq_append_iff.mp hsplit
  obtain ⟨fired, after, rfl, rfl, rfl⟩ := List.map_eq_cons_iff.mp hrest
  exact isLeast_openings_extend hnotes (hstart fired (by simp)) (h before fired after rfl)

theorem FiredInTurn.concat {origin : Nat} {rows : List Row} {new : Row}
    (h : FiredInTurn schedule origin rows)
    (hnew : IsLeast (openings schedule origin rows) new.start) :
    FiredInTurn schedule origin (rows ++ [new]) := by
  intro earlier row later hsplit
  rcases List.eq_nil_or_concat later with rfl | ⟨before, last, rfl⟩
  · obtain ⟨rfl, hrow⟩ := List.append_inj' hsplit rfl
    cases hrow
    exact hnew
  · have hassoc : rows ++ [new] = (earlier ++ row :: before) ++ [last] := by
      simpa using hsplit
    obtain ⟨hrows, _⟩ := List.append_inj' hassoc rfl
    exact h earlier row before hrows

/-- A ticker that holds a permit is at the first opening. -/
theorem Punctual.isLeast_now (h : run.Punctual schedule work)
    (hphase : run.phase = .holdingPermit) :
    IsLeast (openings schedule run.origin run.rows) run.now := by
  have hwaiting := h.waiting
  have hpooled := h.reachable.pooled
  unfold Waiting at hwaiting
  simp only [hphase] at hwaiting
  simp only [hphase, Phase.permitsHeld] at hpooled
  constructor
  · refine ⟨hwaiting.2.1, ?_⟩
    rw [h.reachable.countP_unfinishedAt (by rw [hphase]; rfl) (Nat.le_refl _)]
    omega
  · intro instant hopening
    by_contra hlt
    exact hwaiting.2.2 instant (Nat.not_le.mp hlt) hopening

theorem Punctual.firedInTurn (h : run.Punctual schedule work) :
    FiredInTurn schedule run.origin run.rows := by
  induction h with
  | start now cancelled shared =>
      intro earlier row later hsplit
      have hnone : [] = earlier ++ row :: later := hsplit
      simp at hnone
  | @step run next action earlier onTime taken ih =>
      have htransition := transition_of_step taken
      have hstart : ∀ row ∈ run.rows, row.start ≤ run.now :=
        fun row hrow => earlier.reachable.start_le_now hrow
      rw [htransition.origin_eq]
      obtain ⟨notes, new, hrows, hnotes, rfl | ⟨hphase, row, rfl, hnow⟩⟩ := htransition.rows_eq
      · rw [hrows, List.append_nil]
        exact ih.extend hnotes hstart
      · rw [hrows]
        refine (ih.extend hnotes hstart).concat ?_
        rw [hnow]
        exact isLeast_openings_extend hnotes (Nat.le_refl _) (earlier.isLeast_now hphase)

/-! ## How often ticks fire -/

section Rate

variable {origin : Nat} {rows earlier later : List Row} {row : Row}

theorem FiredInTurn.due_le (h : FiredInTurn schedule origin rows)
    (hrows : rows = earlier ++ row :: later) :
    schedule.dueAt origin earlier.length ≤ row.start :=
  Nat.le_trans (dueAt_le_readyAfter origin earlier) (h earlier row later hrows).1.1

/-- A tick that finds the pool open when the ticker is ready for it fires at once. -/
theorem FiredInTurn.start_eq (h : FiredInTurn schedule origin rows)
    (hrows : rows = earlier ++ row :: later)
    (hfew : earlier.countP (Row.unfinishedAt (readyAfter schedule origin earlier)) <
      schedule.workers) :
    row.start = readyAfter schedule origin earlier := by
  have hleast := h earlier row later hrows
  exact Nat.le_antisymm (hleast.2 ⟨Nat.le_refl _, hfew⟩) hleast.1.1

theorem FiredInTurn.start_first (h : FiredInTurn schedule origin rows)
    (hrows : rows = row :: later) : row.start = schedule.timer.due origin := by
  have hworkers := (h [] row later hrows).1.2
  have hstart : row.start = readyAfter schedule origin [] := h.start_eq hrows hworkers
  rw [hstart, readyAfter_nil]

theorem dueAt_of_keepsPace (hpace : schedule.timer.KeepsPace schedule.period.nanos)
    (origin k : Nat) :
    schedule.dueAt origin k = schedule.timer.due (origin + k * schedule.period.nanos) := by
  have hasked : schedule.timer.pace schedule.period.nanos = schedule.period.nanos := hpace
  rw [Schedule.dueAt, hasked]

/-- The ticks of different numbers are due a period apart, so there are not many by any
instant. -/
theorem FiredInTurn.countP_started_le {instant : Nat} (h : FiredInTurn schedule origin rows)
    (hpace : schedule.timer.KeepsPace schedule.period.nanos)
    (hperiod : 0 < schedule.period.nanos) (horigin : origin ≤ instant) :
    rows.countP (·.start ≤ instant) ≤ 1 + (instant - origin) / schedule.period.nanos := by
  generalize hmost : 1 + (instant - origin) / schedule.period.nanos = most
  -- All ticks but the first so many are due later, whatever became of those before them.
  have hlate : ∀ row ∈ rows.drop most, ¬ row.start ≤ instant := by
    intro row hrow hstart
    obtain ⟨before, after, hdrop⟩ := List.append_of_mem hrow
    have hrows : rows = (rows.take most ++ before) ++ row :: after := by
      rw [List.append_assoc, ← hdrop, List.take_append_drop]
    have hlength : most ≤ (rows.take most ++ before).length := by
      have hlt := List.length_pos_of_mem hrow
      rw [List.length_drop] at hlt
      rw [List.length_append, List.length_take]
      omega
    have hdue := h.due_le hrows
    rw [dueAt_of_keepsPace hpace] at hdue
    have hle : origin + most * schedule.period.nanos ≤ instant :=
      calc origin + most * schedule.period.nanos
          ≤ origin + (rows.take most ++ before).length * schedule.period.nanos :=
            Nat.add_le_add_left (Nat.mul_le_mul_right _ hlength) _
        _ ≤ row.start := Nat.le_trans (schedule.timer.le_due _) hdue
        _ ≤ instant := hstart
    have hdiv : most ≤ (instant - origin) / schedule.period.nanos := by
      rw [Nat.le_div_iff_mul_le hperiod]
      omega
    omega
  have hnone : (rows.drop most).countP (·.start ≤ instant) = 0 :=
    List.countP_eq_zero.mpr fun row hrow => by simpa using hlate row hrow
  calc rows.countP (·.start ≤ instant)
      = (rows.take most).countP (·.start ≤ instant) +
          (rows.drop most).countP (·.start ≤ instant) := by
        rw [← List.countP_append, List.take_append_drop]
    _ = (rows.take most).countP (·.start ≤ instant) := by
        rw [hnone, Nat.add_zero]
    _ ≤ (rows.take most).length := List.countP_le_length
    _ ≤ most := List.length_take_le _ _

end Rate

/-! ## Ticks that never end -/

section Unended

variable {origin : Nat} {rows : List Row}

theorem dueAt_mono (origin : Nat) {k m : Nat} (h : k ≤ m) :
    schedule.dueAt origin k ≤ schedule.dueAt origin m :=
  schedule.timer.due_mono (Nat.add_le_add_left (Nat.mul_le_mul_right _ h) _)

theorem countP_of_unended (hunended : ∀ row ∈ rows, row.ending = none) (instant : Nat) :
    rows.countP (Row.unfinishedAt instant) = rows.length := by
  rw [List.countP_eq_length]
  intro row hrow
  rw [Row.unfinishedAt, hunended row hrow]

theorem FiredInTurn.length_le (h : FiredInTurn schedule origin rows)
    (hunended : ∀ row ∈ rows, row.ending = none) : rows.length ≤ schedule.workers := by
  rcases List.eq_nil_or_concat rows with rfl | ⟨earlier, row, rfl⟩
  · exact Nat.zero_le _
  · have hfew := (h earlier row [] (by simp)).1.2
    rw [countP_of_unended fun row hrow => hunended row (by simp [hrow])] at hfew
    rw [List.length_concat]
    exact hfew

/-- As long as no tick ends the ticker is held up by nothing but the timer. -/
theorem FiredInTurn.readyAfter_eq (h : FiredInTurn schedule origin rows)
    (hunended : ∀ row ∈ rows, row.ending = none) :
    readyAfter schedule origin rows = schedule.dueAt origin rows.length := by
  induction rows using List.reverseRecOn with
  | nil => simp [readyAfter_nil, Schedule.dueAt]
  | append_singleton earlier row ih =>
      have hearlier : ∀ row ∈ earlier, row.ending = none :=
        fun row hrow => hunended row (by simp [hrow])
      have hbefore : FiredInTurn schedule origin earlier := fun first fired rest hrows =>
        h first fired (rest ++ [row]) (by simp [hrows])
      have hfew := (h earlier row [] rfl).1.2
      rw [countP_of_unended hearlier] at hfew
      have hstart : row.start = readyAfter schedule origin earlier :=
        h.start_eq rfl (by rwa [countP_of_unended hearlier])
      rw [readyAfter_concat, hstart, ih hbefore hearlier, List.length_append]
      exact Nat.max_eq_left (dueAt_mono origin (Nat.le_succ _))

end Unended

/-- The most ticks that fire if none ever ends. -/
def mostUnended (schedule : Schedule) : Nat :=
  match schedule.maxTicks with
  | none => schedule.workers
  | some limit => min schedule.workers limit

theorem Reachable.ticks_le_mostUnended (h : run.Reachable schedule work)
    (hworkers : run.summary.ticks ≤ schedule.workers) :
    run.summary.ticks ≤ mostUnended schedule := by
  unfold mostUnended
  cases hmax : schedule.maxTicks with
  | none => exact hworkers
  | some limit => exact Nat.le_min.mpr ⟨hworkers, h.limited.within limit hmax⟩

theorem below_limits_of_lt {ticks : Nat} (h : ticks < mostUnended schedule) :
    ticks < schedule.workers ∧ schedule.limitReached ticks = false := by
  unfold mostUnended at h
  unfold Schedule.limitReached
  cases hmax : schedule.maxTicks with
  | none =>
      rw [hmax] at h
      exact ⟨h, rfl⟩
  | some limit =>
      rw [hmax] at h
      obtain ⟨hworkers, hlimit⟩ := Nat.lt_min.mp h
      exact ⟨hworkers, decide_eq_false (Nat.not_le.mpr hlimit)⟩

/-- As many ticks fire as can if none ends, once the last of them is due. -/
theorem Punctual.length_of_unended (h : run.Punctual schedule work)
    (hunended : ∀ row ∈ run.rows, row.ending = none) (hcancelled : run.cancelled = false)
    (haborted : run.phase.isAborted = false)
    (hdue : schedule.dueAt run.origin (mostUnended schedule - 1) < run.now) :
    run.rows.length = mostUnended schedule := by
  have hticks := length_rows h.reachable
  have hle : run.rows.length ≤ mostUnended schedule := by
    rw [hticks]
    apply h.reachable.ticks_le_mostUnended
    rw [← hticks]
    exact h.firedInTurn.length_le hunended
  by_contra hne
  obtain ⟨hworkers, hlimit⟩ :=
    below_limits_of_lt (Nat.lt_of_le_of_ne hle hne)
  have hready := h.firedInTurn.readyAfter_eq hunended
  have hbefore : schedule.dueAt run.origin run.rows.length < run.now :=
    Nat.lt_of_le_of_lt (dueAt_mono run.origin (by omega)) hdue
  -- The ticker was ready for one more tick, and the pool was open to it.
  apply h.waiting.not_mem_openings hcancelled haborted (hticks ▸ hlimit) hbefore
  refine ⟨Nat.le_of_eq hready, ?_⟩
  rwa [countP_of_unended hunended]

/-- A loop that comes to a stop though its run may go on has no opening left. -/
theorem openings_of_stuck {first : Run σ τ ε} {loop : Loop σ τ ε}
    (h : loop.Serves schedule work first)
    (hturn : loop.turn? schedule work = none)
    (hcancelled : (loop.round schedule work).run.cancelled = false)
    (hlimit : schedule.limitReached (loop.round schedule work).run.summary.ticks = false) :
    openings schedule (loop.round schedule work).run.origin (loop.round schedule work).run.rows =
      ∅ := by
  have hpunctual := h.round.punctual
  rcases h.phase_of_stuck hturn with ⟨hphase, hfree⟩ | hphase
  · ext instant
    refine ⟨fun hopening => ?_, fun hnone => hnone.elim⟩
    by_cases hlt : instant < (loop.round schedule work).run.now
    · exact hpunctual.waiting.not_mem_openings hcancelled (by rw [hphase]; rfl) hlimit hlt hopening
    · exact not_mem_openings_of_full hpunctual.reachable hphase hfree (Nat.not_lt.mp hlt) hopening
  · have hwaiting := hpunctual.waiting
    unfold Waiting at hwaiting
    simp [hphase, hcancelled, hlimit] at hwaiting

/-! ## The fixed rate -/

/-- A run fires its ticks at a fixed rate, and catches up when it was held up. -/
structure FixedRate (schedule : Schedule) (run : Run σ τ ε) : Prop where
  /-- Each tick fires at the first opening after those before it. -/
  inTurn : ∀ earlier row later, run.rows = earlier ++ row :: later →
    row.tick = earlier.length + 1 ∧ IsLeast (openings schedule run.origin earlier) row.start
  /-- The next tick has had no opening yet, if there is to be one. -/
  noneMissed : run.cancelled = false → run.phase.isAborted = false →
    schedule.limitReached run.summary.ticks = false →
      ∀ instant < run.now, instant ∉ openings schedule run.origin run.rows
  /-- When a tick is due depends on its number alone. -/
  nominal : ∀ k,
    schedule.dueAt run.origin k = schedule.timer.due (run.origin + k * schedule.period.nanos)
  notEarly : ∀ earlier row later, run.rows = earlier ++ row :: later →
    schedule.dueAt run.origin earlier.length ≤ row.start
  first : ∀ row later, run.rows = row :: later → row.start = schedule.timer.due run.origin
  /-- Only the tick before it and the pool hold a tick up. -/
  catchesUp : ∀ earlier row later, run.rows = earlier ++ row :: later →
    earlier.countP (Row.unfinishedAt (readyAfter schedule run.origin earlier)) <
        schedule.workers →
      row.start = readyAfter schedule run.origin earlier
  paced : ∀ instant, run.origin ≤ instant →
    run.rows.countP (·.start ≤ instant) ≤ 1 + (instant - run.origin) / schedule.period.nanos
  /-- If no tick ends the pool is all there is. -/
  unended : (∀ row ∈ run.rows, row.ending = none) →
    run.rows.length ≤ mostUnended schedule ∧
      (run.cancelled = false → run.phase.isAborted = false →
        schedule.dueAt run.origin (mostUnended schedule - 1) < run.now →
          run.rows.length = mostUnended schedule)

theorem Punctual.fixedRate (h : run.Punctual schedule work)
    (hpace : schedule.timer.KeepsPace schedule.period.nanos)
    (hperiod : 0 < schedule.period.nanos) :
    FixedRate schedule run where
  inTurn earlier row later hrows :=
    ⟨tick_of_rows h.reachable hrows, h.firedInTurn earlier row later hrows⟩
  noneMissed hcancelled haborted hlimit _ hinstant :=
    h.waiting.not_mem_openings hcancelled haborted hlimit hinstant
  nominal k := dueAt_of_keepsPace hpace run.origin k
  notEarly earlier row later hrows := h.firedInTurn.due_le hrows
  first row later hrows := h.firedInTurn.start_first hrows
  catchesUp earlier row later hrows hfew := h.firedInTurn.start_eq hrows hfew
  paced instant horigin := h.firedInTurn.countP_started_le hpace hperiod horigin
  unended hunended := by
    refine ⟨?_, h.length_of_unended hunended⟩
    have hlength := h.firedInTurn.length_le hunended
    rw [length_rows h.reachable] at hlength ⊢
    exact h.reachable.ticks_le_mostUnended hlength

/-- Ticks fire at a fixed rate, whatever they do and however long they take.

With a timer that keeps the pace of the schedule, this holds of every run whose ticker is never
kept waiting, and so of every run that a loop serves on a virtual clock.  If such a loop comes to
a stop and its run is neither cancelled nor at its limit, there is no instant at which the next
tick could fire. -/
theorem ticks_fire_at_fixed_rate (hpace : schedule.timer.KeepsPace schedule.period.nanos)
    (hperiod : 0 < schedule.period.nanos) :
    (∀ run : Run σ τ ε, run.Punctual schedule work → FixedRate schedule run) ∧
    ∀ (cancelAt : Option Nat) (now : Nat) (cancelled : Bool) (shared : σ) (count : Nat)
      (loop : Loop σ τ ε),
      (Loop.start cancelAt (start schedule now cancelled shared)).turns? schedule work count =
          some loop →
        FixedRate schedule loop.run ∧
        (loop.turn? schedule work = none →
          (loop.round schedule work).run.cancelled = false →
          schedule.limitReached (loop.round schedule work).run.summary.ticks = false →
            openings schedule (loop.round schedule work).run.origin
              (loop.round schedule work).run.rows = ∅) := by
  refine ⟨fun run h => h.fixedRate hpace hperiod, ?_⟩
  intro cancelAt now cancelled shared count loop hturns
  have hserves := (Loop.Serves.start cancelAt now cancelled shared).turns hturns
  exact ⟨hserves.punctual.fixedRate hpace hperiod, openings_of_stuck hserves⟩

/-! ## A crowded run -/

/-- Two workers and ticks ten nanoseconds apart, without a limit. -/
def crowdedSchedule : Schedule := ⟨⟨10⟩, 2, none, .ideal⟩

/-- The first ticks last so long that the next ones are late; from the fifth on none ends. -/
def crowdedChore : Nat → Chore
  | 1 => .lasting (some 34) (.returns (.completed 0))
  | 2 => .lasting (some 27) (.returns (.completed 0))
  | 3 => .lasting (some 1) (.returns (.completed 0))
  | 4 => .lasting (some 1) (.returns (.completed 0))
  | _ => .lasting none (.returns (.completed 0))

/-- The work of the crowded ticks. -/
def crowdedWork : Work Unit Chore.Started Empty := Chore.work crowdedChore .never

/-- The loop about to serve a run of these ticks. -/
def crowdedStart : Loop Unit Chore.Started Empty :=
  .start none (start crowdedSchedule 7 false ())

/-- The loop when nothing will happen any more. -/
def crowdedLoop : Loop Unit Chore.Started Empty :=
  (crowdedStart.turns? crowdedSchedule crowdedWork 11).getD crowdedStart

theorem turns?_crowdedLoop :
    crowdedStart.turns? crowdedSchedule crowdedWork 11 = some crowdedLoop := rfl

theorem fixed_rate_of_crowdedLoop :
    crowdedLoop.run.Punctual crowdedSchedule crowdedWork ∧
      crowdedLoop.turn? crowdedSchedule crowdedWork = none ∧
      crowdedLoop.run.rows.map Row.start = [7, 17, 41, 42, 47, 57] ∧
      FixedRate crowdedSchedule crowdedLoop.run ∧
      openings crowdedSchedule (crowdedLoop.round crowdedSchedule crowdedWork).run.origin
        (crowdedLoop.round crowdedSchedule crowdedWork).run.rows = ∅ := by
  have hpunctual : crowdedLoop.run.Punctual crowdedSchedule crowdedWork :=
    ((Loop.Serves.start none 7 false ()).turns turns?_crowdedLoop).punctual
  have hrate := @ticks_fire_at_fixed_rate Unit _ _ crowdedSchedule crowdedWork
    (Timer.keepsPace_ideal _) (by decide)
  have hstuck : crowdedLoop.turn? crowdedSchedule crowdedWork = none := by rfl
  exact ⟨hpunctual, hstuck, by rfl, hrate.1 _ hpunctual,
    (hrate.2 none 7 false () 11 crowdedLoop turns?_crowdedLoop).2 hstuck (by rfl) (by rfl)⟩

end Run

end OrderFlow
