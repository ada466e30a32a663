import OrderFlow.Proofs.Scheduler.History
import OrderFlow.Scheduler.Chore
import Mathlib.Algebra.Ring.Nat
import Mathlib.Data.List.Perm.Basic
import Mathlib.Data.List.Nodup

/-!
# The ledger of a run

Every tick is called once, ends at most once and is recorded at most once, and the
totals of a run are the tally of what was recorded.  `Run.Settled` is the
invariant behind this.  It relates the places a tick can be found in, the list of
ticks in flight, the list of finished ticks and the views of the journal, and
every transition keeps it.
-/

namespace OrderFlow

/-! ## Tallies -/

namespace Ending

/-- Whether an ending counts as completed. -/
def isCompletion : Ending → Bool
  | .returned (.completed _) => true
  | _ => false

/-- Whether an ending counts as failed; a panic does. -/
def isFailure : Ending → Bool
  | .returned (.failed _) => true
  | .panicked _ => true
  | _ => false

/-- Whether an ending counts as cancelled. -/
def isCancellation : Ending → Bool
  | .returned .cancelled => true
  | .dropped => true
  | _ => false

/-- The lines that an ending reports as sent. -/
def sent : Ending → Nat
  | .returned (.completed sent) => sent
  | .returned (.failed sent) => sent
  | _ => 0

end Ending

namespace Summary

/-- The totals that a number of ticks and a list of endings amount to. -/
def tally (ticks : Nat) (endings : List Ending) : Summary where
  ticks := ticks
  completed := endings.countP Ending.isCompletion
  failed := endings.countP Ending.isFailure
  cancelled := endings.countP Ending.isCancellation
  ordersSent := (endings.map Ending.sent).sum

@[simp] theorem ticks_fire (summary : Summary) : summary.fire.ticks = summary.ticks + 1 := rfl

@[simp] theorem ticks_record (summary : Summary) (how : Ending) :
    (summary.record how).ticks = summary.ticks := by
  cases how with
  | returned outcome => cases outcome <;> rfl
  | panicked message => rfl
  | dropped => rfl

theorem fire_tally (ticks : Nat) (endings : List Ending) :
    (tally ticks endings).fire = tally (ticks + 1) endings := rfl

theorem record_tally (ticks : Nat) (endings : List Ending) (how : Ending) :
    (tally ticks endings).record how = tally ticks (endings ++ [how]) := by
  cases how with
  | returned outcome =>
      cases outcome <;>
        simp [record, recordOutcome, tally, Ending.isCompletion, Ending.isFailure,
          Ending.isCancellation, Ending.sent]
  | panicked message =>
      simp [record, tally, Ending.isCompletion, Ending.isFailure, Ending.isCancellation,
        Ending.sent]
  | dropped =>
      simp [record, recordOutcome, tally, Ending.isCompletion, Ending.isFailure,
        Ending.isCancellation, Ending.sent]

/-- An ending counts in exactly one of three ways. -/
theorem tally_total (ticks : Nat) (endings : List Ending) :
    (tally ticks endings).completed + (tally ticks endings).failed +
      (tally ticks endings).cancelled = endings.length := by
  induction endings with
  | nil => rfl
  | cons how rest ih =>
      simp only [tally, List.countP_cons, List.length_cons] at ih ⊢
      rcases how with outcome | message | _
      · cases outcome <;>
          simp [Ending.isCompletion, Ending.isFailure, Ending.isCancellation] <;> omega
      · simp [Ending.isCompletion, Ending.isFailure, Ending.isCancellation]
        omega
      · simp [Ending.isCompletion, Ending.isFailure, Ending.isCancellation]
        omega

end Summary

namespace Phase

/-- Whether a call panicked and took the run with it. -/
def isAborted : Phase → Bool
  | .aborted _ => true
  | _ => false

/-- Whether the ticker has tested the limit and not yet called the tick it tested for. -/
def isOnTheWay : Phase → Bool
  | .awaitingTimer => true
  | .awaitingPermit => true
  | .holdingPermit => true
  | _ => false

end Phase

namespace Run

variable {σ τ ε : Type} {schedule : Schedule} {work : Work σ τ ε} {run next : Run σ τ ε}

/-! ## Ticks in flight -/

/-- A tick that is looked up can be put in front of the others. -/
theorem perm_cons_filter_of_lookup {running : List (Nat × τ)} {tick : Nat} {state : τ}
    (hnodup : (running.map Prod.fst).Nodup) (h : running.lookup tick = some state) :
    running.Perm ((tick, state) :: running.filter fun entry => entry.1 != tick) := by
  induction running with
  | nil => cases h
  | cons entry rest ih =>
      obtain ⟨number, other⟩ := entry
      rw [List.map_cons, List.nodup_cons] at hnodup
      by_cases hnumber : number = tick
      · subst hnumber
        have hstate : other = state := by simpa using h
        have hrest : rest.filter (fun entry => entry.1 != number) = rest := by
          rw [List.filter_eq_self]
          intro entry hentry
          have : entry.1 ≠ number := fun heq =>
            hnodup.1 (List.mem_map.mpr ⟨entry, hentry, heq⟩)
          simpa using this
        simp [hstate, hrest]
      · have hlookup : rest.lookup tick = some state := by
          rw [List.lookup_cons] at h
          simpa [beq_false_of_ne (Ne.symm hnumber)] using h
        rw [List.filter_cons_of_pos (by simpa using hnumber)]
        exact ((ih hnodup.2 hlookup).cons _).trans (List.Perm.swap _ _ _)

/-- Keeping a tick in flight keeps the numbers in flight. -/
theorem map_fst_keep (running : List (Nat × τ)) (tick : Nat) (state : τ) :
    (running.map fun entry => if entry.1 = tick then (tick, state) else entry).map Prod.fst =
      running.map Prod.fst := by
  rw [List.map_map]
  apply List.map_congr_left
  intro entry _
  by_cases h : entry.1 = tick
  · simp [h]
  · simp [h]

/-! ## Calls and totals -/

/-- The ticks called are those from one up to the number of ticks counted, in that order. -/
theorem Reachable.called (h : run.Reachable schedule work) :
    Entry.calledIn run.entries = List.range' 1 run.summary.ticks := by
  refine h.induction (fun _ _ _ => rfl) ?_
  intro run action next _ htransition ih
  cases htransition with
  | call phase called => simp [ih, List.range'_1_concat, Nat.add_comm 1]
  | callPanics phase called => simp [ih, List.range'_1_concat, Nat.add_comm 1]
  | _ => simp [ih]

/-- The totals are the tally of the endings recorded. -/
theorem Reachable.counted (h : run.Reachable schedule work) :
    run.summary =
      .tally run.summary.ticks ((Entry.recordedIn run.entries).map Prod.snd) := by
  refine h.induction (fun _ _ _ => rfl) ?_
  intro run action next _ htransition ih
  cases htransition with
  | call phase called =>
      have hfire := congrArg Summary.fire ih
      simpa [Summary.fire_tally] using hfire
  | callPanics phase called =>
      have hfire := congrArg Summary.fire ih
      simpa [Summary.fire_tally] using hfire
  | @collect index tick how phase found =>
      have hrecord := congrArg (fun summary => Summary.record summary how) ih
      simpa [Summary.record_tally] using hrecord
  | _ => simpa using ih

/-! ## The tick limit -/

/-- No more ticks fired than the limit allows, and there is room for the tick on its way. -/
structure Limited (schedule : Schedule) (run : Run σ τ ε) : Prop where
  within : ∀ limit, schedule.maxTicks = some limit → run.summary.ticks ≤ limit
  room : run.phase.isOnTheWay = true → schedule.limitReached run.summary.ticks = false

theorem lt_of_limitReached_eq_false {ticks limit : Nat}
    (h : schedule.limitReached ticks = false) (hlimit : schedule.maxTicks = some limit) :
    ticks < limit := by
  simpa [Schedule.limitReached, hlimit] using h

theorem Limited.fire {phase : Phase} (h : Limited schedule run)
    (hphase : run.phase = .holdingPermit) (hticks : next.summary.ticks = run.summary.ticks + 1)
    (hnext : next.phase = phase) (hway : phase.isOnTheWay = false) :
    Limited schedule next := by
  constructor
  · intro limit hlimit
    have hroom := h.room (by rw [hphase]; rfl)
    have hlt := lt_of_limitReached_eq_false hroom hlimit
    omega
  · intro hphase'
    rw [hnext, hway] at hphase'
    cases hphase'

theorem Reachable.limited (h : run.Reachable schedule work) : Limited schedule run := by
  refine h.induction (fun _ _ _ => ?_) ?_
  · exact ⟨fun limit _ => Nat.zero_le limit, fun hphase => by cases hphase⟩
  intro run action next _ htransition ih
  -- The check leaves room for one tick, which only a call uses up.
  cases htransition with
  | advance move =>
      refine ⟨ih.within, fun hphase => ?_⟩
      cases move with
      | goOn phase limit => exact limit
      | timerFires phase uncancelled due => exact ih.room (by rw [phase]; rfl)
      | _ => cases hphase
  | takePermit phase uncancelled free =>
      exact ⟨ih.within, fun _ => ih.room (by rw [phase]; rfl)⟩
  | call phase called => exact ih.fire phase rfl rfl rfl
  | callPanics phase called => exact ih.fire phase rfl rfl rfl
  | collect phase found =>
      constructor
      · simpa using ih.within
      · simpa using ih.room
  | _ => exact ⟨ih.within, ih.room⟩

/-! ## Where the ticks are -/

/-- Every tick is in one place: the endings are those recorded and those yet to be recorded,
and the ticks called are those that ended and those in flight.  An aborted run keeps no
account of the ticks it threw away. -/
structure Settled (run : Run σ τ ε) : Prop where
  gone : run.phase.isAborted = true → run.running = []
  ended : run.phase.isAborted = false →
    (Entry.endedIn run.entries).Perm (Entry.recordedIn run.entries ++ run.finished)
  called : run.phase.isAborted = false →
    (Entry.calledIn run.entries).Perm
      ((Entry.endedIn run.entries).map Prod.fst ++ run.running.map Prod.fst)

theorem Settled.of_not_aborted (haborted : run.phase.isAborted = false)
    (hended : (Entry.endedIn run.entries).Perm
      (Entry.recordedIn run.entries ++ run.finished))
    (hcalled : (Entry.calledIn run.entries).Perm
      ((Entry.endedIn run.entries).map Prod.fst ++ run.running.map Prod.fst)) :
    Settled run := by
  refine ⟨?_, fun _ => hended, fun _ => hcalled⟩
  intro hgone
  rw [haborted] at hgone
  cases hgone

/-- A run with a tick in flight is not aborted. -/
theorem Settled.not_aborted {tick : Nat} {state : τ} (h : Settled run)
    (hrunning : run.running.lookup tick = some state) : run.phase.isAborted = false := by
  cases hphase : run.phase.isAborted with
  | false => rfl
  | true =>
      rw [h.gone hphase] at hrunning
      cases hrunning

theorem Settled.nodup_running (h : Settled run) (hreachable : run.Reachable schedule work) :
    (run.running.map Prod.fst).Nodup := by
  cases hphase : run.phase.isAborted with
  | true => simp [h.gone hphase]
  | false =>
      have hnodup := (h.called hphase).nodup_iff.mp
        (by rw [hreachable.called]; exact List.nodup_range')
      exact (List.nodup_append.mp hnodup).2.1

theorem Advance.not_aborted {phase : Phase} {fired : Nat} {events : List Event}
    (move : Advance schedule run phase fired events) :
    run.phase.isAborted = false ∧ phase.isAborted = false := by
  cases move <;> exact ⟨by rw [‹run.phase = _›]; rfl, rfl⟩

/-- A tick that ends goes from the ticks in flight to the finished ones. -/
theorem Settled.leave {tick : Nat} {state : τ} {how : Ending} {notes : List (Entry ε)}
    (h : Settled run) (hreachable : run.Reachable schedule work)
    (hrunning : run.running.lookup tick = some state)
    (hphase : next.phase = run.phase) (hentries : next.entries = run.entries ++ notes)
    (hcalled : Entry.calledIn notes = []) (hrecorded : Entry.recordedIn notes = [])
    (hended : Entry.endedIn notes = [(tick, how)])
    (hnext : next.running = run.running.filter fun entry => entry.1 != tick)
    (hfinished : next.finished = run.finished ++ [(tick, how)]) :
    Settled next := by
  have haborted := h.not_aborted hrunning
  apply Settled.of_not_aborted (by rw [hphase, haborted])
  · have hsame := (h.ended haborted).append_right [(tick, how)]
    simpa [hentries, hrecorded, hended, hfinished] using hsame
  · have hleft := perm_cons_filter_of_lookup (h.nodup_running hreachable) hrunning
    have hnumbers := (hleft.map Prod.fst).append_left
      ((Entry.endedIn run.entries).map Prod.fst)
    have hsame := (h.called haborted).trans hnumbers
    simpa [hentries, hcalled, hended, hnext] using hsame

theorem Settled.keep {action : Action} (ih : Settled run)
    (hreachable : run.Reachable schedule work)
    (htransition : Transition schedule work run action next) : Settled next := by
  cases htransition with
  | advance move =>
      obtain ⟨hbefore, hafter⟩ := move.not_aborted
      apply Settled.of_not_aborted hafter
      · simpa using ih.ended hbefore
      · simpa using ih.called hbefore
  | takePermit phase uncancelled free =>
      have haborted : run.phase.isAborted = false := by rw [phase]; rfl
      exact .of_not_aborted rfl (ih.ended haborted) (ih.called haborted)
  | call phase called =>
      have haborted : run.phase.isAborted = false := by rw [phase]; rfl
      apply Settled.of_not_aborted rfl
      · simpa using ih.ended haborted
      · have hsame := (ih.called haborted).append_right [run.summary.ticks + 1]
        simpa using hsame
  | callPanics phase called =>
      refine ⟨fun _ => rfl, ?_, ?_⟩
      · intro haborted
        cases haborted
      · intro haborted
        cases haborted
  | @collect index tick how phase found =>
      refine ⟨ih.gone, ?_, ?_⟩
      · intro haborted
        obtain ⟨hindex, hfound⟩ := List.getElem?_eq_some_iff.mp found
        have hperm := List.getElem_cons_eraseIdx_perm hindex
        rw [hfound] at hperm
        have hsame := (ih.ended haborted).trans (hperm.symm.append_left _)
        simpa using hsame
      · intro haborted
        simpa using ih.called haborted
  | finish running polled ending =>
      exact ih.leave hreachable running rfl (entries_mk_journalWith ..)
        (by simp) (by simp) (by simp) rfl rfl
  | drop running polled fired =>
      exact ih.leave hreachable running rfl (entries_mk_journalWith ..)
        (by simp) (by simp) (by simp) rfl rfl
  | keep running polled unfired =>
      have haborted := ih.not_aborted running
      refine .of_not_aborted haborted ?_ ?_
      · simpa using ih.ended haborted
      · simp only [map_fst_keep]
        simpa using ih.called haborted
  | cancel => exact ⟨ih.gone, by simpa using ih.ended, by simpa using ih.called⟩
  | wait later => exact ⟨ih.gone, ih.ended, ih.called⟩

theorem Reachable.settled (h : run.Reachable schedule work) : Settled run := by
  refine h.induction (fun _ _ _ => ?_) ?_
  · exact ⟨fun _ => rfl, fun _ => .nil, fun _ => .nil⟩
  · intro run action next hreachable htransition ih
    exact ih.keep hreachable htransition

/-- A run that is not aborted has its ticks recorded, finished or in flight. -/
theorem Settled.called_perm (h : Settled run) (haborted : run.phase.isAborted = false) :
    (Entry.calledIn run.entries).Perm ((Entry.recordedIn run.entries).map Prod.fst ++
      (run.finished.map Prod.fst ++ run.running.map Prod.fst)) := by
  have hended := ((h.ended haborted).map Prod.fst).append_right (run.running.map Prod.fst)
  have hcalled := (h.called haborted).trans hended
  simpa using hcalled

/-! ## What is recorded -/

/-- Whatever is recorded is an ending of a tick that was called, and is recorded once.  Unlike
`Settled` this is also said of an aborted run. -/
structure Recorded (run : Run σ τ ε) : Prop where
  called : ∃ rest, (Entry.calledIn run.entries).Perm
    ((Entry.recordedIn run.entries).map Prod.fst ++ rest)
  ended : ∀ record ∈ Entry.recordedIn run.entries, record ∈ Entry.endedIn run.entries

theorem Settled.recorded (h : Settled run) (haborted : run.phase.isAborted = false) :
    Recorded run := by
  refine ⟨⟨_, h.called_perm haborted⟩, ?_⟩
  intro record hrecord
  exact (h.ended haborted).mem_iff.mpr (List.mem_append_left _ hrecord)

theorem Reachable.recorded (h : run.Reachable schedule work) : Recorded run := by
  refine h.induction (fun _ _ _ => ?_) ?_
  · exact ⟨⟨[], .nil⟩, fun record hrecord => hrecord⟩
  intro run action next hreachable htransition ih
  have hnext := hreachable.settled.keep hreachable htransition
  cases haborted : next.phase.isAborted with
  | false => exact hnext.recorded haborted
  | true =>
      -- A run is aborted by the call that panics, and after that only the token and the
      -- clock can move.
      cases htransition with
      | advance move =>
          rw [move.not_aborted.2] at haborted
          cases haborted
      | callPanics phase called =>
          obtain ⟨rest, hrest⟩ := ih.called
          refine ⟨⟨rest ++ [run.summary.ticks + 1], ?_⟩, ?_⟩
          · have hsame := hrest.append_right [run.summary.ticks + 1]
            simpa using hsame
          · intro record hrecord
            have hrecord' : record ∈ Entry.recordedIn run.entries := by
              simpa using hrecord
            rw [entries_mk_journalWith]
            exact Entry.mem_seen_append_left (ih.ended record hrecord') _
      | collect phase found =>
          rcases phase with phase | phase <;> simp [phase, Phase.isAborted] at haborted
      | finish running polled ending =>
          rw [hreachable.settled.not_aborted running] at haborted
          cases haborted
      | drop running polled fired =>
          rw [hreachable.settled.not_aborted running] at haborted
          cases haborted
      | keep running polled unfired =>
          rw [hreachable.settled.not_aborted running] at haborted
          cases haborted
      | takePermit phase uncancelled free => cases haborted
      | call phase called => cases haborted
      | cancel => exact ⟨by simpa using ih.called, by simpa using ih.ended⟩
      | wait later => exact ⟨ih.called, ih.ended⟩

/-! ## The account -/

/-- The ticks called whose ending is not recorded. -/
def unrecorded (run : Run σ τ ε) : List Nat :=
  (Entry.calledIn run.entries).filter
    (· ∉ (Entry.recordedIn run.entries).map Prod.fst)

theorem filter_notMem_append {xs ys : List Nat} (h : (xs ++ ys).Nodup) :
    (xs ++ ys).filter (· ∉ xs) = ys := by
  have hxs : xs.filter (· ∉ xs) = [] := by
    simp
  have hys : ys.filter (· ∉ xs) = ys := by
    rw [List.filter_eq_self]
    intro y hy
    have hdisjoint := (List.nodup_append.mp h).2.2
    simpa using fun hmem => hdisjoint y hmem y hy rfl
  rw [List.filter_append, hxs, hys, List.nil_append]

theorem Reachable.nodup_called (h : run.Reachable schedule work) :
    (Entry.calledIn run.entries).Nodup := by
  rw [h.called]
  exact List.nodup_range'

/-- What completes the recorded ticks to the ticks called is what is unrecorded. -/
theorem Reachable.unrecorded_perm {rest : List Nat} (h : run.Reachable schedule work)
    (hrest : (Entry.calledIn run.entries).Perm
      ((Entry.recordedIn run.entries).map Prod.fst ++ rest)) :
    (unrecorded run).Perm rest := by
  have hnodup := hrest.nodup_iff.mp h.nodup_called
  rw [← filter_notMem_append hnodup]
  exact hrest.filter _

theorem Reachable.nodup_recorded (h : run.Reachable schedule work) :
    ((Entry.recordedIn run.entries).map Prod.fst).Nodup := by
  obtain ⟨rest, hrest⟩ := h.recorded.called
  exact (List.nodup_append.mp (hrest.nodup_iff.mp h.nodup_called)).1

theorem Reachable.ticks_eq (h : run.Reachable schedule work) :
    run.summary.ticks = run.summary.completed + run.summary.failed +
      run.summary.cancelled + (unrecorded run).length := by
  obtain ⟨rest, hrest⟩ := h.recorded.called
  have hlength := hrest.length_eq
  rw [h.called, List.length_range', List.length_append, List.length_map] at hlength
  have htotal := Summary.tally_total run.summary.ticks
    ((Entry.recordedIn run.entries).map Prod.snd)
  rw [← h.counted, List.length_map] at htotal
  rw [(h.unrecorded_perm hrest).length_eq]
  omega

/-- A run returns only when nothing is left in flight or unrecorded. -/
theorem Reachable.idle_of_returned (h : run.Reachable schedule work) :
    run.phase = .returned → run.finished = [] ∧ run.running = [] := by
  refine h.induction (fun _ _ _ hphase => by cases hphase) ?_
  intro run action next _ htransition ih hphase
  rcases htransition.stops_or_stays hphase with hreturned | ⟨hfinished, hrunning, rfl⟩
  · obtain ⟨hfinished, hrunning⟩ := ih hreturned
    rw [htransition.after_return hreturned hrunning]
    exact ⟨hfinished, hrunning⟩
  · exact ⟨hfinished, hrunning⟩

/-- The account of a run, whatever its ticks do and in whatever order they end and are
recorded.

Ticks are called once each, from one on and within the limit.  The totals are the tally of the
endings recorded: no tick is recorded twice, and none otherwise than it ended.  The ticks
counted are those recorded and those whose ending is not recorded yet, which are the finished
ones and those in flight unless a call panicked; so once the run returns every tick is counted
once. -/
theorem totals_account_for_every_tick (h : run.Reachable schedule work) :
    Entry.calledIn run.entries = List.range' 1 run.summary.ticks ∧
    (∀ limit, schedule.maxTicks = some limit → run.summary.ticks ≤ limit) ∧
    run.summary =
      .tally run.summary.ticks ((Entry.recordedIn run.entries).map Prod.snd) ∧
    ((Entry.recordedIn run.entries).map Prod.fst).Nodup ∧
    (∀ record ∈ Entry.recordedIn run.entries, record ∈ Entry.endedIn run.entries) ∧
    run.summary.ticks = run.summary.completed + run.summary.failed +
      run.summary.cancelled + (unrecorded run).length ∧
    (run.phase.isAborted = false →
      (unrecorded run).Perm (run.finished.map Prod.fst ++ run.running.map Prod.fst)) ∧
    (run.phase = .returned →
      run.summary.ticks =
        run.summary.completed + run.summary.failed + run.summary.cancelled ∧
      ((Entry.recordedIn run.entries).map Prod.fst).Perm
        (List.range' 1 run.summary.ticks)) := by
  have hsettled := h.settled
  refine ⟨h.called, h.limited.within, h.counted, h.nodup_recorded, h.recorded.ended,
    h.ticks_eq, ?_, ?_⟩
  · intro haborted
    exact h.unrecorded_perm (hsettled.called_perm haborted)
  · intro hphase
    have haborted : run.phase.isAborted = false := by rw [hphase]; rfl
    obtain ⟨hfinished, hrunning⟩ := h.idle_of_returned hphase
    have hperm := hsettled.called_perm haborted
    simp only [hfinished, hrunning, List.map_nil, List.append_nil] at hperm
    have hnone : unrecorded run = [] :=
      (h.unrecorded_perm (by simpa using hperm)).eq_nil
    constructor
    · simpa [hnone] using h.ticks_eq
    · rw [← h.called]
      exact hperm.symm

/-! ## A run with every kind of ending -/

/-- Two workers and four ticks, ten nanoseconds apart. -/
def mixedSchedule : Schedule := ⟨⟨10⟩, 2, some 4, .ideal⟩

/-- The first tick completes, the second panics, the third fails and the fourth is stuck. -/
def mixedChore : Nat → Chore
  | 1 => .lasting (some 0) (.returns (.completed 5))
  | 2 => .lasting (some 0) (.panics "no engine")
  | 3 => .lasting (some 0) (.returns (.failed 2))
  | _ => .lasting none (.returns (.completed 0))

/-- The work of the mixed ticks. -/
def mixedWork : Work Unit Chore.Started Empty := Chore.work mixedChore .never

/-- What the ticker does to fire at an instant. -/
def firing (instant : Nat) : List Action :=
  [.ticker, .wait instant, .ticker, .ticker, .ticker]

/-- The first two ticks end in the wrong order, the limit is reached, and the token fires while
the last tick is awaited. -/
def mixedActions : List Action :=
  firing 0 ++ [.ticker] ++ firing 10 ++ [.poll 2, .poll 1, .collect 1, .collect 0, .ticker] ++
    firing 20 ++ [.ticker] ++ firing 30 ++ [.poll 3, .poll 4, .collect 0, .ticker, .ticker,
      .cancel, .poll 4, .collect 0, .ticker]

/-- The run that these actions lead to. -/
def mixedRun : Run Unit Chore.Started Empty :=
  ((start mixedSchedule 0 false ()).steps? mixedSchedule mixedWork mixedActions).getD
    (start mixedSchedule 0 false ())

theorem reachable_mixedRun : mixedRun.Reachable mixedSchedule mixedWork :=
  ⟨0, false, (), mixedActions, rfl⟩

theorem totals_account_for_mixed_ticks :
    mixedRun.Reachable mixedSchedule mixedWork ∧ mixedRun.phase = .returned ∧
      mixedRun.summary = ⟨4, 1, 2, 1, 7⟩ ∧
      ((Entry.recordedIn mixedRun.entries).map Prod.fst).Perm (List.range' 1 4) :=
  ⟨reachable_mixedRun, rfl, rfl,
    ((totals_account_for_every_tick reachable_mixedRun).2.2.2.2.2.2.2 rfl).2⟩

end Run

end OrderFlow
