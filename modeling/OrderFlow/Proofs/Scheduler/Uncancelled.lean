import OrderFlow.Proofs.Scheduler.TickHistory

/-!
# Runs whose token has not fired

The token never goes back, so a run whose token has not fired never had it fired.  In such a
run no tick is dropped: every tick that ended has reported an outcome or panicked.  Once a run
has returned, every tick that it called has ended and is recorded.
-/

namespace OrderFlow.Run

variable {σ τ ε : Type} {schedule : Schedule} {work : Work σ τ ε} {run next : Run σ τ ε}

theorem Transition.uncancelled {action : Action} (h : Transition schedule work run action next)
    (hnext : next.cancelled = false) : run.cancelled = false := by
  cases h with
  | call phase called => exact (Bool.or_eq_false_iff.mp hnext).1
  | callPanics phase called => exact (Bool.or_eq_false_iff.mp hnext).1
  | finish running polled ending => exact (Bool.or_eq_false_iff.mp hnext).1
  | keep running polled unfired => exact (Bool.or_eq_false_iff.mp unfired).1
  | drop running polled fired => cases hnext
  | cancel => cases hnext
  | _ => exact hnext

/-- While the token has not fired no tick is dropped, unless a call panics. -/
theorem Reachable.undropped (h : run.Reachable schedule work) :
    run.phase.isAborted = false → run.cancelled = false →
      ∀ tick, (tick, .dropped) ∉ Entry.endedIn run.entries := by
  refine h.induction (fun _ _ _ _ _ tick hmem => ?_) ?_
  · cases hmem
  intro run action next _ htransition ih haborted hcancelled tick hmem
  have hbefore : run.phase.isAborted = false → (tick, .dropped) ∉ Entry.endedIn run.entries :=
    fun hrun => ih hrun (htransition.uncancelled hcancelled) tick
  cases htransition with
  | advance move => exact hbefore move.not_aborted.1 (by simpa using hmem)
  | takePermit phase uncancelled free => exact hbefore (by rw [phase]; rfl) hmem
  | call phase called => exact hbefore (by rw [phase]; rfl) (by simpa using hmem)
  | callPanics phase called => cases haborted
  | collect phase found => exact hbefore haborted (by simpa using hmem)
  | @finish tick' state effect status how running polled ending =>
      have hown : how ≠ .dropped := by
        rintro rfl
        cases status <;> cases ending
      have hnew : (tick, .dropped) ∈ Entry.endedIn run.entries ∨ tick = tick' ∧ .dropped = how := by
        simpa using hmem
      exact hnew.elim (hbefore haborted) fun hlast => hown hlast.2.symm
  | drop running polled fired => cases hcancelled
  | keep running polled unfired => exact hbefore haborted (by simpa using hmem)
  | cancel => cases hcancelled
  | wait later => exact hbefore haborted hmem

/-- While the token has not fired no tick is kept from firing but by the limit. -/
theorem Reachable.limitReached (h : run.Reachable schedule work) :
    run.phase = .draining ∨ run.phase = .returned → run.cancelled = false →
      schedule.limitReached run.summary.ticks = true := by
  refine h.induction (fun _ _ _ hphase => by rcases hphase with hphase | hphase <;> cases hphase) ?_
  intro run action next _ htransition ih hphase hcancelled
  have hbefore := htransition.uncancelled hcancelled
  cases htransition with
  | advance move =>
      cases move with
      | reachLimit phase limit => exact limit
      | stopAtTimer phase cancelled =>
          rw [hbefore] at cancelled
          cases cancelled
      | stopAtPool phase cancelled =>
          rw [hbefore] at cancelled
          cases cancelled
      | stop phase finished running => exact ih (Or.inl phase) hbefore
      | _ => rcases hphase with hphase | hphase <;> cases hphase
  | takePermit phase uncancelled free => rcases hphase with hphase | hphase <;> cases hphase
  | call phase called => rcases hphase with hphase | hphase <;> cases hphase
  | callPanics phase called => rcases hphase with hphase | hphase <;> cases hphase
  | collect phase found =>
      rw [Summary.ticks_record]
      exact ih hphase hbefore
  | _ => exact ih hphase hbefore

/-- A run that returned before its token fired has used up its limit. -/
theorem Reachable.ticks_of_returned {count : Nat} (h : run.Reachable schedule work)
    (hlimit : schedule.maxTicks = some count) (hcancelled : run.cancelled = false)
    (hphase : run.phase = .returned) : run.summary.ticks = count := by
  have hreached := h.limitReached (Or.inr hphase) hcancelled
  rw [Schedule.limitReached, hlimit, decide_eq_true_eq] at hreached
  exact Nat.le_antisymm (h.limited.within count hlimit) hreached

/-- Once a run has returned every tick called is recorded. -/
theorem Reachable.recorded_perm (h : run.Reachable schedule work)
    (hphase : run.phase = .returned) :
    ((Entry.recordedIn run.entries).map Prod.fst).Perm (List.range' 1 run.summary.ticks) := by
  obtain ⟨hfinished, hrunning⟩ := h.idle_of_returned hphase
  have hperm := h.settled.called_perm (by rw [hphase]; rfl)
  simp only [hfinished, hrunning, List.map_nil, List.append_nil] at hperm
  rw [← h.called]
  exact hperm.symm

theorem Reachable.exists_ended (h : run.Reachable schedule work)
    (hphase : run.phase = .returned) {tick : Nat}
    (htick : 1 ≤ tick ∧ tick ≤ run.summary.ticks) :
    ∃ how, (tick, how) ∈ Entry.endedIn run.entries := by
  have hmem : tick ∈ List.range' 1 run.summary.ticks := by
    rw [List.mem_range'_1]
    omega
  obtain ⟨⟨_, how⟩, hrecorded, rfl⟩ :=
    List.mem_map.mp ((h.recorded_perm hphase).mem_iff.mpr hmem)
  exact ⟨how, h.recorded.ended _ hrecorded⟩

end OrderFlow.Run
