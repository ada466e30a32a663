import OrderFlow.Proofs.Scheduler.Ledger

/-!
# The pool of permits

A permit is free, or held by the ticker between getting it and calling a tick, or
with a tick in flight.  No transition makes a permit or loses one, so there are
never more ticks in flight than workers, and a run that is over leaves a full
pool to the next one.
-/

namespace OrderFlow

/-- The permits that the ticker holds in a phase. -/
def Phase.permitsHeld : Phase → Nat
  | .holdingPermit => 1
  | _ => 0

theorem Phase.permitsHeld_of_isOver {phase : Phase} (h : phase.isOver = true) :
    phase.permitsHeld = 0 := by
  cases phase with
  | returned => rfl
  | aborted message => rfl
  | _ => cases h

namespace Run

variable {σ τ ε : Type} {schedule : Schedule} {work : Work σ τ ε} {run next : Run σ τ ε}

theorem Advance.permitsHeld {phase : Phase} {fired : Nat} {events : List Event}
    (move : Advance schedule run phase fired events) :
    run.phase.permitsHeld = 0 ∧ phase.permitsHeld = 0 := by
  cases move <;> exact ⟨by rw [‹run.phase = _›]; rfl, rfl⟩

/-- A tick that leaves makes the list of ticks in flight shorter by one. -/
theorem Reachable.length_running_of_lookup {tick : Nat} {state : τ}
    (h : run.Reachable schedule work) (hrunning : run.running.lookup tick = some state) :
    run.running.length =
      (run.running.filter fun entry => entry.1 != tick).length + 1 := by
  have hnodup := h.settled.nodup_running h
  simpa using (perm_cons_filter_of_lookup hnodup hrunning).length_eq

/-- Every permit is in one place. -/
theorem Reachable.pooled (h : run.Reachable schedule work) :
    run.free + run.phase.permitsHeld + run.running.length = schedule.workers := by
  refine h.induction (fun _ _ _ => rfl) ?_
  intro run action next hreachable htransition ih
  cases htransition with
  | advance move =>
      obtain ⟨hbefore, hafter⟩ := move.permitsHeld
      simpa [hbefore, hafter] using ih
  | takePermit phase uncancelled free =>
      simp only [phase, Phase.permitsHeld] at ih ⊢
      omega
  | call phase called =>
      simp only [phase, Phase.permitsHeld, List.length_append, List.length_singleton] at ih ⊢
      omega
  | callPanics phase called =>
      simp only [phase, Phase.permitsHeld, List.length_nil] at ih ⊢
      omega
  | finish running polled ending =>
      have hlength := hreachable.length_running_of_lookup running
      simp only
      omega
  | drop running polled fired =>
      have hlength := hreachable.length_running_of_lookup running
      simp only
      omega
  | _ => simpa using ih

theorem Reachable.length_running_le (h : run.Reachable schedule work) :
    run.running.length ≤ schedule.workers := by
  have hpooled := h.pooled
  omega

/-- Nothing is in flight once a run is over. -/
theorem Reachable.running_of_isOver (h : run.Reachable schedule work)
    (hover : run.phase.isOver = true) : run.running = [] := by
  cases hphase : run.phase with
  | returned => exact (h.idle_of_returned hphase).2
  | aborted message => exact h.settled.gone (by rw [hphase]; rfl)
  | _ =>
      rw [hphase] at hover
      cases hover

theorem Reachable.free_of_isOver (h : run.Reachable schedule work)
    (hover : run.phase.isOver = true) : run.free = schedule.workers := by
  have hpooled := h.pooled
  rw [h.running_of_isOver hover, Phase.permitsHeld_of_isOver hover] at hpooled
  simpa using hpooled

/-- The next run of a scheduler begins like the first one. -/
theorem Reachable.startAgain_eq (h : run.Reachable schedule work)
    (hover : run.phase.isOver = true) :
    run.startAgain schedule = start schedule run.now run.cancelled run.shared := by
  rw [startAgain, h.free_of_isOver hover]
  rfl

/-- A permit is given back exactly where a tick ends. -/
theorem Reachable.free_add_called (h : run.Reachable schedule work)
    (haborted : run.phase.isAborted = false) :
    run.free + run.phase.permitsHeld + (Entry.calledIn run.entries).length =
      schedule.workers + (Entry.endedIn run.entries).length := by
  have hlength := (h.settled.called haborted).length_eq
  rw [List.length_append, List.length_map, List.length_map] at hlength
  have hpooled := h.pooled
  omega

/-! ## After the return -/

/-- Nothing but the token and the clock moves once a run returned. -/
theorem Reachable.after_return {last : Run σ τ ε} (h : run.Reachable schedule work)
    (hphase : run.phase = .returned) (hleads : run.Leads schedule work last) :
    last = { run with cancelled := last.cancelled, now := last.now } := by
  obtain ⟨hfinished, hrunning⟩ := h.idle_of_returned hphase
  refine hleads.induction rfl ?_
  intro middle action next _ htransition ih
  have hnext := htransition.after_return (by rw [ih]; exact hphase)
    (by rw [ih]; exact hrunning)
  rw [hnext, ih]

end Run

end OrderFlow
