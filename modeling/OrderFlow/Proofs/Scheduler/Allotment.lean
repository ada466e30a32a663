import OrderFlow.Proofs.Scheduler.Uncancelled
import OrderFlow.Scheduler.Chore

/-!
# Runs of allotted ticks

A `Chore.Allotment` gives each of the first ticks a finite time that it lasts and a fate.  In a
run whose token does not fire every tick meets its own fate, and the totals of a run that
returned are those of all fates, in whatever order the ticks were polled and recorded.
-/

namespace OrderFlow

/-- The ending that a fate leads to. -/
def Fate.ending : Fate → Ending
  | .returns outcome => .returned outcome
  | .panics message => .panicked message

/-- Totals do not depend on the order in which endings are counted. -/
theorem Summary.tally_perm (ticks : Nat) {xs ys : List Ending} (h : xs.Perm ys) :
    tally ticks xs = tally ticks ys := by
  unfold tally
  rw [h.countP_eq, h.countP_eq, h.countP_eq, (h.map Ending.sent).sum_nat]

namespace Chore

/-- Each of the first `count` ticks lasts for a finite time and then meets a fate. -/
def Allotment (chores : Nat → Chore) (count : Nat) (fate : Nat → Fate) : Prop :=
  ∀ tick, 1 ≤ tick → tick ≤ count → ∃ nanos, chores tick = .lasting (some nanos) (fate tick)

/-- A chore on its way is done at some instant if it lasts for a finite time. -/
def Awaited (chore : Chore) (started : Started) : Prop :=
  ∃ nanos, chore = .lasting nanos started.fate ∧ started.doneAt.isSome = nanos.isSome

/-- A chore came to its end: it met its fate or was dropped. -/
def Met (chore : Chore) (how : Ending) : Prop :=
  how = .dropped ∨ ∃ nanos fate, chore = .lasting nanos fate ∧ how = fate.ending

variable {chores : Nat → Chore} {trigger : Trigger}

/-- A poll leaves a chore as it is until it is done, and then brings it to its fate. -/
theorem poll_cases {tick now : Nat} {shared : Unit} {started : Started}
    {effect : Effect Unit Empty} {status : Status Started}
    (h : (work chores trigger).poll tick now shared started = (effect, status)) :
    (status = .pending started ∧ ∀ instant, started.doneAt = some instant → now < instant) ∨
      ((∃ instant, started.doneAt = some instant ∧ instant ≤ now) ∧
        status.ending? = some started.fate.ending) := by
  obtain rfl : started.status now = status := (Prod.mk.inj h).2
  unfold Started.status
  rcases hdone : started.doneAt with - | instant
  · exact Or.inl ⟨rfl, fun _ hsome => by cases hsome⟩
  · by_cases hnow : instant ≤ now
    · refine Or.inr ⟨⟨instant, rfl, hnow⟩, ?_⟩
      dsimp only
      rw [if_pos hnow]
      cases started.fate <;> rfl
    · refine Or.inl ⟨if_neg hnow, ?_⟩
      intro other hother
      obtain rfl := Option.some.inj hother
      exact Nat.not_le.mp hnow

theorem work_keeps :
    (work chores trigger).Keeps (fun tick _ started => Awaited (chores tick) started)
      (fun tick _ how => Met (chores tick) how) where
  call := by
    intro tick now shared effect started hcalled
    rcases hchore : chores tick with ⟨nanos, fate⟩ | message
    · simp only [work, hchore] at hcalled
      obtain ⟨-, hstarted⟩ := Prod.mk.inj hcalled
      obtain rfl := Except.ok.inj hstarted
      exact ⟨nanos, rfl, Option.isSome_map⟩
    · simp only [work, hchore] at hcalled
      cases hcalled
  pending := by
    intro tick now shared effect started next acts hawaited hpolled
    rcases poll_cases hpolled with ⟨hpending, -⟩ | ⟨-, hending⟩
    · obtain rfl := Status.pending.inj hpending
      exact hawaited
    · cases hending
  ending := by
    intro tick now shared effect started status how acts hawaited hpolled hending
    rcases poll_cases hpolled with ⟨rfl, -⟩ | ⟨-, hfate⟩
    · cases hending
    · obtain ⟨nanos, hchore, -⟩ := hawaited
      rw [hending] at hfate
      exact Or.inr ⟨nanos, started.fate, hchore, Option.some.inj hfate⟩
  drop := fun _ => Or.inl rfl

end Chore

namespace Run

variable {schedule : Schedule} {chores : Nat → Chore} {trigger : Trigger} {count : Nat}
  {fate : Nat → Fate} {run : Run Unit Chore.Started Empty}

section Allotted

variable (hlimit : schedule.maxTicks = some count) (hallot : Chore.Allotment chores count fate)
  (h : run.Reachable schedule (Chore.work chores trigger))

include hlimit hallot h

/-- No call panics, because no tick beyond the allotted ones is called. -/
theorem not_aborted_of_allotment : run.phase.isAborted = false := by
  refine h.induction (fun _ _ _ => rfl) ?_
  intro run action next hreachable htransition ih
  cases htransition with
  | advance move => exact move.not_aborted.2
  | takePermit phase uncancelled free => rfl
  | call phase called => rfl
  | callPanics phase called =>
      have hroom := lt_of_limitReached_eq_false
        (hreachable.limited.room (by rw [phase]; rfl)) hlimit
      obtain ⟨nanos, hchore⟩ := hallot (run.summary.ticks + 1) (by omega) (by omega)
      simp only [Chore.work, hchore] at called
      cases called
  | _ => exact ih

theorem chores_traced :
    Traced (fun tick _ started => Chore.Awaited (chores tick) started)
      (fun tick _ how => Chore.Met (chores tick) how) run :=
  h.traced Chore.work_keeps (not_aborted_of_allotment hlimit hallot h)

theorem allotted_of_called {tick : Nat} (hcalled : tick ∈ Entry.calledIn run.entries) :
    ∃ nanos, chores tick = .lasting (some nanos) (fate tick) := by
  rw [h.called, List.mem_range'_1] at hcalled
  have hwithin := h.limited.within count hlimit
  exact hallot tick hcalled.1 (by omega)

/-- Every tick in flight will be done at some instant. -/
theorem doneAt_of_running {tick : Nat} {started : Chore.Started}
    (hrunning : (tick, started) ∈ run.running) : ∃ instant, started.doneAt = some instant := by
  obtain ⟨nanos, hchore, hdone⟩ :=
    (chores_traced hlimit hallot h).running tick started hrunning
  obtain ⟨duration, hallotted⟩ := allotted_of_called hlimit hallot h
    (h.called_of_running hrunning (not_aborted_of_allotment hlimit hallot h))
  rw [hchore] at hallotted
  obtain rfl := (Chore.lasting.inj hallotted).1
  exact Option.isSome_iff_exists.mp hdone

variable (hcancelled : run.cancelled = false)

include hcancelled

/-- While the token has not fired every tick that ended met its fate. -/
theorem ending_of_ended {tick : Nat} {how : Ending}
    (hended : (tick, how) ∈ Entry.endedIn run.entries) : how = (fate tick).ending := by
  have haborted := not_aborted_of_allotment hlimit hallot h
  obtain ⟨duration, hallotted⟩ := allotted_of_called hlimit hallot h
    (h.called_of_ended haborted (List.mem_map.mpr ⟨_, hended, rfl⟩))
  rcases (chores_traced hlimit hallot h).ended tick how hended with
    rfl | ⟨nanos, met, hchore, rfl⟩
  · exact absurd hended (h.undropped haborted hcancelled tick)
  · rw [hchore] at hallotted
    rw [(Chore.lasting.inj hallotted).2]

variable (hphase : run.phase = .returned)

include hphase

/-- In a run that returned every allotted tick is recorded with its own fate. -/
theorem mem_recorded_of_allotment {tick : Nat} (htick : 1 ≤ tick ∧ tick ≤ count) :
    (tick, (fate tick).ending) ∈ Entry.recordedIn run.entries := by
  have hperm := h.recorded_perm hphase
  rw [h.ticks_of_returned hlimit hcancelled hphase] at hperm
  have hmem : tick ∈ List.range' 1 count := by
    rw [List.mem_range'_1]
    omega
  obtain ⟨⟨_, how⟩, hrecorded, rfl⟩ := List.mem_map.mp (hperm.mem_iff.mpr hmem)
  rw [← ending_of_ended hlimit hallot h hcancelled (h.recorded.ended _ hrecorded)]
  exact hrecorded

/-- The totals of a run that returned are those of the fates of all ticks. -/
theorem summary_of_returned :
    run.summary =
      .tally count ((List.range' 1 count).map fun tick => (fate tick).ending) := by
  have hticks := h.ticks_of_returned hlimit hcancelled hphase
  have hendings : (Entry.recordedIn run.entries).map Prod.snd =
      ((Entry.recordedIn run.entries).map Prod.fst).map fun tick => (fate tick).ending := by
    rw [List.map_map]
    apply List.map_congr_left
    rintro ⟨tick, how⟩ hrecorded
    exact ending_of_ended hlimit hallot h hcancelled (h.recorded.ended _ hrecorded)
  have hperm := h.recorded_perm hphase
  rw [hticks] at hperm
  calc run.summary
      = .tally run.summary.ticks ((Entry.recordedIn run.entries).map Prod.snd) := h.counted
    _ = .tally count (((Entry.recordedIn run.entries).map Prod.fst).map
          fun tick => (fate tick).ending) := by rw [hticks, hendings]
    _ = .tally count ((List.range' 1 count).map fun tick => (fate tick).ending) :=
        Summary.tally_perm count (hperm.map _)

end Allotted

end Run

end OrderFlow
