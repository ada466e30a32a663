import OrderFlow.Proofs.Scheduler.Pool
import OrderFlow.Scheduler.Journal

/-!
# What the scheduler logs

The scheduler logs nothing that its ticks have to say, nor any interrupt.  Its totals are the
last thing it says, and until a run returns nothing is said of its end.
-/

namespace OrderFlow

namespace Event

/-- Whether an event is one that ticks log. -/
def isTicks : Event → Bool
  | .connected _ => true
  | .sent => true
  | .shutdownFailed _ => true
  | .attemptFailed _ => true
  | _ => false

/-- Whether an event tells the end of a run. -/
def isClosing : Event → Bool
  | .schedulerStopped _ => true
  | .runDone _ => true
  | .nothingDelivered => true
  | _ => false

theorem isClosing_of_isTicks {event : Event} (h : event.isTicks = true) :
    event.isClosing = false := by
  cases event <;> first | rfl | cases h

end Event

namespace Run

variable {σ τ ε : Type} {schedule : Schedule} {work : Work σ τ ε} {run next : Run σ τ ε}

theorem events_eq (run : Run σ τ ε) : run.events = Entry.loggedIn run.entries := by
  apply congrArg (List.filterMap · run.entries)
  funext entry
  cases entry <;> rfl

/-- Nothing is logged for the ticks or for the user, and the end of a run only as it returns. -/
theorem Transition.logged {action : Action} (h : Transition schedule work run action next) :
    ∃ notes, next.entries = run.entries ++ notes ∧
      ∀ event ∈ Entry.loggedIn notes, event.isTicks = false ∧ event ≠ .interrupted ∧
        (event.isClosing = true → next.phase = .returned) := by
  cases h with
  | advance move =>
      refine ⟨_, entries_mk_journalWith .., ?_⟩
      cases move <;> simp [Event.isTicks, Event.isClosing]
  | @collect index tick how phase found =>
      refine ⟨_, entries_mk_journalWith .., ?_⟩
      cases how <;> simp [recordNotes, endingEvents, Event.isTicks, Event.isClosing]
  | takePermit phase uncancelled free => exact ⟨[], (List.append_nil _).symm, by simp⟩
  | wait later => exact ⟨[], (List.append_nil _).symm, by simp⟩
  | _ => exact ⟨_, entries_mk_journalWith .., by simp⟩

theorem Transition.mem_events {action : Action} (h : Transition schedule work run action next)
    {event : Event} (hevent : event ∈ next.events) :
    event ∈ run.events ∨
      event.isTicks = false ∧ event ≠ .interrupted ∧
        (event.isClosing = true → next.phase = .returned) := by
  obtain ⟨notes, hentries, hnotes⟩ := h.logged
  have hmem : event ∈ Entry.loggedIn run.entries ∨ event ∈ Entry.loggedIn notes := by
    simpa [events_eq, hentries] using hevent
  rw [← events_eq] at hmem
  exact hmem.imp_right (hnotes event)

theorem Reachable.events_not_ticks (h : run.Reachable schedule work) :
    ∀ event ∈ run.events, event.isTicks = false := by
  refine h.induction ?_ ?_
  · intro now cancelled shared event hevent
    obtain rfl : event = _ := by simpa [events_eq, entries, start] using hevent
    rfl
  · intro run action next _ htransition ih event hevent
    exact (htransition.mem_events hevent).elim (ih event) And.left

theorem Reachable.interrupted_not_mem_events (h : run.Reachable schedule work) :
    .interrupted ∉ run.events := by
  refine h.induction ?_ ?_
  · intro now cancelled shared hevent
    simp [events_eq, entries, start] at hevent
  · intro run action next _ htransition ih hevent
    exact (htransition.mem_events hevent).elim ih fun hnew => hnew.2.1 rfl

/-- Until a run returns nothing is said of its end. -/
theorem Reachable.events_not_closing (h : run.Reachable schedule work) :
    run.phase ≠ .returned → ∀ event ∈ run.events, event.isClosing = false := by
  refine h.induction ?_ ?_
  · intro now cancelled shared _ event hevent
    obtain rfl : event = _ := by simpa [events_eq, entries, start] using hevent
    rfl
  · intro run action next hreachable htransition ih hphase event hevent
    have hbefore : run.phase ≠ .returned := by
      intro hreturned
      rw [htransition.after_return hreturned (hreachable.idle_of_returned hreturned).2] at hphase
      exact hphase hreturned
    rcases htransition.mem_events hevent with hearlier | ⟨-, -, hlast⟩
    · exact ih hbefore event hearlier
    · rw [Bool.eq_false_iff]
      exact fun hclosing => hphase (hlast hclosing)

/-- The last thing a run does is to log its totals, and nothing is said of its end before. -/
theorem Reachable.closing_of_returned (h : run.Reachable schedule work) :
    run.phase = .returned →
      ∃ earlier, run.entries = earlier ++ [.logged (.schedulerStopped run.summary)] ∧
        ∀ event ∈ Entry.loggedIn earlier, event.isClosing = false := by
  refine h.induction (fun _ _ _ hphase => by cases hphase) ?_
  intro run action next hreachable htransition ih hphase
  by_cases hreturned : run.phase = .returned
  · obtain ⟨earlier, hearlier⟩ := ih hreturned
    have hidle := hreachable.idle_of_returned hreturned
    refine ⟨earlier, ?_⟩
    rw [htransition.after_return hreturned hidle.2]
    exact hearlier
  · have hquiet := hreachable.events_not_closing hreturned
    rw [events_eq] at hquiet
    obtain hstays | ⟨-, -, rfl⟩ := htransition.stops_or_stays hphase
    · exact absurd hstays hreturned
    · exact ⟨run.entries, entries_mk_journalWith .., hquiet⟩

theorem Reachable.last_entry_of_returned (h : run.Reachable schedule work)
    (hphase : run.phase = .returned) :
    ∃ earlier, run.entries = earlier ++ [.logged (.schedulerStopped run.summary)] := by
  obtain ⟨earlier, hearlier, -⟩ := h.closing_of_returned hphase
  exact ⟨earlier, hearlier⟩

end Run

end OrderFlow
