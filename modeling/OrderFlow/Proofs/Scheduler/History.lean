import Mathlib.Data.List.Basic
import OrderFlow.Proofs.Scheduler.Transition

/-!
# Views of a journal

The journal of a run mixes what the scheduler did with what its ticks did.  Five
views separate them: the ticks that were called, the ticks that ended and how,
the endings that were recorded, the events that the scheduler logged, and the acts
of a single tick.  Each view of a
longer journal is the view of the shorter one followed by the view of what was
added, so a transition is seen through a view by the notes that it writes.
-/

namespace OrderFlow

variable {ε : Type}

namespace Entry

/-- The tick that an entry says was called. -/
def called? : Entry ε → Option Nat
  | .called tick _ => some tick
  | _ => none

/-- The tick that an entry says ended, and how. -/
def ended? : Entry ε → Option (Nat × Ending)
  | .ended tick _ how => some (tick, how)
  | _ => none

/-- The ending that an entry says was recorded, and of which tick. -/
def recorded? : Entry ε → Option (Nat × Ending)
  | .recorded tick how => some (tick, how)
  | _ => none

/-- The event that an entry says the scheduler logged. -/
def logged? : Entry ε → Option Event
  | .logged event => some event
  | _ => none

/-- The act of a tick in an entry. -/
def actOf? (tick : Nat) : Entry ε → Option ε
  | .did n act => if n = tick then some act else none
  | _ => none

/-- What an act shows, with the tick that did it. -/
def byTick {α : Type} (show? : ε → Option α) : Entry ε → Option (Nat × α)
  | .did tick act => (show? act).map fun shown => (tick, shown)
  | _ => none

/-- What a view sees of some entries, in order. -/
def seen {α : Type} (view : Entry ε → Option α) (entries : List (Entry ε)) : List α :=
  entries.filterMap view

/-- The ticks called, in the order of their calls. -/
abbrev calledIn (entries : List (Entry ε)) : List Nat :=
  seen called? entries

/-- The ticks that ended, with their endings, in that order. -/
abbrev endedIn (entries : List (Entry ε)) : List (Nat × Ending) :=
  seen ended? entries

/-- The endings recorded, in that order. -/
abbrev recordedIn (entries : List (Entry ε)) : List (Nat × Ending) :=
  seen recorded? entries

/-- The events that the scheduler logged, in order. -/
abbrev loggedIn (entries : List (Entry ε)) : List Event :=
  seen logged? entries

/-- The acts of a tick, in order. -/
abbrev actsIn (tick : Nat) (entries : List (Entry ε)) : List ε :=
  seen (actOf? tick) entries

attribute [simp] called? ended? recorded? logged? actOf? byTick

/-! ## Views of a longer journal -/

section Seen

variable {α β : Type} {view : Entry ε → Option α}

theorem mem_seen_iff {entries : List (Entry ε)} {x : α} :
    x ∈ seen view entries ↔ ∃ entry ∈ entries, view entry = some x :=
  List.mem_filterMap

@[simp] theorem seen_nil : seen view [] = [] := rfl

@[simp] theorem seen_cons (entry : Entry ε) (rest : List (Entry ε)) :
    seen view (entry :: rest) = (view entry).toList ++ seen view rest := by
  cases h : view entry <;> simp [seen, h]

@[simp] theorem seen_append (xs ys : List (Entry ε)) :
    seen view (xs ++ ys) = seen view xs ++ seen view ys :=
  List.filterMap_append

/-- What a view has seen it goes on seeing. -/
theorem mem_seen_append_left {entries : List (Entry ε)} {x : α} (h : x ∈ seen view entries)
    (notes : List (Entry ε)) : x ∈ seen view (entries ++ notes) := by
  rw [seen_append]
  exact List.mem_append_left _ h

@[simp] theorem seen_map (entry : β → Entry ε) (xs : List β) :
    seen view (xs.map entry) = xs.filterMap fun x => view (entry x) :=
  List.filterMap_map

end Seen

theorem actsIn_did_of_ne {n tick : Nat} (h : tick ≠ n) (acts : List ε) :
    actsIn n (acts.map (Entry.did tick)) = [] := by
  simp [h]

end Entry

namespace Run

variable {σ τ : Type}

section Fields

variable (run : Run σ τ ε) (phase : Phase) (now origin fired : Nat) (cancelled : Bool)
  (free : Nat) (running : List (Nat × τ)) (finished : List (Nat × Ending))
  (summary : Summary) (shared : σ)

@[simp] theorem entries_mk_journal :
    entries ⟨phase, now, origin, fired, cancelled, free, running, finished, summary, shared,
      run.journal⟩ = run.entries := rfl

@[simp] theorem entries_mk_journalWith (notes : List (Entry ε)) :
    entries ⟨phase, now, origin, fired, cancelled, free, running, finished, summary, shared,
      run.journalWith notes⟩ = run.entries ++ notes := by
  simp [journalWith, entries]

end Fields

/-- Nothing is ever taken out of a journal. -/
theorem Transition.entries_append {schedule : Schedule} {work : Work σ τ ε}
    {run next : Run σ τ ε} {action : Action}
    (h : Transition schedule work run action next) :
    ∃ notes, next.entries = run.entries ++ notes := by
  cases h with
  | takePermit phase uncancelled free => exact ⟨[], (List.append_nil _).symm⟩
  | wait later => exact ⟨[], (List.append_nil _).symm⟩
  | _ => exact ⟨_, entries_mk_journalWith ..⟩

/-! ## Views of what transitions write -/

section Notes

variable {α : Type} {view : Entry ε → Option α}

@[simp] theorem seen_recordNotes (tick : Nat) (how : Ending) :
    Entry.seen view (recordNotes tick how) =
      ((endingEvents tick how).filterMap fun event => view (.logged event)) ++
        (view (.recorded tick how)).toList := by
  simp [recordNotes]

@[simp] theorem seen_abortNotes (work : Work σ τ ε) (now : Nat) (running : List (Nat × τ)) :
    Entry.seen view (abortNotes work now running) =
      (running.map fun entry =>
        ((work.drop entry.2).filterMap fun act => view (.did entry.1 act)) ++
          (view (.ended entry.1 now .dropped)).toList).flatten := by
  induction running with
  | nil => rfl
  | cons entry rest ih =>
      simp only [abortNotes, List.flatMap_cons] at ih ⊢
      simp [ih]

@[simp] theorem seen_cancelNotes (run : Run σ τ ε) :
    Entry.seen view run.cancelNotes =
      if run.cancelled || run.phase.isOver then [] else (view .cancelled).toList := by
  unfold cancelNotes
  split <;> simp

end Notes

end Run

end OrderFlow
