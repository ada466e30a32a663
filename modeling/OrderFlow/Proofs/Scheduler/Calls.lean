import OrderFlow.Proofs.Scheduler.History

/-!
# The notes of calls are the calls

The journal notes that a tick was called, and a reader takes its word for it.  Here the work
keeps its own record: each time it is called it writes down for which tick and when.  Such work
does what the work alone does, so every run of the work is a run of the recording work with the
record left out; and the record of such a run is what the journal notes.
-/

namespace OrderFlow

variable {σ τ ε : Type}

/-- The same work, which also writes down the calls that are made of it. -/
def Work.recording (work : Work σ τ ε) : Work (σ × List (Nat × Nat)) τ ε where
  call tick now shared :=
    let reply := work.call tick now shared.1
    (⟨(reply.1.shared, shared.2 ++ [(tick, now)]), reply.1.acts, reply.1.cancels⟩, reply.2)
  poll tick now shared state :=
    let reply := work.poll tick now shared.1 state
    (⟨(reply.1.shared, shared.2), reply.1.acts, reply.1.cancels⟩, reply.2)
  drop := work.drop
  wakesAt? := work.wakesAt?

/-- The call that an entry notes. -/
def Entry.callAt? : Entry ε → Option (Nat × Nat)
  | .called tick now => some (tick, now)
  | _ => none

attribute [simp] Entry.callAt?

namespace Run

variable {schedule : Schedule} {work : Work σ τ ε}

/-- A run of recording work with the record left out. -/
def plain (run : Run (σ × List (Nat × Nat)) τ ε) : Run σ τ ε :=
  { run with shared := run.shared.1 }

section Plain

variable (run : Run (σ × List (Nat × Nat)) τ ε)

theorem plain_callNext : (run.callNext work.recording).plain = run.plain.callNext work := by
  unfold callNext launch
  dsimp only [Work.recording, plain, announce]
  split <;> rfl

theorem plain_tickerMove :
    (run.tickerMove schedule work.recording).plain = run.plain.tickerMove schedule work := by
  unfold tickerMove
  cases hphase : run.phase with
  | holdingPermit => simpa [plain, hphase] using plain_callNext run
  | checking =>
      cases hlimit : schedule.limitReached run.summary.ticks <;>
        simp [plain, hphase, hlimit, log, drain]
  | awaitingTimer =>
      cases hcancelled : run.cancelled <;> simp [plain, hphase, hcancelled, log, drain]
  | awaitingPermit =>
      cases hcancelled : run.cancelled <;> simp [plain, hphase, hcancelled, log, drain]
  | _ => simp [plain, hphase, log]

theorem plain_recordEnding (tick : Nat) (how : Ending) :
    (run.recordEnding tick how).plain = run.plain.recordEnding tick how := by
  cases how <;> rfl

theorem plain_collect? (index : Nat) :
    (run.collect? index).map plain = run.plain.collect? index := by
  by_cases hphase : run.phase = .collecting ∨ run.phase = .draining
  · have hplain : run.plain.phase = .collecting ∨ run.plain.phase = .draining := hphase
    rw [collect?, collect?, if_pos hphase, if_pos hplain, Option.map_map]
    apply congrArg (Option.map · run.finished[index]?)
    funext record
    rcases record with ⟨tick, how⟩
    exact plain_recordEnding _ tick how
  · have hplain : ¬ (run.plain.phase = .collecting ∨ run.plain.phase = .draining) := hphase
    rw [collect?, collect?, if_neg hphase, if_neg hplain]
    rfl

theorem plain_takePoll (tick : Nat) (state : τ) :
    (run.takePoll work.recording tick
        (work.recording.poll tick run.now run.shared state)).plain =
      run.plain.takePoll work tick (work.poll tick run.now run.shared.1 state) := by
  rcases hpolled : work.poll tick run.now run.shared.1 state with ⟨effect, status⟩
  have hrecorded : work.recording.poll tick run.now run.shared state =
      (⟨(effect.shared, run.shared.2), effect.acts, effect.cancels⟩, status) := by
    simp only [Work.recording, hpolled]
  rw [hrecorded]
  cases status with
  | returned outcome => rfl
  | panicked message => rfl
  | pending next =>
      cases hfired : (run.cancelled || effect.cancels) <;>
        simp [takePoll, plain, noteEffect, hfired, dropTick, keepTick, finish, Work.recording]

theorem plain_pollTick? (tick : Nat) :
    (run.pollTick? work.recording tick).map plain = run.plain.pollTick? work tick := by
  rw [pollTick?, pollTick?, Option.map_map]
  apply congrArg (Option.map · (run.running.lookup tick))
  funext state
  exact plain_takePoll run tick state

/-- Recording work does what the work alone does. -/
theorem plain_step? (action : Action) :
    (run.step? schedule work.recording action).map plain =
      run.plain.step? schedule work action := by
  cases action with
  | ticker =>
      have hready : run.plain.tickerReady schedule = run.tickerReady schedule := rfl
      simp only [step?, hready]
      split
      · rw [Option.map_some, plain_tickerMove]
      · rfl
  | collect index => exact plain_collect? run index
  | poll tick => exact plain_pollTick? run tick
  | cancel => rfl
  | wait instant =>
      have hnow : run.plain.now = run.now := rfl
      simp only [step?, hnow]
      split <;> rfl

end Plain

variable {now : Nat} {cancelled : Bool} {shared : σ}

/-- Every run of the work is one of the recording work with the record left out. -/
theorem Leads.exists_recorded {run : Run σ τ ε}
    (h : (start schedule now cancelled shared).Leads schedule work run) :
    ∃ recorded, (start schedule now cancelled (shared, [])).Leads schedule work.recording
      recorded ∧ recorded.plain = run := by
  refine h.induction_step ⟨_, .refl _, rfl⟩ ?_
  rintro run action next - hstep ⟨recorded, hleads, rfl⟩
  rw [← plain_step?, Option.map_eq_some_iff] at hstep
  obtain ⟨after, hafter, rfl⟩ := hstep
  exact ⟨after, hleads.step hafter, rfl⟩

/-- The record of a run holds what the journal notes: the work is called as a note of a call is
written, and at no other moment. -/
theorem record_eq {run : Run (σ × List (Nat × Nat)) τ ε}
    (h : (start schedule now cancelled (shared, [])).Leads schedule work.recording run) :
    run.shared.2 = Entry.seen Entry.callAt? run.entries := by
  refine h.induction rfl ?_
  intro run action next _ htransition ih
  cases htransition with
  | call phase called =>
      obtain ⟨rfl, -⟩ := Prod.mk.inj called
      simp [ih]
  | callPanics phase called =>
      obtain ⟨rfl, -⟩ := Prod.mk.inj called
      simp [ih]
  | finish running polled ending =>
      obtain ⟨rfl, -⟩ := Prod.mk.inj polled
      simp [ih]
  | drop running polled fired =>
      obtain ⟨rfl, -⟩ := Prod.mk.inj polled
      simp [ih]
  | keep running polled unfired =>
      obtain ⟨rfl, -⟩ := Prod.mk.inj polled
      simp [ih]
  | _ => simp [ih]

/-- The calls that a run notes are the calls that are made of the work, in the same order and at
the same instants: work that writes down its calls goes through the same run and has, in the
end, just these on record. -/
theorem Leads.calls_noted {run : Run σ τ ε}
    (h : (start schedule now cancelled shared).Leads schedule work run) :
    ∃ recorded, (start schedule now cancelled (shared, [])).Leads schedule work.recording
        recorded ∧ recorded.plain = run ∧
      recorded.shared.2 = Entry.seen Entry.callAt? run.entries := by
  obtain ⟨recorded, hleads, rfl⟩ := h.exists_recorded
  exact ⟨recorded, hleads, rfl, record_eq hleads⟩

end Run

end OrderFlow
