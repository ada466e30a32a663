import OrderFlow.Proofs.Delivery.Text
import OrderFlow.Proofs.Order.Lines

/-!
# What a delivery reports

A delivery reports each line when the whole of it is taken, and a tick reports the
failure of its delivery.  So wherever a delivery stands the lines reported are those
that its connection took whole, and what it ends with says how many they are.
-/

namespace OrderFlow

/-- Whether an event reports the failure of a delivery. -/
def Event.isDiagnosis : Event → Bool
  | .attemptFailed _ => true
  | _ => false

attribute [simp] Event.isDiagnosis

namespace Act

@[simp] theorem events_append (xs ys : List Act) : events (xs ++ ys) = events xs ++ events ys :=
  List.filterMap_append

@[simp] theorem events_cons (act : Act) (acts : List Act) :
    events (act :: acts) = act.event?.toList ++ events acts := by
  cases act <;> rfl

@[simp] theorem events_nil : events [] = [] := rfl

attribute [simp] event?

/-- How many lines were reported as sent. -/
def linesReported (acts : List Act) : Nat :=
  (events acts).count .sent

/-- How many failures were reported. -/
def failuresReported (acts : List Act) : Nat :=
  (events acts).countP Event.isDiagnosis

@[simp] theorem linesReported_nil : linesReported [] = 0 := rfl

@[simp] theorem linesReported_append (xs ys : List Act) :
    linesReported (xs ++ ys) = linesReported xs + linesReported ys := by
  simp [linesReported]

@[simp] theorem linesReported_cons (act : Act) (acts : List Act) :
    linesReported (act :: acts) = act.event?.toList.count .sent + linesReported acts := by
  simp [linesReported]

@[simp] theorem failuresReported_nil : failuresReported [] = 0 := rfl

@[simp] theorem failuresReported_append (xs ys : List Act) :
    failuresReported (xs ++ ys) = failuresReported xs + failuresReported ys := by
  simp [failuresReported]

@[simp] theorem failuresReported_cons (act : Act) (acts : List Act) :
    failuresReported (act :: acts) =
      act.event?.toList.countP Event.isDiagnosis + failuresReported acts := by
  simp [failuresReported]

/-- Some flush failed. -/
def FlushFailed (acts : List Act) : Prop :=
  ∃ cause, .flushed (.failed cause) ∈ acts

end Act

namespace Batch

/-- The lines reported so far are those before the stage at which a batch of some size
stands. -/
def Reported (size : Nat) (acts : List Act) (batch : Batch) : Prop :=
  batch.size = size ∧ Act.failuresReported acts = 0 ∧
    match batch.stage with
    | .writing sent _ => sent < size ∧ Act.linesReported acts = sent
    | .flushing => Act.linesReported acts = size

/-- The lines reported by a batch of some size are those of its result.  One that fails has
lines left, unless it has none or a flush failed. -/
def Summed (size : Nat) (acts : List Act) : Result → Prop
  | .ok sent => sent = size ∧ Act.failuresReported acts = 0 ∧ Act.linesReported acts = size
  | .error failure => Act.failuresReported acts = 0 ∧
      Act.linesReported acts = failure.sent ∧ failure.sent ≤ size ∧
        (failure.sent = size → size = 0 ∨ Act.FlushFailed acts)

/-- A failure with lines left sums up what was reported. -/
theorem summed_of_lt {size : Nat} {acts : List Act} {failure : AttemptFailure}
    (hfailures : Act.failuresReported acts = 0) (hlines : Act.linesReported acts = failure.sent)
    (hlt : failure.sent < size) : Summed size acts (.error failure) :=
  ⟨hfailures, hlines, Nat.le_of_lt hlt, fun hall => absurd hall (Nat.ne_of_lt hlt)⟩

theorem reported_openLine {size : Nat} {acts : List Act} (writes flushes : Script)
    (generator : Generator) (hle : Act.linesReported acts ≤ size)
    (hfailures : Act.failuresReported acts = 0) :
    Reported size (acts ++ (openLine size (Act.linesReported acts) generator).2.1)
      ⟨size, (openLine size (Act.linesReported acts) generator).2.2, writes, flushes⟩ := by
  unfold openLine
  by_cases hlt : Act.linesReported acts < size
  · rw [if_pos hlt]
    exact ⟨rfl, by simpa using hfailures, hlt, by simp⟩
  · rw [if_neg hlt]
    have hall := Nat.le_antisymm hle (Nat.not_lt.mp hlt)
    exact ⟨rfl, by simpa using hfailures, by simpa using hall⟩

theorem accept_keeps_reports {size sent : Nat} {acts : List Act} {batch : Batch}
    {rest : List Char} (count : Nat) (generator : Generator)
    (hstage : batch.stage = .writing sent rest) (h : Reported size acts batch) :
    (batch.accept sent rest count generator).Keeps (Reported size) (Summed size) acts := by
  obtain ⟨rfl, hfailures, hreported⟩ := h
  rw [hstage] at hreported
  obtain ⟨hlt, hlines⟩ := hreported
  refine accept_keeps_of_counts (fun _ => ?_) (fun _ _ => ?_) fun _ _ => ?_
  · exact summed_of_lt (by simpa using hfailures) (by simpa using hlines) hlt
  · -- The line is out and reported, and the next line is opened.
    let written := acts ++ [.wrote rest (.took count), .logged .sent]
    have hwhole : Act.linesReported written = sent + 1 := by
      simp [written, hlines]
    have hopen := @reported_openLine batch.size written batch.writes batch.flushes generator
      (by rw [hwhole]; exact hlt) (by simp [written, hfailures])
    rwa [hwhole] at hopen
  · exact ⟨rfl, by simpa using hfailures, hlt, by simpa using hlines⟩

/-- Every call on the connection keeps the reports in step with the lines written. -/
theorem move_keeps_reports {size : Nat} {acts : List Act} {batch : Batch}
    (generator : Generator) (h : Reported size acts batch) :
    (batch.move generator).Keeps (Reported size) (Summed size) acts := by
  have hwrites : Reported size acts { batch with writes := batch.writes.next.2 } := h
  obtain ⟨rfl, hfailures, hreported⟩ := h
  have hflushed : ∀ answer : Answer, batch.stage = .flushing →
      Act.failuresReported (acts ++ [.flushed answer]) = 0 ∧
        Act.linesReported (acts ++ [.flushed answer]) = batch.size := by
    intro answer hstage
    rw [hstage] at hreported
    exact ⟨by simpa using hfailures, by simpa using hreported⟩
  refine move_keeps_of_calls
    (fun count hstage => accept_keeps_reports count generator hstage hwrites)
    (fun hstage _ => ?_) (fun hstage _ => ?_) (fun hstage => ⟨rfl, hflushed _ hstage⟩)
    (fun hstage => ?_) fun {cause} hstage => ?_
  · refine ⟨rfl, by simpa using hfailures, ?_⟩
    rw [hstage] at hreported ⊢
    exact ⟨hreported.1, by simpa using hreported.2⟩
  · rw [hstage] at hreported
    exact summed_of_lt (by simpa using hfailures) (by simpa using hreported.2) hreported.1
  · refine ⟨rfl, (hflushed .notReady hstage).1, ?_⟩
    rw [hstage]
    exact (hflushed .notReady hstage).2
  · obtain ⟨hnone, hall⟩ := hflushed (.failed cause) hstage
    exact ⟨hnone, hall, Nat.le_refl _, fun _ => Or.inr ⟨cause, by simp⟩⟩

end Batch

namespace Delivery

/-- The lines reported so far are those before the stage at which a delivery of a batch of some
size stands. -/
def Reported (size : Nat) (acts : List Act) (delivery : Delivery) : Prop :=
  match delivery.stage with
  | .unstarted => delivery.plan.batchSize = size ∧
      Act.failuresReported acts = 0 ∧ Act.linesReported acts = 0
  | .connecting _ => delivery.plan.batchSize = size ∧
      Act.failuresReported acts = 0 ∧ Act.linesReported acts = 0
  | .sending batch => batch.Reported size acts
  | .closing sent => Batch.Summed size acts (.ok sent)

theorem connect_keeps_reports {size since : Nat} {acts : List Act} {delivery : Delivery}
    (timer : Timer) (now : Nat) (generator : Generator)
    (hstage : delivery.stage = .connecting since) (h : Reported size acts delivery) :
    (connect timer now delivery since generator).Keeps (Reported size)
      (Batch.Summed size) acts := by
  have hnothing := h
  rw [Reported, hstage] at hnothing
  obtain ⟨rfl, hfailures, hlines⟩ := hnothing
  refine connect_keeps_of_attempt (fun _ => h) (fun _ _ => ?_) fun _ => ?_
  · exact ⟨hfailures, hlines, Nat.zero_le _, fun hall => Or.inl hall.symm⟩
  · let opened := acts ++ [.established, .logged (.connected delivery.plan.target)]
    have hnone : Act.linesReported opened = 0 := by
      simp [opened, hlines]
    have hopen := @Batch.reported_openLine delivery.plan.batchSize opened
      delivery.peer.writes delivery.peer.flushes generator (by simp [hnone])
      (by simp [opened, hfailures])
    rwa [hnone] at hopen

theorem close_keeps_reports {size sent : Nat} {acts : List Act} (delivery : Delivery)
    (generator : Generator) (h : Batch.Summed size acts (.ok sent)) :
    (close delivery sent generator).Keeps (Reported size) (Batch.Summed size) acts := by
  unfold close
  dsimp only
  split
  · simpa [Turn.Keeps, Batch.Summed] using h
  · split
    · simpa [Turn.Keeps, Batch.Summed] using h
    · simpa [Turn.Keeps, Batch.Summed] using h

/-- Every move of a delivery keeps the reports in step with the lines written. -/
theorem move_keeps_reports (timer : Timer) (now : Nat) {size : Nat} (acts : List Act)
    (delivery : Delivery) (generator : Generator) (h : Reported size acts delivery) :
    (move timer now delivery generator).Keeps (Reported size) (Batch.Summed size) acts := by
  refine move_keeps_of_stages (fun hstage => ?_)
    (fun since hstage => connect_keeps_reports timer now generator hstage h)
    (fun batch hstage => ?_) fun sent hstage => ?_
  · rw [Reported, hstage] at h
    simpa [Reported] using h
  · rw [Reported, hstage] at h
    refine (Batch.move_keeps_reports generator h).imp (fun _ _ => id) fun acts result hsummed => ?_
    rcases result with failure | sent
    · simpa [Concludes, Batch.Summed, Act.FlushFailed] using hsummed
    · exact hsummed
  · rw [Reported, hstage] at h
    exact close_keeps_reports delivery generator h

theorem poll_keeps_reports (timer : Timer) (now : Nat) {size : Nat} (acts : List Act)
    (delivery : Delivery) (generator : Generator) (h : Reported size acts delivery) :
    (poll timer now delivery generator).Keeps (Reported size) (Batch.Summed size) acts :=
  Turn.poll_keeps (move_keeps_reports timer now) _ acts delivery generator h

@[simp] theorem linesReported_drop (delivery : Delivery) :
    Act.linesReported delivery.drop = 0 := by
  unfold drop
  split <;> rfl

@[simp] theorem failuresReported_drop (delivery : Delivery) :
    Act.failuresReported delivery.drop = 0 := by
  unfold drop
  split <;> rfl

theorem failuresReported_of_reported {size : Nat} {acts : List Act} {delivery : Delivery}
    (h : Reported size acts delivery) : Act.failuresReported acts = 0 := by
  unfold Reported at h
  split at h
  · exact h.2.1
  · exact h.2.1
  · exact h.2.1
  · exact h.2.1

end Delivery

/-! ## Lines taken and lines reported -/

theorem Order.Cut.completeLines_eq {orders : List Order} {text : List Char} {sent : Nat}
    (h : Order.Cut orders text sent) : Order.completeLines text = sent := by
  cases h with
  | whole => exact Order.completeLines_lines orders
  | within before last taken rest line missing =>
      exact Order.completeLines_cut before line missing

theorem Order.Cut.sent_le {orders : List Order} {text : List Char} {sent : Nat}
    (h : Order.Cut orders text sent) : sent ≤ orders.length := by
  cases h with
  | whole => exact Nat.le_refl _
  | within before last taken rest line missing => simp

/-- The lines that a delivery on its way has reported are those that were taken whole. -/
theorem Delivery.linesReported_eq {size : Nat} {acts : List Act} {delivery : Delivery}
    (hwritten : Written size acts delivery) (hreported : Reported size acts delivery) :
    Act.linesReported acts = Order.completeLines (Act.received acts) := by
  have hwhole : Act.received acts = Order.lines (Act.drawn acts) →
      Act.linesReported acts = (Act.drawn acts).length →
        Act.linesReported acts = Order.completeLines (Act.received acts) := by
    intro hreceived hlines
    rw [hreceived, Order.completeLines_lines, hlines]
  unfold Written at hwritten
  unfold Reported at hreported
  cases hstage : delivery.stage with
  | sending batch =>
      rw [hstage] at hwritten hreported
      obtain ⟨_, hwriting⟩ := hwritten
      obtain ⟨_, _, hlines⟩ := hreported
      cases hbatch : batch.stage with
      | writing sent rest =>
          rw [hbatch] at hwriting hlines
          obtain ⟨before, last, taken, _, hsent, _, hline, hrest, hreceived⟩ := hwriting
          rw [hlines.2, hreceived, Order.completeLines_cut before hline hrest, hsent]
      | flushing =>
          rw [hbatch] at hwriting hlines
          exact hwhole hwriting.2 (hlines.trans hwriting.1.symm)
  | closing sent =>
      rw [hstage] at hwritten hreported
      exact hwhole hwritten.2.2 (hreported.2.2.trans hwritten.2.1.symm)
  | _ =>
      rw [hstage] at hwritten hreported
      exact hwhole (by simp [hwritten.2]) (by simp [hwritten.2, hreported.2])

theorem Batch.linesReported_eq {size : Nat} {acts : List Act} {result : Result}
    (hfinished : Finished size acts result) (hsummed : Summed size acts result) :
    Act.linesReported acts = Order.completeLines (Act.received acts) := by
  cases result with
  | ok sent =>
      rw [hfinished.2.2, Order.completeLines_lines, hsummed.2.2, hfinished.2.1]
  | error failure => rw [hfinished.completeLines_eq, hsummed.2.1]

end OrderFlow
