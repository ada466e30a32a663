import Mathlib.Algebra.BigOperators.Group.Finset.Basic
import OrderFlow.Proofs.Delivery.Reports
import OrderFlow.Proofs.Headings
import OrderFlow.Proofs.Scheduler.Logged
import OrderFlow.Proofs.Simulation.Admission

/-!
# The books of a simulation

A run keeps three records of the lines it sent: its totals, what its connections
took, and the log.  They are written in different places, and a tick can be cut off
between any two calls on its connection.  Still they agree, since each tick's acts
agree with its ending: a line is reported when it is out, a failure when it is
counted, and what is lost from the totals is what cancelled ticks had sent.
-/

namespace OrderFlow

/-! ## Sums over ticks -/

section Sums

variable {α : Type}

theorem sum_map_toNat (p : α → Bool) (xs : List α) :
    (xs.map fun x => (p x).toNat).sum = xs.countP p := by
  induction xs with
  | nil => rfl
  | cons x xs ih =>
      rw [List.map_cons, List.sum_cons, ih, List.countP_cons]
      cases p x <;> simp [Nat.add_comm]

theorem sum_map_filter_add (p : α → Bool) (f : α → Nat) (xs : List α) :
    ((xs.filter p).map f).sum + ((xs.filter fun x => !p x).map f).sum = (xs.map f).sum := by
  rw [← List.sum_append, ← List.map_append]
  exact ((List.filter_append_perm p xs).map f).sum_eq

theorem sum_map_eq_of_subset {xs ys : List Nat} {f : Nat → Nat} (hxs : xs.Nodup)
    (hys : ys.Nodup) (hsubset : xs ⊆ ys) (hzero : ∀ y ∈ ys, y ∉ xs → f y = 0) :
    (ys.map f).sum = (xs.map f).sum := by
  rw [← List.sum_toFinset f hys, ← List.sum_toFinset f hxs]
  refine (Finset.sum_subset ?_ ?_).symm
  · intro x hx
    simpa using hsubset (by simpa using hx)
  · intro y hy hnot
    exact hzero y (by simpa using hy) (by simpa using hnot)

end Sums

theorem countP_mul_le_sum_sent {size : Nat} {endings : List Ending}
    (hwhole : ∀ how ∈ endings, how.isCompletion = true → how.sent = size) :
    endings.countP Ending.isCompletion * size ≤ (endings.map Ending.sent).sum := by
  induction endings with
  | nil => simp
  | cons how rest ih =>
      have hrest := ih fun other hother => hwhole other (List.mem_cons_of_mem _ hother)
      rw [List.countP_cons, List.map_cons, List.sum_cons, Nat.add_mul]
      cases hhow : how.isCompletion with
      | true =>
          have hsent := hwhole how List.mem_cons_self hhow
          simp
          omega
      | false =>
          simp
          omega

/-- Failed ticks count no more than the whole batch less the lines that they surely lack. -/
theorem sum_sent_add_le (lacking : Nat) {size : Nat} {endings : List Ending}
    (hwhole : ∀ how ∈ endings, how.isCompletion = true → how.sent = size)
    (hfailed : ∀ how ∈ endings, how.isFailure = true → how.sent + lacking ≤ size) :
    (endings.map Ending.sent).sum + endings.countP Ending.isFailure * lacking ≤
      (endings.countP Ending.isCompletion + endings.countP Ending.isFailure) * size := by
  induction endings with
  | nil => simp
  | cons how rest ih =>
      have hrest := ih (fun other hother => hwhole other (List.mem_cons_of_mem _ hother))
        fun other hother => hfailed other (List.mem_cons_of_mem _ hother)
      have hwhole := hwhole how List.mem_cons_self
      have hfailed := hfailed how List.mem_cons_self
      simp only [List.map_cons, List.sum_cons, List.countP_cons, Nat.add_mul] at hrest ⊢
      cases how with
      | returned outcome =>
          cases outcome <;>
            simp [Ending.isCompletion, Ending.isFailure, Ending.sent] at hwhole hfailed ⊢ <;>
            omega
      | panicked message =>
          simp [Ending.isCompletion, Ending.isFailure, Ending.sent] at hfailed ⊢
          omega
      | dropped =>
          simp [Ending.isCompletion, Ending.isFailure, Ending.sent]
          omega

namespace Simulation

variable {timer : Timer} {plan : Plan} {peers : Nat → Peer} {schedule : Schedule}
  {run : DeliveryRun}

/-! ## The books of a tick -/

/-- What the acts of a tick that ended amount to: the lines it reported are those that were taken
whole and those it counts, and it reported a failure if it counts as one. -/
structure Booked (size : Nat) (acts : List Act) (how : Ending) : Prop where
  reported : Act.linesReported acts = Order.completeLines (Act.received acts)
  counted : how.isCancellation = false →
    how.sent = Order.completeLines (Act.received acts)
  diagnosed : Act.failuresReported acts = how.isFailure.toNat
  whole : how.isCompletion = true → how.sent = size
  within : how.isFailure = true →
    how.sent ≤ size ∧ (how.sent = size → size = 0 ∨ Act.FlushFailed acts)

theorem booked_conclude {size : Nat} {acts : List Act} {result : Batch.Result}
    (hfinished : Batch.Finished size acts result) (hsummed : Batch.Summed size acts result) :
    Booked size (acts ++ (Delivery.conclude result).1)
      (.returned (Delivery.conclude result).2) := by
  have hlines := Batch.linesReported_eq hfinished hsummed
  cases result with
  | ok sent =>
      obtain ⟨rfl, hfailures, hsent⟩ := hsummed
      rw [hsent] at hlines
      exact ⟨by simpa [Delivery.conclude, hsent] using hlines,
        fun _ => by simpa [Delivery.conclude, Ending.sent] using hlines,
        by simpa [Delivery.conclude, Ending.isFailure] using hfailures,
        fun _ => rfl, fun hfailure => by cases hfailure⟩
  | error failure =>
      obtain ⟨hfailures, hsent, hle, hall⟩ := hsummed
      have hflush : Act.FlushFailed acts →
          Act.FlushFailed (acts ++ [.logged (.attemptFailed failure)]) := by
        rintro ⟨cause, hcause⟩
        exact ⟨cause, List.mem_append_left _ hcause⟩
      exact ⟨by simpa [Delivery.conclude] using hlines,
        fun _ => by simpa [Delivery.conclude, Ending.sent, hsent] using hlines,
        by simpa [Delivery.conclude, Ending.isFailure] using hfailures,
        (fun hcompletion => by cases hcompletion),
        fun _ => ⟨hle, fun heq => (hall heq).imp_right hflush⟩⟩

/-- Ticks in flight have their text and their reports where their delivery stands, and ticks
that ended are booked. -/
theorem work_keeps_books :
    (work timer plan peers).Keeps
      (fun _ acts delivery => Delivery.Written plan.batchSize acts delivery ∧
        Delivery.Reported plan.batchSize acts delivery)
      (fun _ acts how => Booked plan.batchSize acts how) where
  call := by
    intro tick now generator effect delivery hcalled
    cases hcalled
    exact ⟨⟨rfl, rfl, rfl⟩, rfl, rfl, rfl⟩
  pending := by
    rintro tick now generator effect delivery next acts ⟨hwritten, hreported⟩ hpolled
    rcases poll_work_keeps hpolled
        ((Delivery.poll_keeps_text timer now acts delivery generator hwritten).and
          (Delivery.poll_keeps_reports timer now acts delivery generator hreported)) with
      ⟨next', hnext, hkept⟩ | ⟨result, turnActs, hreturned, _⟩
    · cases hnext
      exact hkept
    · cases hreturned
  ending := by
    rintro tick now generator effect delivery status how acts ⟨hwritten, hreported⟩ hpolled
      hending
    rcases poll_work_keeps hpolled
        ((Delivery.poll_keeps_text timer now acts delivery generator hwritten).and
          (Delivery.poll_keeps_reports timer now acts delivery generator hreported)) with
      ⟨next, rfl, _⟩ | ⟨result, turnActs, rfl, hacts, hfinished, hsummed⟩
    · cases hending
    · cases hending
      rw [hacts, ← List.append_assoc]
      exact booked_conclude hfinished hsummed
  drop := by
    rintro tick delivery acts ⟨hwritten, hreported⟩
    have hlines := Delivery.linesReported_eq hwritten hreported
    have hfailures := Delivery.failuresReported_of_reported hreported
    exact ⟨by simpa [work] using hlines, nofun,
      by simpa [work, Ending.isFailure] using hfailures, nofun, nofun⟩

/-- The complete lines that a tick's connection took. -/
def linesTaken (run : DeliveryRun) (tick : Nat) : Nat :=
  Order.completeLines (Act.received (actsOf run tick))

/-- The complete lines that all connections took. -/
def totalLines (run : DeliveryRun) : Nat :=
  ((received run).map Order.completeLines).sum

/-- The events that ticks logged among some entries, each with its tick. -/
abbrev toldIn (entries : List (Entry Act)) : List (Nat × Event) :=
  Entry.seen (Entry.byTick Act.event?) entries

theorem countP_events_split (run : DeliveryRun) (p : Event → Bool) :
    (events run).countP p =
      run.events.countP p + ((toldIn run.entries).map Prod.snd).countP p := by
  rw [Run.events_eq]
  change (Entry.seen said? run.entries).countP p = _
  induction run.entries with
  | nil => rfl
  | cons entry rest ih =>
      have hentry : (said? entry).toList.countP p =
          entry.logged?.toList.countP p +
            ((Entry.byTick Act.event? entry).toList.map Prod.snd).countP p := by
        cases entry with
        | did n act => cases act <;> simp [said?]
        | _ => simp [said?]
      simp only [Entry.seen_cons, List.map_append, List.countP_append, hentry, ih]
      exact Nat.add_add_add_comm ..

section Reached

variable (h : run.Reachable schedule (work timer plan peers))

include h

theorem books_traced :
    Run.Traced
      (fun _ acts delivery => Delivery.Written plan.batchSize acts delivery ∧
        Delivery.Reported plan.batchSize acts delivery)
      (fun _ acts how => Booked plan.batchSize acts how) run :=
  h.traced work_keeps_books (not_aborted_of_reachable h)

theorem booked_of_ended {tick : Nat} {how : Ending}
    (hended : (tick, how) ∈ Entry.endedIn run.entries) :
    Booked plan.batchSize (actsOf run tick) how := by
  rw [actsOf_eq]
  exact (books_traced h).ended tick how hended

theorem booked_of_recorded {record : Nat × Ending}
    (hrecorded : record ∈ Entry.recordedIn run.entries) :
    Booked plan.batchSize (actsOf run record.1) record.2 :=
  booked_of_ended h (h.recorded.ended record hrecorded)

/-- Every tick has reported the lines that were taken whole. -/
theorem linesReported_eq (tick : Nat) :
    Act.linesReported (actsOf run tick) = linesTaken run tick := by
  rw [linesTaken, actsOf_eq]
  rcases (books_traced h).places h (not_aborted_of_reachable h) tick with
    ⟨delivery, _, hwritten, hreported⟩ | ⟨how, _, hbooked⟩ | hnothing
  · exact Delivery.linesReported_eq hwritten hreported
  · exact hbooked.reported
  · rw [hnothing]
    rfl

theorem failuresReported_of_running {tick : Nat} (hrunning : tick ∈ run.running.map Prod.fst) :
    Act.failuresReported (actsOf run tick) = 0 := by
  obtain ⟨⟨n, delivery⟩, hmem, rfl⟩ := List.mem_map.mp hrunning
  rw [actsOf_eq]
  exact Delivery.failuresReported_of_reported ((books_traced h).running n delivery hmem).2

/-! ## Sums over all ticks -/

theorem linesTaken_of_not_connected {tick : Nat} (hnot : tick ∉ connectedTicks run) :
    linesTaken run tick = 0 := by
  have hdrawn : Act.drawn (actsOf run tick) = [] := by
    by_contra hdrawn
    exact hnot (connected_of_drawn h hdrawn)
  obtain ⟨sent, hcut⟩ := cut_of_tick h tick
  have hle := hcut.sent_le
  rw [hdrawn] at hle
  rw [linesTaken, hcut.completeLines_eq]
  exact Nat.le_zero.mp hle

theorem totalLines_eq :
    totalLines run = ((Entry.calledIn run.entries).map (linesTaken run)).sum := by
  rw [totalLines, received, List.map_map]
  refine (sum_map_eq_of_subset (nodup_connectedTicks (reachable_fallibleWork h))
    h.nodup_called (fun tick => called_of_connected h) ?_).symm
  intro tick _ hnot
  exact linesTaken_of_not_connected h hnot

/-- A sum over all ticks called is one over those recorded, finished and in flight. -/
theorem sum_called_eq (f : Nat → Nat) :
    ((Entry.calledIn run.entries).map f).sum =
      ((Entry.recordedIn run.entries).map fun record => f record.1).sum +
        ((run.finished.map fun record => f record.1).sum +
          (run.running.map fun entry => f entry.1).sum) := by
  have hperm := (h.settled.called_perm (not_aborted_of_reachable h)).map f
  rw [hperm.sum_eq]
  simp [Function.comp_def]

theorem ordersSent_eq :
    run.summary.ordersSent =
      ((Entry.recordedIn run.entries).map fun record => record.2.sent).sum := by
  have hcounted := congrArg Summary.ordersSent h.counted
  rw [hcounted, Summary.tally, List.map_map]
  rfl

/-- The totals count the lines of the ticks recorded, except of those that were cancelled. -/
theorem ordersSent_eq_sum_linesTaken :
    run.summary.ordersSent =
      (((Entry.recordedIn run.entries).filter fun record => !record.2.isCancellation).map
        fun record => linesTaken run record.1).sum := by
  have hcancelled : (((Entry.recordedIn run.entries).filter
      fun record => record.2.isCancellation).map fun record => record.2.sent).sum = 0 := by
    rw [List.sum_eq_zero_iff_forall_eq_nat]
    intro lines hlines
    obtain ⟨⟨tick, how⟩, hrecord, rfl⟩ := List.mem_map.mp hlines
    have hhow := (List.mem_filter.mp hrecord).2
    cases how with
    | returned outcome => cases outcome <;> first | rfl | cases hhow
    | panicked message => rfl
    | dropped => rfl
  rw [ordersSent_eq h, ← sum_map_filter_add fun record => record.2.isCancellation, hcancelled,
    Nat.zero_add]
  congr 1
  apply List.map_congr_left
  intro record hrecord
  obtain ⟨hrecorded, hhow⟩ := List.mem_filter.mp hrecord
  exact (booked_of_recorded h hrecorded).counted (by simpa using hhow)

/-- The log tells of every event that a tick logged, and of the scheduler's own. -/
theorem countP_events {p : Event → Bool} (hp : ∀ event, event.isTicks = false → p event = false) :
    (events run).countP p =
      ((Entry.calledIn run.entries).map fun tick =>
        (Act.events (actsOf run tick)).countP p).sum := by
  have hscheduler : run.events.countP p = 0 :=
    List.countP_eq_zero.mpr fun event hevent => by
      simp [hp event (h.events_not_ticks event hevent)]
  have hkeys : ∀ pair ∈ toldIn run.entries, pair.1 ∈ Entry.calledIn run.entries := by
    intro pair hpair
    by_contra hcalled
    have hnone := (books_traced h).uncalled pair.1 hcalled
    have hshare := share_byTick Act.event? pair.1 run.entries
    rw [hnone] at hshare
    have hmem : pair.2 ∈ share (toldIn run.entries) pair.1 :=
      List.mem_map.mpr ⟨pair, List.mem_filter.mpr ⟨hpair, by simp⟩, rfl⟩
    rw [hshare] at hmem
    cases hmem
  have hperm := (flatMap_share_perm h.nodup_called hkeys).countP_eq p
  rw [countP_events_split, hscheduler, Nat.zero_add, ← hperm, List.countP_flatMap]
  congr 1
  apply List.map_congr_left
  intro tick _
  rw [Function.comp_apply, share_byTick, actsOf_eq, Act.events]

theorem count_sent_events : (events run).count .sent = totalLines run := by
  have hsent : ∀ event : Event, event.isTicks = false → (event == .sent) = false := by
    intro event hevent
    cases event <;> first | rfl | cases hevent
  rw [List.count, countP_events h hsent, totalLines_eq h]
  congr 1
  apply List.map_congr_left
  intro tick _
  exact linesReported_eq h tick

/-- The failures logged are those counted and those of ticks that are still to be recorded. -/
theorem countP_diagnoses :
    (events run).countP Event.isDiagnosis =
      run.summary.failed + run.finished.countP fun record => record.2.isFailure := by
  have hfailed : run.summary.failed =
      (Entry.recordedIn run.entries).countP fun record => record.2.isFailure := by
    rw [h.counted]
    exact List.countP_map
  have hrecorded : ((Entry.recordedIn run.entries).map fun record =>
      Act.failuresReported (actsOf run record.1)) =
        (Entry.recordedIn run.entries).map fun record => record.2.isFailure.toNat :=
    List.map_congr_left fun record hrecord => (booked_of_recorded h hrecord).diagnosed
  have hfinished : (run.finished.map fun record => Act.failuresReported (actsOf run record.1)) =
      run.finished.map fun record => record.2.isFailure.toNat := by
    apply List.map_congr_left
    intro record hrecord
    refine (booked_of_ended h ?_).diagnosed
    exact (h.settled.ended (not_aborted_of_reachable h)).mem_iff.mpr
      (List.mem_append_right _ hrecord)
  have hrunning : (run.running.map fun entry =>
      Act.failuresReported (actsOf run entry.1)).sum = 0 := by
    rw [List.sum_eq_zero_iff_forall_eq_nat]
    intro failures hfailures
    obtain ⟨entry, hentry, rfl⟩ := List.mem_map.mp hfailures
    exact failuresReported_of_running h (List.mem_map.mpr ⟨entry, hentry, rfl⟩)
  have hsum := sum_called_eq h fun tick => Act.failuresReported (actsOf run tick)
  rw [hrecorded, hfinished, hrunning, sum_map_toNat, sum_map_toNat, Nat.add_zero] at hsum
  rw [countP_events h (fun event hevent => by cases event <;> first | rfl | cases hevent), hfailed]
  exact hsum

end Reached

/-! ## The whole account -/

/-- The totals of a run with batches of some size, what its connections took and what was
logged agree. -/
structure Agree (size : Nat) (run : DeliveryRun) (log : List Event) : Prop where
  /-- What is counted are the complete lines of the ticks recorded as completed or failed. -/
  counted : run.summary.ordersSent =
    (((Entry.recordedIn run.entries).filter fun record => !record.2.isCancellation).map
      fun record => linesTaken run record.1).sum
  notMore : run.summary.ordersSent ≤ totalLines run
  /-- In the end only the lines of cancelled ticks are not counted. -/
  shortfall : run.phase = .returned →
    totalLines run = run.summary.ordersSent +
      (((Entry.recordedIn run.entries).filter fun record => record.2.isCancellation).map
        fun record => linesTaken run record.1).sum
  /-- Every complete line is logged, also those of cancelled ticks. -/
  logged : log.count .sent = totalLines run
  /-- Every failure is logged before it is counted. -/
  diagnosed : log.countP Event.isDiagnosis =
    run.summary.failed + run.finished.countP fun record => record.2.isFailure
  diagnosedAll : run.phase = .returned → log.countP Event.isDiagnosis = run.summary.failed
  /-- A tick logs one failure if it failed, and none otherwise. -/
  diagnosedOnce : ∀ tick how, (tick, how) ∈ Entry.endedIn run.entries →
    (Act.events (actsOf run tick)).countP Event.isDiagnosis = how.isFailure.toNat
  atLeast : run.summary.completed * size ≤ run.summary.ordersSent
  atMost : run.summary.ordersSent ≤ (run.summary.completed + run.summary.failed) * size
  /-- A failed tick lacks a line, unless it was a flush that failed. -/
  lessIfFailed : 0 < run.summary.failed → 0 < size →
    (∀ tick, ¬ Act.FlushFailed (actsOf run tick)) →
      run.summary.ordersSent < (run.summary.completed + run.summary.failed) * size

/-- What else is logged does not matter. -/
theorem Agree.of_counts {size : Nat} {log log' : List Event} (h : Agree size run log)
    (hsent : log'.count .sent = log.count .sent)
    (hdiagnoses : log'.countP Event.isDiagnosis = log.countP Event.isDiagnosis) :
    Agree size run log' :=
  { h with
    logged := hsent.trans h.logged
    diagnosed := hdiagnoses.trans h.diagnosed
    diagnosedAll := fun hphase => hdiagnoses.trans (h.diagnosedAll hphase) }

theorem agree_of_reachable (h : run.Reachable schedule (work timer plan peers)) :
    Agree plan.batchSize run (events run) := by
  have hsum := sum_called_eq h (linesTaken run)
  have hsplit := sum_map_filter_add (fun record : Nat × Ending => record.2.isCancellation)
    (fun record => linesTaken run record.1) (Entry.recordedIn run.entries)
  have hcounted := ordersSent_eq_sum_linesTaken h
  have htotal := totalLines_eq h
  have hidle := h.idle_of_returned
  -- What is said of the endings recorded is said of the totals, which are their tally.
  have hbooked : ∀ how ∈ (Entry.recordedIn run.entries).map Prod.snd,
      ∃ tick, Booked plan.batchSize (actsOf run tick) how := by
    intro how hhow
    obtain ⟨record, hrecord, rfl⟩ := List.mem_map.mp hhow
    exact ⟨record.1, booked_of_recorded h hrecord⟩
  have hwhole : ∀ how ∈ (Entry.recordedIn run.entries).map Prod.snd,
      how.isCompletion = true → how.sent = plan.batchSize := by
    intro how hhow
    obtain ⟨tick, hbook⟩ := hbooked how hhow
    exact hbook.whole
  have htally := h.counted
  refine ⟨hcounted, by omega, ?_, count_sent_events h, countP_diagnoses h, ?_, ?_, ?_, ?_, ?_⟩
  · intro hphase
    obtain ⟨hfinished, hrunning⟩ := hidle hphase
    simp only [hfinished, hrunning, List.map_nil, List.sum_nil] at hsum
    omega
  · intro hphase
    rw [countP_diagnoses h, (hidle hphase).1]
    rfl
  · exact fun tick how hended => (booked_of_ended h hended).diagnosed
  · rw [htally]
    exact countP_mul_le_sum_sent hwhole
  · rw [htally]
    refine sum_sent_add_le 0 hwhole fun how hhow hfailure => ?_
    obtain ⟨tick, hbook⟩ := hbooked how hhow
    exact (hbook.within hfailure).1
  · intro hfailed hsize hflush
    have hle := sum_sent_add_le 1 hwhole fun how hhow hfailure => by
      obtain ⟨tick, hbook⟩ := hbooked how hhow
      obtain ⟨hle, hall⟩ := hbook.within hfailure
      refine Nat.lt_of_le_of_ne hle fun heq => ?_
      exact (hall heq).elim (Nat.ne_of_gt hsize) (hflush tick)
    rw [htally] at hfailed ⊢
    simp only [Summary.tally] at hfailed ⊢
    omega

/-- The records of a run agree with it by their words: those that say that a line was sent count
the complete lines, and in the end those that tell a failure count the failed ticks. -/
structure AgreeInWords (run : DeliveryRun) (records : List Record) : Prop where
  sent : records.countP (Record.begins "Sent at ") = totalLines run
  failed : run.phase = .returned →
    records.countP (Record.begins "Error establishing connection: ") = run.summary.failed

theorem begins_diagnosis (labels : Labels) (event : Event) :
    (event.record labels).begins "Error establishing connection: " = event.isDiagnosis := by
  rw [Bool.eq_iff_iff]
  refine (event.begins_heading_iff labels (.attemptFailed ⟨0, .os .refused⟩)).trans ?_
  cases event <;> simp [Event.heading, Event.isDiagnosis]

/-- A log that agrees with a run does so by its words. -/
theorem Agree.inWords {size : Nat} {log : List Event} (h : Agree size run log)
    (labels : Labels) : AgreeInWords run (log.map (Event.record labels)) := by
  refine ⟨?_, fun hphase => ?_⟩
  · rw [List.countP_map, ← h.logged, List.count]
    apply List.countP_congr
    intro event _
    rw [Function.comp_apply, Event.begins_sent_iff, beq_iff_eq]
  · rw [List.countP_map, ← h.diagnosedAll hphase]
    apply List.countP_congr
    intro event _
    rw [Function.comp_apply, begins_diagnosis]

/-- The totals, the connections and the log of a simulation agree, whatever the peers do and in
whatever order ticks are polled, end and are cancelled, and so they do in the result of a
simulation that is run.  The log agrees as it is read, by the words of its records. -/
theorem summary_wire_and_log_agree (surroundings : Surroundings) (settings : Settings) :
    (∀ run : DeliveryRun, run.Reachable (settings.schedule surroundings.timer)
        (workOf surroundings settings) →
      Agree settings.batchSize run (events run) ∧
      ∀ labels, AgreeInWords run ((events run).map (Event.record labels))) ∧
    ∀ (rounds : Nat) (run : DeliveryRun),
      simulate surroundings rounds settings = .finished run →
        run.phase = .returned ∧
          Agree settings.batchSize run ((Result.finished run).events settings) ∧
          ∀ labels, AgreeInWords run
            (((Result.finished run).events settings).map (Event.record labels)) := by
  refine ⟨fun run h => ⟨agree_of_reachable h, (agree_of_reachable h).inWords⟩, ?_⟩
  intro rounds run hsimulate
  obtain ⟨loop, hdrive, rfl⟩ := drive_of_finished hsimulate
  have hrun := agree_of_reachable (serves_of_drive hdrive).punctual.reachable
  have hagree : Agree settings.batchSize loop.run ((Result.finished loop.run).events settings) :=
    hrun.of_counts (by simp [Result.events, opening]) (by simp [Result.events, opening])
  exact ⟨returned_of_drive hdrive, hagree, hagree.inWords⟩

/-! ## A run with every kind of record -/

/-- Three ticks of two orders each, all in flight at once. -/
def splitSettings : Settings :=
  { Settings.standard with
    batchSize := 2
    period := ⟨10⟩
    workers := 3
    maxTicks := some 3
    seed := some 7 }

/-- The first tick's engine takes all, the second's fails after a line, and the third's stalls in
the middle of its second line, until the token fires. -/
def splitSurroundings : Surroundings where
  timer := .ideal
  network _ tick :=
    match tick with
    | 1 => .engine
    | 2 => .engineFailingAfter 1 (.os .brokenPipe)
    | _ => { Peer.engine with writes := [(1, .takesAll), (1, .takes 3), (1, .stalls)] }
  unseeded := .seeded 0
  cancelled := false
  cancelAt := some 50

/-- The loop at the end of the simulation. -/
def splitLoop : Loop Generator Delivery Act :=
  ((startLoop splitSurroundings splitSettings).drive (splitSettings.schedule .ideal)
    (workOf splitSurroundings splitSettings) 50).getD (startLoop splitSurroundings splitSettings)

theorem simulate_split :
    simulate splitSurroundings 50 splitSettings = .finished splitLoop.run := by
  have hends : ((startLoop splitSurroundings splitSettings).drive
      (splitSettings.schedule .ideal) (workOf splitSurroundings splitSettings) 50).isSome := by
    decide +kernel
  obtain ⟨loop, hloop⟩ := Option.isSome_iff_exists.mp hends
  have hdrive : (startLoop splitSurroundings splitSettings).drive
      (splitSettings.schedule splitSurroundings.timer)
      (workOf splitSurroundings splitSettings) 50 = some splitLoop := by
    rw [splitLoop, hloop]
    exact hloop
  rw [simulate_of_admitted (by decide) (by decide), hdrive]

theorem records_of_split :
    splitLoop.run.summary = ⟨3, 1, 1, 1, 3⟩ ∧ totalLines splitLoop.run = 4 ∧
      ((Result.finished splitLoop.run).events splitSettings).count .sent = 4 ∧
      ((Result.finished splitLoop.run).events splitSettings).countP Event.isDiagnosis = 1 ∧
      (((Result.finished splitLoop.run).events splitSettings).map
        (Event.record ⟨"12", fun _ => "3"⟩)).countP (Record.begins "Sent at ") = 4 ∧
      (((Entry.recordedIn splitLoop.run.entries).filter
        fun record => record.2.isCancellation).map
          fun record => linesTaken splitLoop.run record.1).sum = 1 := by
  have htotals : splitLoop.run.summary = ⟨3, 1, 1, 1, 3⟩ ∧ totalLines splitLoop.run = 4 := by
    decide +kernel
  obtain ⟨hreturned, hagree, hwords⟩ :=
    (summary_wire_and_log_agree splitSurroundings splitSettings).2 50 _ simulate_split
  refine ⟨htotals.1, htotals.2, ?_, ?_, ?_, ?_⟩
  · rw [hagree.logged, htotals.2]
  · rw [hagree.diagnosedAll hreturned, htotals.1]
  · rw [(hwords _).sent, htotals.2]
  · have hshort := hagree.shortfall hreturned
    rw [htotals.1, htotals.2] at hshort
    simp only at hshort
    omega

end Simulation

end OrderFlow
