import OrderFlow.Proofs.Delivery.Events
import OrderFlow.Proofs.Headings
import OrderFlow.Proofs.Scheduler.Cancellation
import OrderFlow.Proofs.Scheduler.Interrupts
import OrderFlow.Proofs.Simulation.Admission

/-!
# The exit code of the program

The exit code says how far the program got: its arguments could not be read, or asked for
nothing but a text, or asked for settings that cannot be used, or a run took place.  What
became of the ticks of a run is told by the log alone.  A run that took place tells its totals
twice at the end, and a warning that nothing was delivered is the last word.  An interrupt is
told once, wherever it came, and a run that stopped short of its limit tells of one.
-/

namespace OrderFlow

namespace Settings.Fault

/-- All faults, in the order in which settings are checked for them, and their words. -/
def wordings : List (Fault × String) :=
  [(.emptyHost, "host must not be empty"),
    (.emptyBatch, "batch size must be > 0"),
    (.zeroPeriod, "tick period must be > 0"),
    (.emptyPool, "worker pool must have at least one worker"),
    (.zeroTimeout, "connect timeout must be > 0")]

theorem mem_wordings_iff {fault : Fault} {words : String} :
    (fault, words) ∈ wordings ↔ fault.message = words := by
  cases fault <;> simp [wordings, message, eq_comm]

/-- Faults are told apart by their words. -/
theorem message_injective : Function.Injective message := by
  intro fault other h
  cases fault <;> cases other <;> first | rfl | (exact absurd h (by decide))

end Settings.Fault

namespace CommandLine.Choices

/-- Whether choices ask for what makes settings unusable. -/
def askFor (choices : Choices) : Settings.Fault → Bool
  | .emptyHost => choices.host = some ""
  | .emptyBatch => choices.batchSize = some 0
  | .zeroPeriod => choices.periodUs = some 0
  | .emptyPool => choices.workers = some 0
  | .zeroTimeout => choices.connectTimeoutMs = some 0

theorem getD_eq_iff_of_ne {α : Type} {given : Option α} {standard value : α}
    (h : standard ≠ value) : given.getD standard = value ↔ given = some value := by
  cases given with
  | none => simpa using h
  | some other => simp

theorem host_settings_eq_iff (choices : Choices) :
    choices.settings.host = "" ↔ choices.host = some "" :=
  getD_eq_iff_of_ne (by decide)

theorem batchSize_settings_eq_iff (choices : Choices) :
    choices.settings.batchSize = 0 ↔ choices.batchSize = some 0 :=
  getD_eq_iff_of_ne (by decide)

theorem workers_settings_eq_iff (choices : Choices) :
    choices.settings.workers = 0 ↔ choices.workers = some 0 :=
  getD_eq_iff_of_ne (by decide)

theorem period_settings_eq_iff (choices : Choices) :
    choices.settings.period.nanos = 0 ↔ choices.periodUs = some 0 := by
  unfold settings
  cases choices.periodUs with
  | none => simpa using by decide
  | some n => simp [Duration.ofMicros]

theorem connectTimeout_settings_eq_iff (choices : Choices) :
    choices.settings.connectTimeout = some ⟨0⟩ ↔ choices.connectTimeoutMs = some 0 := by
  unfold settings
  cases choices.connectTimeoutMs with
  | none => simp
  | some n => simp [Duration.ofMillis]

/-- The first fault that was asked for, with its words. -/
def complaint? (choices : Choices) : Option (Settings.Fault × String) :=
  Settings.Fault.wordings.find? fun entry => choices.askFor entry.1

/-- The fault that settings are refused for is the first one that was asked for. -/
theorem complaint?_eq (choices : Choices) :
    choices.complaint? = choices.settings.fault?.map fun fault => (fault, fault.message) := by
  unfold complaint? Settings.fault? Settings.Fault.wordings
  simp only [host_settings_eq_iff, batchSize_settings_eq_iff, period_settings_eq_iff,
    workers_settings_eq_iff, connectTimeout_settings_eq_iff, List.find?_cons, askFor]
  split_ifs <;> simp [*, Settings.Fault.message]

theorem fault?_settings_eq_some_iff {choices : Choices} {fault : Settings.Fault} :
    choices.settings.fault? = some fault ↔ choices.complaint? = some (fault, fault.message) := by
  rw [complaint?_eq, Option.map_eq_some_iff]
  constructor
  · intro h
    exact ⟨fault, h, rfl⟩
  · rintro ⟨other, hother, hsame⟩
    rw [hother, (Prod.mk.inj hsame).1]

theorem askFor_of_fault? {choices : Choices} {fault : Settings.Fault}
    (h : choices.settings.fault? = some fault) : choices.askFor fault = true := by
  have hfirst := fault?_settings_eq_some_iff.mp h
  unfold complaint? at hfirst
  simpa using List.find?_some hfirst

theorem fault?_settings_eq_none_iff (choices : Choices) :
    choices.settings.fault? = none ↔ ∀ fault, choices.askFor fault = false := by
  have hcomplaint := choices.complaint?_eq
  constructor
  · intro hnone fault
    rw [hnone, Option.map_none, complaint?, List.find?_eq_none] at hcomplaint
    exact Bool.eq_false_iff.mpr
      (hcomplaint (fault, fault.message) (Settings.Fault.mem_wordings_iff.mpr rfl))
  · intro hnot
    rw [Option.eq_none_iff_forall_ne_some]
    intro fault hfault
    have hasked := askFor_of_fault? hfault
    rw [hnot fault] at hasked
    cases hasked

end CommandLine.Choices

namespace Simulation

variable {timer : Timer} {plan : Plan} {peers : Nat → Peer} {schedule : Schedule}
  {run : DeliveryRun}

/-! ## What the log of a simulation holds -/

theorem work_speaks_of_ticks :
    (work timer plan peers).Keeps (fun _ acts _ => Act.SpeakOfTicks acts)
      (fun _ acts _ => Act.SpeakOfTicks acts) where
  call := by
    intro tick now generator effect delivery hcalled
    cases hcalled
    exact Act.speakOfTicks_nil
  pending := by
    intro tick now generator effect delivery next acts hacts hpolled
    rcases poll_work_keeps hpolled
        (Delivery.poll_speaks_of_ticks timer now acts delivery generator hacts) with
      ⟨next', hnext, hkept⟩ | ⟨result, turnActs, hreturned, _⟩
    · cases hnext
      exact hkept
    · cases hreturned
  ending := by
    intro tick now generator effect delivery status how acts hacts hpolled hending
    rcases poll_work_keeps hpolled
        (Delivery.poll_speaks_of_ticks timer now acts delivery generator hacts) with
      ⟨next, rfl, _⟩ | ⟨result, turnActs, rfl, hturn, hkept⟩
    · cases hending
    · rw [hturn, ← List.append_assoc]
      exact hkept.append (Delivery.speakOfTicks_conclude result)
  drop := fun hacts => hacts.append (Delivery.speakOfTicks_drop _)

/-- What the ticks of a run log is what ticks have to say. -/
theorem isTicks_of_did (h : run.Reachable schedule (work timer plan peers)) {tick : Nat}
    {act : Act} (hdid : .did tick act ∈ run.entries) {event : Event}
    (hevent : act.event? = some event) : event.isTicks = true := by
  have haborted := not_aborted_of_reachable h
  have hact : act ∈ Entry.actsIn tick run.entries :=
    Entry.mem_seen_iff.mpr ⟨_, hdid, if_pos rfl⟩
  have hmem : event ∈ Act.events (Entry.actsIn tick run.entries) :=
    List.mem_filterMap.mpr ⟨act, hact, hevent⟩
  rcases (h.traced work_speaks_of_ticks haborted).places h haborted tick with
    ⟨_, _, hspeak⟩ | ⟨_, _, hspeak⟩ | hnothing
  · exact hspeak event hmem
  · exact hspeak event hmem
  · rw [hnothing] at hmem
    cases hmem

theorem interrupted_not_mem_events (h : run.Reachable schedule (work timer plan peers)) :
    .interrupted ∉ events run := by
  intro hevent
  obtain ⟨entry, hentry, hsaid⟩ := List.mem_filterMap.mp hevent
  cases entry with
  | logged event =>
      obtain rfl := Option.some.inj hsaid
      exact h.interrupted_not_mem_events (List.mem_filterMap.mpr ⟨_, hentry, rfl⟩)
  | did tick act =>
      have hticks := isTicks_of_did h hentry hsaid
      cases hticks
  | _ => cases hsaid

/-- No tick of a simulation fires the token. -/
theorem work_sparesToken : (work timer plan peers).SparesToken :=
  ⟨fun _ _ _ => rfl, fun _ _ _ _ => rfl⟩

end Simulation

namespace Program

variable {arguments : List Bytes}

/-- A log ends by telling some totals: the scheduler's last event and that of the run both
hold them, no other event does, and a warning that nothing was delivered comes last. -/
structure ClosesWith (summary : Summary) (log : List Event) : Prop where
  stopped : ∀ totals, .schedulerStopped totals ∈ log ↔ totals = summary
  done : ∀ totals, .runDone totals ∈ log ↔ totals = summary
  warned : .nothingDelivered ∈ log ↔ 0 < summary.ticks ∧ summary.completed = 0
  last : .nothingDelivered ∈ log →
    ∃ earlier, log = earlier ++ [.nothingDelivered] ∧ .nothingDelivered ∉ earlier

/-- Some totals in a line that begins with other words. -/
def totalsLine (words : String) (summary : Summary) : String :=
  words ++ "ticks=" ++ toString summary.ticks ++ " completed=" ++ toString summary.completed ++
    " failed=" ++ toString summary.failed ++ " cancelled=" ++ toString summary.cancelled ++
    " orders_sent=" ++ toString summary.ordersSent

/-- Records end by telling some totals: there is one record of the scheduler's totals and one of
the run's, both of these totals, and a warning that nothing was delivered comes last. -/
structure ClosesInWords (summary : Summary) (records : List Record) : Prop where
  stopped : (records.filter (Record.begins "scheduler stopped: ticks=")).map Record.message =
    [totalsLine "scheduler stopped: " summary]
  done : (records.filter (Record.begins "--- done --- ticks=")).map Record.message =
    [totalsLine "--- done --- " summary]
  warned : (∃ record ∈ records, record.begins "no batch reached the engine" = true) ↔
    0 < summary.ticks ∧ summary.completed = 0
  last : 0 < summary.ticks ∧ summary.completed = 0 →
    records.getLast?.map Record.message = some "no batch reached the engine"

theorem mem_lastWord_iff {summary : Summary} {event : Event} :
    event ∈ lastWord summary ↔
      event = .nothingDelivered ∧ 0 < summary.ticks ∧ summary.completed = 0 := by
  unfold lastWord
  split_ifs with hword
  · simp [hword]
  · simp [hword]

/-- A log without a word of the end, and then the two totals. -/
def closing (earlier : List Event) (summary : Summary) : List Event :=
  earlier ++ [.schedulerStopped summary, .runDone summary] ++ lastWord summary

/-- What has no word of the end before the totals closes with them. -/
theorem closesWith_append {summary : Summary} {earlier : List Event}
    (hquiet : ∀ event ∈ earlier, event.isClosing = false) :
    ClosesWith summary (closing earlier summary) := by
  have hnot : ∀ event : Event, event.isClosing = true → event ∉ earlier := by
    intro event hclosing hevent
    rw [hquiet event hevent] at hclosing
    cases hclosing
  have hstopped : ∀ totals, .schedulerStopped totals ∉ earlier := fun _ => hnot _ rfl
  have hdone : ∀ totals, .runDone totals ∉ earlier := fun _ => hnot _ rfl
  have hwarned : .nothingDelivered ∉ earlier := hnot _ rfl
  unfold closing
  refine ⟨fun totals => ?_, fun totals => ?_, ?_, fun hword => ?_⟩
  · simp [mem_lastWord_iff, hstopped]
  · simp [mem_lastWord_iff, hdone]
  · simp [mem_lastWord_iff, hwarned]
  · have htotals : 0 < summary.ticks ∧ summary.completed = 0 := by
      simpa [mem_lastWord_iff, hwarned] using hword
    refine ⟨earlier ++ [.schedulerStopped summary, .runDone summary], ?_, ?_⟩
    · rw [lastWord, if_pos htotals]
    · simp [hwarned]

/-- Whether an event tells the end of a run is told from its heading. -/
theorem isClosing_eq_of_heading_eq {event other : Event} (h : event.heading = other.heading) :
    event.isClosing = other.isClosing := by
  have htold : ∀ event : Event, event.isClosing = decide (event.heading ∈
      ["scheduler stopped: ticks=", "--- done --- ticks=", "no batch reached the engine"]) := by
    intro event
    cases event <;> rfl
  rw [htold, htold, h]

theorem filter_heading_closing {earlier : List Event} {summary : Summary}
    (hquiet : ∀ event ∈ earlier, event.isClosing = false) {other : Event}
    (hother : other.isClosing = true) :
    (closing earlier summary).filter (fun event => event.heading = other.heading) =
      (closing [] summary).filter fun event => event.heading = other.heading := by
  have hnone : (earlier.filter fun event => event.heading = other.heading) = [] := by
    refine List.filter_eq_nil_iff.mpr fun event hevent hsame => ?_
    have hclosing := isClosing_eq_of_heading_eq (of_decide_eq_true hsame)
    rw [hquiet event hevent, hother] at hclosing
    cases hclosing
  simp only [closing, List.filter_append, hnone, List.nil_append]

/-- What closes with some totals does so by its words. -/
theorem closesInWords_append {summary : Summary} {earlier : List Event}
    (hquiet : ∀ event ∈ earlier, event.isClosing = false) (labels : Labels) :
    ClosesInWords summary ((closing earlier summary).map (Event.record labels)) := by
  have hfilter : ∀ {other : Event} {events}, other.isClosing = true →
      (closing [] summary).filter (fun event => event.heading = other.heading) = events →
      ((closing earlier summary).map (Event.record labels)).filter
        (Record.begins other.heading) = events.map (Event.record labels) := by
    intro other events hother hevents
    rw [Event.filter_begins_heading, filter_heading_closing hquiet hother, hevents]
  have hstopped := @hfilter (.schedulerStopped summary) [.schedulerStopped summary] rfl (by
    unfold closing lastWord
    split <;> simp [Event.heading])
  have hdone := @hfilter (.runDone summary) [.runDone summary] rfl (by
    unfold closing lastWord
    split <;> simp [Event.heading])
  have hwarned := @hfilter .nothingDelivered (lastWord summary) rfl (by
    unfold closing lastWord
    split <;> simp [Event.heading])
  simp only [Event.heading] at hstopped hdone hwarned
  refine ⟨?_, ?_, ⟨?_, ?_⟩, fun htotals => ?_⟩
  · rw [hstopped]
    change ["scheduler stopped: " ++ summary.text] = _
    simp only [totalsLine, Summary.text, String.append_assoc]
  · rw [hdone]
    change ["--- done --- " ++ summary.text] = _
    simp only [totalsLine, Summary.text, String.append_assoc]
  · rintro ⟨record, hrecord, hbegins⟩
    have hmem := List.mem_filter.mpr ⟨hrecord, hbegins⟩
    rw [hwarned] at hmem
    obtain ⟨event, hevent, -⟩ := List.mem_map.mp hmem
    exact (mem_lastWord_iff.mp hevent).2
  · intro htotals
    have hmem := List.mem_map_of_mem (f := Event.record labels)
      (mem_lastWord_iff.mpr ⟨rfl, htotals⟩)
    rw [← hwarned] at hmem
    exact ⟨_, List.mem_filter.mp hmem⟩
  · rw [closing, lastWord, if_pos htotals, List.map_append, List.map_singleton,
      List.getLast?_concat]
    rfl

section Spoken

variable {timer : Timer} {plan : Plan} {peers : Nat → Peer} {schedule : Schedule}
  {run : Simulation.DeliveryRun}

theorem spoken_eq_of_ne {entry : Entry Act} (h : entry ≠ .cancelled) :
    spoken entry = (Simulation.said? entry).toList := by
  cases entry with
  | cancelled => exact absurd rfl h
  | _ => rfl

theorem events_finished (settings : Settings) (run : Simulation.DeliveryRun) :
    events settings (.finished run) =
      Simulation.opening settings :: run.entries.flatMap spoken ++ [.runDone run.summary] ++
        lastWord run.summary := rfl

/-- What a run that returned adds to the log ends with its totals, and nothing before tells its
end. -/
theorem spoken_of_returned (h : run.Reachable schedule (Simulation.work timer plan peers))
    (hphase : run.phase = .returned) :
    ∃ earlier, run.entries.flatMap spoken = earlier ++ [.schedulerStopped run.summary] ∧
      ∀ event ∈ earlier, event.isClosing = false := by
  obtain ⟨entries, hentries, hquiet⟩ := h.closing_of_returned hphase
  refine ⟨entries.flatMap spoken, ?_, ?_⟩
  · rw [hentries, List.flatMap_append]
    rfl
  · intro event hevent
    obtain ⟨entry, hentry, hspoken⟩ := List.mem_flatMap.mp hevent
    cases entry with
    | logged other =>
        obtain rfl := List.mem_singleton.mp hspoken
        exact hquiet _ (List.mem_filterMap.mpr ⟨_, hentry, rfl⟩)
    | did tick act =>
        have hdid : .did tick act ∈ run.entries := by
          rw [hentries]
          exact List.mem_append_left _ hentry
        exact Event.isClosing_of_isTicks
          (Simulation.isTicks_of_did h hdid (Option.mem_toList.mp hspoken))
    | cancelled =>
        obtain rfl := List.mem_singleton.mp hspoken
        rfl
    | _ => cases hspoken

/-- The log has as many interrupts as the run has notes of its token. -/
theorem count_interrupted_spoken {entries : List (Entry Act)}
    (h : .interrupted ∉ entries.filterMap Simulation.said?) :
    (entries.flatMap spoken).count .interrupted = (Entry.cancelledIn entries).length := by
  induction entries with
  | nil => rfl
  | cons entry rest ih =>
      have hentry : (spoken entry).count .interrupted = entry.cancelled?.toList.length := by
        by_cases hcancelled : entry = .cancelled
        · rw [hcancelled]
          rfl
        · have hnone : entry.cancelled? = none := by
            cases entry <;> first | rfl | exact absurd rfl hcancelled
          rw [spoken_eq_of_ne hcancelled, hnone]
          refine List.count_eq_zero.mpr fun hsaid => h ?_
          exact List.mem_filterMap.mpr ⟨entry, List.mem_cons_self, Option.mem_toList.mp hsaid⟩
      have hrest := ih fun hevent => h (by
        obtain ⟨other, hother, hsaid⟩ := List.mem_filterMap.mp hevent
        exact List.mem_filterMap.mpr ⟨other, List.mem_cons_of_mem _ hother, hsaid⟩)
      simp only [List.flatMap_cons, List.count_append, Entry.seen_cons, List.length_append,
        hentry, hrest]

/-- The log of a run that returned tells its end by the totals alone. -/
theorem events_of_returned (settings : Settings)
    (h : run.Reachable schedule (Simulation.work timer plan peers))
    (hphase : run.phase = .returned) :
    ∃ earlier, events settings (.finished run) = closing earlier run.summary ∧
      ∀ event ∈ earlier, event.isClosing = false := by
  obtain ⟨earlier, hspoken, hquiet⟩ := spoken_of_returned h hphase
  refine ⟨Simulation.opening settings :: earlier, ?_, List.forall_mem_cons.mpr ⟨rfl, hquiet⟩⟩
  simp [events_finished, hspoken, closing]

/-- A log tells of the interrupt that stopped a run: of one at the most, and only if the token of
the run fired, but certainly if the run stopped short of its limit or cancelled a tick. -/
structure TellsInterrupt (schedule : Schedule) (run : Simulation.DeliveryRun)
    (log : List Event) : Prop where
  once : log.count .interrupted ≤ 1
  fired : .interrupted ∈ log → run.cancelled = true
  short : schedule.limitReached run.summary.ticks = false → .interrupted ∈ log
  dropped : 0 < run.summary.cancelled → .interrupted ∈ log

theorem count_interrupted_events (settings : Settings)
    (h : run.Reachable schedule (Simulation.work timer plan peers)) :
    (events settings (.finished run)).count .interrupted =
      (Entry.cancelledIn run.entries).length := by
  have hrun : (run.entries.flatMap spoken).count .interrupted =
      (Entry.cancelledIn run.entries).length :=
    count_interrupted_spoken (Simulation.interrupted_not_mem_events h)
  have hword : (lastWord run.summary).count .interrupted = 0 := by
    unfold lastWord
    split <;> simp
  simp [events_finished, Simulation.opening, List.count_append, hrun, hword]

theorem tellsInterrupt_of_returned (settings : Settings) {now : Nat} {generator : Generator}
    (h : (Run.start schedule now false generator).Leads schedule
      (Simulation.work timer plan peers) run)
    (hphase : run.phase = .returned) :
    TellsInterrupt schedule run (events settings (.finished run)) := by
  have hreachable : run.Reachable schedule (Simulation.work timer plan peers) :=
    ⟨now, false, generator, h⟩
  have hcount := count_interrupted_events settings hreachable
  have hnoted := h.tokenNoted Simulation.work_sparesToken (Run.tokenNoted_start now generator)
  -- Without a word of an interrupt the run is one whose token never fired.
  have hquiet : .interrupted ∉ events settings (.finished run) →
      ∃ ended : Simulation.DeliveryRun,
        ended.Reachable schedule (Simulation.work timer plan peers) ∧
        ended.phase = .returned ∧ ended.cancelled = false ∧
        run = { ended with cancelled := run.cancelled, now := run.now } := by
    intro hnot
    refine h.exists_uncancelled Simulation.work_sparesToken hphase ?_
    rw [← List.length_eq_zero_iff, ← hcount]
    exact List.count_eq_zero.mpr hnot
  refine ⟨?_, ?_, ?_, ?_⟩
  · rw [hcount]
    rcases hnoted.once with hnone | ⟨-, hone⟩ <;> simp [*]
  · intro hmem
    rcases hnoted.once with hnone | ⟨hfired, -⟩
    · rw [hnone] at hcount
      exact absurd hmem (List.count_eq_zero.mp hcount)
    · exact hfired
  · intro hshort
    by_contra hnot
    obtain ⟨ended, hended, hendedPhase, hcancelled, hsame⟩ := hquiet hnot
    have hlimit := hended.limitReached (Or.inr hendedPhase) hcancelled
    rw [hsame, hlimit] at hshort
    cases hshort
  · intro hdropped
    by_contra hnot
    obtain ⟨ended, hended, -, hcancelled, hsame⟩ := hquiet hnot
    have hzero := (hended.cancelledTicks_le (Run.noneGaveUp_simulation hended)).2 hcancelled
    have hnone : run.summary.cancelled = 0 := by
      rw [hsame]
      exact (Nat.add_eq_zero_iff.mp hzero).1
    omega

end Spoken

theorem run_of_stop {stop : CommandLine.Stop} (h : CommandLine.read arguments = .error stop)
    (labels : Labels) (surroundings : Surroundings) (rounds : Nat) :
    run labels surroundings rounds arguments = some (reportOfStop stop) := by
  unfold run
  rw [h]

theorem run_of_fault {choices : CommandLine.Choices} {fault : Settings.Fault}
    (h : CommandLine.read arguments = .ok choices)
    (hfault : choices.settings.fault? = some fault) (labels : Labels)
    (surroundings : Surroundings) (rounds : Nat) :
    run labels surroundings rounds arguments =
      some ⟨1, "", "Error: " ++ fault.message ++ "\n", none⟩ := by
  unfold run
  rw [h]
  dsimp only
  rw [Simulation.simulate_of_fault hfault]
  rfl

/-- A run with which the program can end, whatever the ticks and the user do and when. -/
def CanEndWith (surroundings : Surroundings) (settings : Settings)
    (last : Simulation.DeliveryRun) : Prop :=
  (Simulation.startRun (listening surroundings) settings).Leads
      (settings.schedule surroundings.timer) (Simulation.workOf surroundings settings) last ∧
    last.phase = .returned

/-- Choices without a fault that fit the pool lead to a run, and if it ends it returns. -/
theorem run_of_admitted {choices : CommandLine.Choices}
    (h : CommandLine.read arguments = .ok choices)
    (hfault : choices.settings.fault? = none)
    (hfits : choices.settings.workers ≤ Schedule.maxPermits) {labels : Labels}
    {surroundings : Surroundings} {rounds : Nat} {report : Report}
    (hended : run labels surroundings rounds arguments = some report) :
    ∃ last : Simulation.DeliveryRun,
      Simulation.simulate (listening surroundings) rounds choices.settings = .finished last ∧
      CanEndWith surroundings choices.settings last ∧
      report = ⟨0, Record.text choices.level
        ((events choices.settings (.finished last)).map (Event.record labels)), "",
        some last⟩ := by
  unfold run at hended
  rw [h] at hended
  dsimp only at hended
  rcases @Simulation.finished_or_unfinished (listening surroundings) rounds choices.settings
      hfault hfits with ⟨loop, hdrive, hfinished, hphase⟩ | ⟨-, hunfinished⟩
  · rw [hfinished] at hended
    exact ⟨loop.run, hfinished, ⟨(Simulation.serves_of_drive hdrive).leads, hphase⟩,
      (Option.some.inj hended).symm⟩
  · rw [hunfinished] at hended
    cases hended

/-- The exit code tells whether settings that cannot be used were asked for, and the complaint
tells which fault was found first. -/
theorem report_of_fault_iff
    (hfits : ∀ choices, CommandLine.read arguments = .ok choices →
      choices.settings.workers ≤ Schedule.maxPermits)
    {labels : Labels} {surroundings : Surroundings} {rounds : Nat} {report : Report}
    (hended : run labels surroundings rounds arguments = some report) :
    (report.exitCode = 1 ↔ ∃ choices fault,
      CommandLine.read arguments = .ok choices ∧ choices.askFor fault = true) ∧
    ∀ fault words, (fault, words) ∈ Settings.Fault.wordings →
      (report.exitCode = 1 ∧ report.complaint = "Error: " ++ words ++ "\n" ↔
        ∃ choices, CommandLine.read arguments = .ok choices ∧
          choices.complaint? = some (fault, words)) := by
  cases hread : CommandLine.read arguments with
  | error stop =>
      rw [run_of_stop hread] at hended
      obtain rfl := Option.some.inj hended
      cases stop <;> simp [reportOfStop, CommandLine.Stop.exitCode]
  | ok choices =>
      cases hfault : choices.settings.fault? with
      | some first =>
          rw [run_of_fault hread hfault] at hended
          obtain rfl := Option.some.inj hended
          have hcomplaint := CommandLine.Choices.fault?_settings_eq_some_iff.mp hfault
          refine ⟨⟨fun _ => ⟨choices, first, rfl, CommandLine.Choices.askFor_of_fault? hfault⟩,
            fun _ => rfl⟩, fun fault words hwords => ?_⟩
          obtain rfl := Settings.Fault.mem_wordings_iff.mp hwords
          constructor
          · rintro ⟨-, hsame⟩
            have hmessage : first.message = fault.message := by
              simpa [String.ext_iff] using hsame
            rw [← Settings.Fault.message_injective hmessage]
            exact ⟨choices, rfl, hcomplaint⟩
          · rintro ⟨other, hother, hasked⟩
            obtain rfl := Except.ok.inj hother
            rw [hcomplaint, Option.some.injEq, Prod.mk.injEq] at hasked
            exact ⟨rfl, by rw [hasked.2]⟩
      | none =>
          obtain ⟨last, -, -, rfl⟩ := run_of_admitted hread hfault (hfits choices hread) hended
          have hnone := choices.fault?_settings_eq_none_iff.mp hfault
          refine ⟨⟨fun hcode => (by cases hcode), ?_⟩, fun fault words _ =>
            ⟨fun hcode => (by cases hcode.1), ?_⟩⟩
          · rintro ⟨other, fault, hother, hasked⟩
            obtain rfl := Except.ok.inj hother
            rw [hnone fault] at hasked
            cases hasked
          · rintro ⟨other, hother, hasked⟩
            obtain rfl := Except.ok.inj hother
            rw [CommandLine.Choices.complaint?_eq, hfault] at hasked
            cases hasked

/-- What the exit code tells.

With arguments that cannot be read, or that ask for help, for the version or for settings that
cannot be used, the program reports the same in all surroundings: nothing is run and nothing is
logged, whatever the level; in the last case it names the first of the faults, and this is the
only case that it exits with code one.  Otherwise it exits with code zero if it ends, however
its ticks came out.  However its ticks and the user took turns, its log then closes with the
totals of the run, as events and in words, and tells of the interrupt that stopped it. -/
theorem exit_code_tells_how_far_program_got (arguments : List Bytes) :
    (∀ fault, CommandLine.read arguments = .error (.fault fault) →
      ∀ labels surroundings rounds, run labels surroundings rounds arguments =
        some ⟨2, "", "error: " ++ fault.message ++ "\n", none⟩) ∧
    (∀ flag, CommandLine.read arguments = .error (.flag flag) →
      ∀ labels surroundings rounds, run labels surroundings rounds arguments =
        some ⟨0, flag.text, "", none⟩) ∧
    (∀ choices fault words, CommandLine.read arguments = .ok choices →
      choices.complaint? = some (fault, words) →
      ∀ labels surroundings rounds, run labels surroundings rounds arguments =
        some ⟨1, "", "Error: " ++ words ++ "\n", none⟩) ∧
    (∀ choices, CommandLine.read arguments = .ok choices →
      (∀ fault, choices.askFor fault = false) →
      choices.settings.workers ≤ Schedule.maxPermits →
      ∀ labels surroundings,
        (∀ rounds report, run labels surroundings rounds arguments = some report →
          ∃ last : Simulation.DeliveryRun,
            Simulation.simulate (listening surroundings) rounds choices.settings =
              .finished last ∧
            CanEndWith surroundings choices.settings last ∧
            report = ⟨0, Record.text choices.level
              ((events choices.settings (.finished last)).map (Event.record labels)), "",
              some last⟩) ∧
        ∀ last, CanEndWith surroundings choices.settings last →
          (reportOf labels choices.level choices.settings (.finished last)).map
              Report.exitCode = some 0 ∧
          ClosesWith last.summary (events choices.settings (.finished last)) ∧
          ClosesInWords last.summary
            ((events choices.settings (.finished last)).map (Event.record labels)) ∧
          TellsInterrupt (choices.settings.schedule surroundings.timer) last
            (events choices.settings (.finished last))) ∧
    ((∀ choices, CommandLine.read arguments = .ok choices →
        choices.settings.workers ≤ Schedule.maxPermits) →
      ∀ labels surroundings rounds report,
        run labels surroundings rounds arguments = some report →
        (report.exitCode = 1 ↔ ∃ choices fault,
          CommandLine.read arguments = .ok choices ∧ choices.askFor fault = true) ∧
        ∀ fault words, (fault, words) ∈ Settings.Fault.wordings →
          (report.exitCode = 1 ∧ report.complaint = "Error: " ++ words ++ "\n" ↔
            ∃ choices, CommandLine.read arguments = .ok choices ∧
              choices.complaint? = some (fault, words))) := by
  refine ⟨fun fault hread labels surroundings rounds => run_of_stop hread .., fun flag hread labels
    surroundings rounds => run_of_stop hread .., ?_, ?_, ?_⟩
  · intro choices fault words hread hcomplaint labels surroundings rounds
    rw [CommandLine.Choices.complaint?_eq, Option.map_eq_some_iff] at hcomplaint
    obtain ⟨first, hfault, hsame⟩ := hcomplaint
    obtain ⟨rfl, rfl⟩ := Prod.mk.inj hsame
    exact run_of_fault hread hfault labels surroundings rounds
  · intro choices hread hnone hfits labels surroundings
    have hfault := choices.fault?_settings_eq_none_iff.mpr hnone
    refine ⟨fun rounds report hended => run_of_admitted hread hfault hfits hended, ?_⟩
    rintro last ⟨hleads, hphase⟩
    obtain ⟨earlier, hlog, hquiet⟩ :=
      events_of_returned choices.settings ⟨_, _, _, hleads⟩ hphase
    refine ⟨rfl, ?_, ?_, tellsInterrupt_of_returned _ hleads hphase⟩
    · rw [hlog]
      exact closesWith_append hquiet
    · rw [hlog]
      exact closesInWords_append hquiet labels
  · intro hfits labels surroundings rounds report hended
    exact report_of_fault_iff hfits hended

/-! ## A program that reaches nobody -/

/-- Every attempt to connect is refused. -/
def desertedSurroundings : Surroundings :=
  ⟨.ideal, fun _ _ => .refusing (.os .refused), .seeded 0, false, none⟩

/-- Arguments that ask for two small batches. -/
def desertedWords : List Bytes :=
  ["--batch-size", "2", "--max-ticks", "2", "--seed", "7"].map CommandLine.asciiBytes

/-- What these arguments ask for. -/
def desertedChoices : CommandLine.Choices :=
  { CommandLine.Choices.empty with batchSize := some 2, maxTicks := some 2, seed := some 7 }

theorem read_desertedWords : CommandLine.read desertedWords = .ok desertedChoices := rfl

/-- Arguments that ask for no workers and for empty batches. -/
def idleWords : List Bytes :=
  ["--workers", "0", "--batch-size=0"].map CommandLine.asciiBytes

/-- The run that the small batches lead to. -/
def desertedRun : Simulation.DeliveryRun :=
  match Simulation.simulate (listening desertedSurroundings) 20 desertedChoices.settings with
  | .finished run => run
  | _ => Simulation.startRun (listening desertedSurroundings) desertedChoices.settings

theorem exit_codes_of_few_words :
    (run ⟨"", fun _ => ""⟩ desertedSurroundings 0
      [CommandLine.asciiBytes "--speed"]).map Report.exitCode = some 2 ∧
    (run ⟨"", fun _ => ""⟩ desertedSurroundings 0
      [CommandLine.asciiBytes "--help"]).map Report.exitCode = some 0 ∧
    run ⟨"", fun _ => ""⟩ desertedSurroundings 0 idleWords =
      some ⟨1, "", "Error: batch size must be > 0\n", none⟩ ∧
    ∃ report, run ⟨"", fun _ => ""⟩ desertedSurroundings 20 desertedWords = some report ∧
      report.exitCode = 0 ∧ report.run = some desertedRun ∧
      desertedRun.summary = ⟨2, 0, 2, 0, 0⟩ ∧
      .nothingDelivered ∈ events desertedChoices.settings (.finished desertedRun) ∧
      (events desertedChoices.settings (.finished desertedRun)).count .interrupted ≤ 1 ∧
      ¬ ∃ choices fault, CommandLine.read desertedWords = .ok choices ∧
        choices.askFor fault = true := by
  have hends : (run ⟨"", fun _ => ""⟩ desertedSurroundings 20 desertedWords).isSome := by
    decide +kernel
  have hsummary : desertedRun.summary = ⟨2, 0, 2, 0, 0⟩ := by decide +kernel
  obtain ⟨report, hreport⟩ := Option.isSome_iff_exists.mp hends
  have hspeed := (exit_code_tells_how_far_program_got [CommandLine.asciiBytes "--speed"]).1 _ rfl
    ⟨"", fun _ => ""⟩ desertedSurroundings 0
  have hhelp := (exit_code_tells_how_far_program_got [CommandLine.asciiBytes "--help"]).2.1 _ rfl
    ⟨"", fun _ => ""⟩ desertedSurroundings 0
  have hidle := (exit_code_tells_how_far_program_got idleWords).2.2.1 _ .emptyBatch
    "batch size must be > 0" rfl rfl ⟨"", fun _ => ""⟩ desertedSurroundings 0
  have hfits : desertedChoices.settings.workers ≤ Schedule.maxPermits := by decide
  have hnone : ∀ fault, desertedChoices.askFor fault = false := by
    intro fault
    cases fault <;> rfl
  obtain ⟨hran, hcan⟩ := (exit_code_tells_how_far_program_got desertedWords).2.2.2.1
    desertedChoices read_desertedWords hnone hfits ⟨"", fun _ => ""⟩ desertedSurroundings
  obtain ⟨last, hlast, hcanEnd, hlastReport⟩ := hran 20 report hreport
  obtain ⟨-, hcloses, -, htells⟩ := hcan last hcanEnd
  have hrun : desertedRun = last := by
    rw [desertedRun, hlast]
  have hcode := ((exit_code_tells_how_far_program_got desertedWords).2.2.2.2
    (fun choices hread => by
      obtain rfl := Except.ok.inj (read_desertedWords.symm.trans hread)
      exact hfits)
    _ _ _ report hreport).1
  rw [← hrun] at hcloses htells hlastReport
  refine ⟨by rw [hspeed]; rfl, by rw [hhelp]; rfl, hidle, report, hreport, ?_, ?_, hsummary,
    ?_, htells.once, ?_⟩
  · rw [hlastReport]
  · rw [hlastReport]
  · rw [hcloses.warned, hsummary]
    decide
  · rw [← hcode, hlastReport]
    decide

/-- The same run with an interrupt ten nanoseconds after its start. -/
def interruptedRun : Simulation.DeliveryRun :=
  match Simulation.simulate (listening { desertedSurroundings with cancelAt := some 10 }) 20
      desertedChoices.settings with
  | .finished run => run
  | _ => Simulation.startRun (listening desertedSurroundings) desertedChoices.settings

example :
    events desertedChoices.settings (.finished interruptedRun) =
      [.sendingBatches 2 "localhost:8080" (.ofMicros 50),
        .schedulerStarted (.ofMicros 50) 10 (some 2),
        .attemptFailed ⟨0, .os .refused⟩, .interrupted, .waiting 1,
        .schedulerStopped ⟨1, 0, 1, 0, 0⟩, .runDone ⟨1, 0, 1, 0, 0⟩, .nothingDelivered] := by
  decide +kernel

end Program

end OrderFlow
