import OrderFlow.Generator.Stream
import OrderFlow.Proofs.Delivery.Connection
import OrderFlow.Proofs.Scheduler.Logged
import OrderFlow.Proofs.Scheduler.TickHistory
import OrderFlow.Simulation

/-!
# The connections of a simulation

The ticks of a simulation never panic by themselves.  To see that not even a panic
leaks a connection, `Simulation.fallibleWork` lets any poll be cut short by one,
after any number of its acts; the stack is then unwound, which releases a connection
that is held.  Every tick has released its connection where it gives its permit back,
so there are never more open connections than workers, and none after a run.
-/

namespace OrderFlow

namespace Delivery

/-- What unwinding the stack does in the middle of a poll: a connection held after the acts done
in the poll is released. -/
def unwind (delivery : Delivery) (acts : List Act) : List Act :=
  if delivery.link.after? acts = some .held then [.released] else []

theorem settled_unwind {acts done : List Act} {delivery : Delivery}
    (h : Connected acts delivery) (hdone : (delivery.link.after? done).isSome) :
    Act.Settled (acts ++ (done ++ delivery.unwind done)) := by
  obtain ⟨link, hlink⟩ := Option.isSome_iff_exists.mp hdone
  have hafter : Act.link? (acts ++ done) = some link := by
    rw [Act.link?, Link.after?_append_of_eq h, hlink]
  rw [← List.append_assoc, unwind, hlink]
  cases link with
  | unopened => exact Or.inl (by simpa using hafter)
  | held =>
      apply Or.inr
      rw [Act.link?, Link.after?_append_of_eq hafter]
      rfl
  | released => exact Or.inr (by simpa using hafter)

end Delivery

namespace Simulation

/-- Which polls panic: after how many of their acts, and with which message. -/
abbrev Mishaps :=
  (tick now : Nat) → Generator → Delivery → Option (Nat × String)

/-- The work of a simulation's ticks, with some polls cut short by a panic. -/
def fallibleWork (timer : Timer) (plan : Plan) (peers : Nat → Peer) (mishaps : Mishaps) :
    Work Generator Delivery Act :=
  { work timer plan peers with
    poll := fun tick now generator delivery =>
      let reply := (work timer plan peers).poll tick now generator delivery
      match mishaps tick now generator delivery with
      | none => reply
      | some (count, message) =>
          let acts := reply.1.acts.take count
          (⟨generator.after (Act.drawn acts).length, acts ++ delivery.unwind acts, false⟩,
            .panicked message) }

variable {timer : Timer} {plan : Plan} {peers : Nat → Peer} {mishaps : Mishaps}
  {schedule : Schedule} {run : DeliveryRun}

theorem fallibleWork_none :
    fallibleWork timer plan peers (fun _ _ _ _ => none) = work timer plan peers := rfl

/-- A run in which no poll panics is one in which some might. -/
theorem reachable_fallibleWork (h : run.Reachable schedule (work timer plan peers)) :
    run.Reachable schedule (fallibleWork timer plan peers fun _ _ _ _ => none) := by
  rwa [fallibleWork_none]

/-- What a poll of a tick comes to is what the poll of its delivery keeps. -/
theorem poll_work_keeps {alive : List Act → Delivery → Prop}
    {done : List Act → Batch.Result → Prop} {tick now : Nat} {generator : Generator}
    {delivery : Delivery} {acts : List Act} {effect : Effect Generator Act}
    {status : Status Delivery}
    (hpolled : (work timer plan peers).poll tick now generator delivery = (effect, status))
    (hkeeps : (delivery.poll timer now generator).Keeps alive done acts) :
    (∃ next, status = .pending next ∧ alive (acts ++ effect.acts) next) ∨
      ∃ result turnActs, status = .returned (Delivery.conclude result).2 ∧
        effect.acts = turnActs ++ (Delivery.conclude result).1 ∧
        done (acts ++ turnActs) result := by
  simp only [work] at hpolled
  unfold Turn.Keeps at hkeeps
  rcases hprogress : (delivery.poll timer now generator).progress with next | next | result
  · rw [hprogress] at hpolled hkeeps
    cases hpolled
    exact Or.inl ⟨next, rfl, by simpa [Delivery.lastWord] using hkeeps⟩
  · rw [hprogress] at hpolled hkeeps
    cases hpolled
    exact Or.inl ⟨next, rfl, by simpa [Delivery.lastWord] using hkeeps⟩
  · rw [hprogress] at hpolled hkeeps
    cases hpolled
    exact Or.inr ⟨result, _, rfl, rfl, hkeeps⟩

theorem settled_conclude {acts : List Act} (h : Act.Settled acts) (result : Batch.Result) :
    Act.Settled (acts ++ (Delivery.conclude result).1) := by
  cases result with
  | ok sent => simpa [Delivery.conclude] using h
  | error failure => exact h.logged _

/-- A poll leaves the connection where the delivery stands, or settled at the end. -/
theorem poll_work_connected {tick now : Nat} {generator : Generator} {delivery : Delivery}
    {acts : List Act} {effect : Effect Generator Act} {status : Status Delivery}
    (h : Delivery.Connected acts delivery)
    (hpolled :
      (work timer plan peers).poll tick now generator delivery = (effect, status)) :
    (∃ next, status = .pending next ∧ Delivery.Connected (acts ++ effect.acts) next) ∨
      Act.Settled (acts ++ effect.acts) ∧ ∃ outcome, status = .returned outcome := by
  rcases poll_work_keeps hpolled
      (Delivery.poll_keeps_connection timer now acts delivery generator h) with
    hpending | ⟨result, turnActs, hstatus, hacts, hdone⟩
  · exact Or.inl hpending
  · refine Or.inr ⟨?_, _, hstatus⟩
    rw [hacts, ← List.append_assoc]
    exact settled_conclude hdone result

theorem poll_work_in_order {tick now : Nat} {generator : Generator} {delivery : Delivery}
    {acts : List Act} (h : Delivery.Connected acts delivery) :
    (delivery.link.after?
      ((work timer plan peers).poll tick now generator delivery).1.acts).isSome := by
  rcases hpolled : (work timer plan peers).poll tick now generator delivery with
    ⟨effect, status⟩
  rw [← Link.after?_append_of_eq h]
  rcases poll_work_connected h hpolled with ⟨next, _, hnext⟩ | ⟨hsettled | hsettled, _⟩
  · exact Option.isSome_of_eq_some hnext
  · exact Option.isSome_of_eq_some hsettled
  · exact Option.isSome_of_eq_some hsettled

/-- Ticks in flight have their connection where their delivery stands, and ticks that ended have
no connection any more, also if they panicked. -/
theorem fallibleWork_keeps_connection :
    (fallibleWork timer plan peers mishaps).Keeps
      (fun _ acts delivery => Delivery.Connected acts delivery)
      (fun _ acts _ => Act.Settled acts) where
  call := by
    intro tick now generator effect delivery hcalled
    cases hcalled
    rfl
  pending := by
    intro tick now generator effect delivery next acts h hpolled
    simp only [fallibleWork] at hpolled
    split at hpolled
    · rcases poll_work_connected h hpolled with ⟨next', hnext, hconnected⟩ | ⟨_, _, hreturned⟩
      · cases hnext
        exact hconnected
      · cases hreturned
    · cases hpolled
  ending := by
    intro tick now generator effect delivery status how acts h hpolled hending
    simp only [fallibleWork] at hpolled
    split at hpolled
    · rcases poll_work_connected h hpolled with ⟨next, rfl, _⟩ | ⟨hsettled, _⟩
      · cases hending
      · exact hsettled
    · cases hpolled
      exact Delivery.settled_unwind h (Link.after?_take_isSome (poll_work_in_order h) _)
  drop := by
    intro tick delivery acts h
    exact Delivery.settled_drop h

/-! ## Open connections -/

theorem actsOf_eq (run : DeliveryRun) (tick : Nat) :
    actsOf run tick = Entry.actsIn tick run.entries := by
  apply congrArg (List.filterMap · run.entries)
  funext entry
  cases entry <;> rfl

/-- The tick that an entry says has its connection established. -/
def connected? : Entry Act → Option Nat
  | .did tick .established => some tick
  | _ => none

theorem count_connected (tick : Nat) (entries : List (Entry Act)) :
    (Entry.seen connected? entries).count tick =
      (Entry.actsIn tick entries).count .established := by
  induction entries with
  | nil => rfl
  | cons entry rest ih =>
      have hentry : (connected? entry).toList.count tick =
          (entry.actOf? tick).toList.count .established := by
        cases entry with
        | did n act =>
            by_cases hn : n = tick
            · cases act <;> simp [connected?, hn]
            · cases act <;> simp [connected?, hn]
        | _ => rfl
      simp only [Entry.seen_cons, List.count_append, hentry, ih]

theorem count_connectedTicks (run : DeliveryRun) (tick : Nat) :
    (connectedTicks run).count tick = (actsOf run tick).count .established := by
  rw [actsOf_eq, ← count_connected]
  apply congrArg (fun f => (run.entries.filterMap f).count tick)
  funext entry
  cases entry with
  | did n act => cases act <;> rfl
  | _ => rfl

/-- The ticks whose connection is open: it was established and is held. -/
def openConnections (run : DeliveryRun) : List Nat :=
  (connectedTicks run).filter fun tick => Act.link? (actsOf run tick) = some .held

/-- What every tick of a run has done about its connection. -/
abbrev ConnectionsTraced (run : DeliveryRun) : Prop :=
  Run.Traced (fun _ acts delivery => Delivery.Connected acts delivery)
    (fun _ acts _ => Act.Settled acts) run

section Open

variable (h : run.Reachable schedule (fallibleWork timer plan peers mishaps))

include h

theorem not_aborted_of_fallible : run.phase.isAborted = false :=
  h.not_aborted fun tick _ generator =>
    ⟨⟨generator, [], false⟩, .start plan (peers tick), rfl⟩

theorem connections_traced : ConnectionsTraced run :=
  h.traced fallibleWork_keeps_connection (not_aborted_of_fallible h)

/-- A tick is in flight, or it is settled. -/
theorem running_or_settled (tick : Nat) :
    (∃ delivery, (tick, delivery) ∈ run.running ∧
      Delivery.Connected (actsOf run tick) delivery) ∨ Act.Settled (actsOf run tick) := by
  have haborted := not_aborted_of_fallible h
  rw [actsOf_eq]
  rcases (connections_traced h).places h haborted tick with
    hrunning | ⟨how, _, hsettled⟩ | hnothing
  · exact Or.inl hrunning
  · exact Or.inr hsettled
  · rw [hnothing]
    exact Or.inr (Or.inl rfl)

theorem link?_isSome (tick : Nat) : (Act.link? (actsOf run tick)).isSome := by
  rcases running_or_settled h tick with ⟨delivery, _, hconnected⟩ | hsettled | hsettled
  · exact Option.isSome_of_eq_some hconnected
  · exact Option.isSome_of_eq_some hsettled
  · exact Option.isSome_of_eq_some hsettled

/-- No tick has more than one connection. -/
theorem nodup_connectedTicks : (connectedTicks run).Nodup := by
  apply List.nodup_iff_count_le_one.mpr
  intro tick
  obtain ⟨link, hlink⟩ := Option.isSome_iff_exists.mp (link?_isSome h tick)
  have hopenings := Link.openings_after? hlink
  rw [count_connectedTicks]
  cases link <;> simp only [Link.openings] at hopenings <;> omega

theorem openConnections_subset : openConnections run ⊆ run.running.map Prod.fst := by
  intro tick hopen
  have hheld : Act.link? (actsOf run tick) = some .held := by
    simpa using (List.mem_filter.mp hopen).2
  rcases running_or_settled h tick with ⟨delivery, hmem, _⟩ | hsettled | hsettled
  · exact List.mem_map.mpr ⟨_, hmem, rfl⟩
  · rw [hsettled] at hheld
    cases hheld
  · rw [hsettled] at hheld
    cases hheld

theorem length_openConnections_le : (openConnections run).length ≤ schedule.workers := by
  have hnodup : (openConnections run).Nodup := (nodup_connectedTicks h).filter _
  have hsubperm := List.subperm_of_subset hnodup (openConnections_subset h)
  have hlength := hsubperm.length_le
  rw [List.length_map] at hlength
  exact Nat.le_trans hlength h.length_running_le

theorem mem_connectedTicks_iff (tick : Nat) :
    tick ∈ connectedTicks run ↔ Act.link? (actsOf run tick) ≠ some .unopened := by
  obtain ⟨link, hlink⟩ := Option.isSome_iff_exists.mp (link?_isSome h tick)
  have hcount : (actsOf run tick).count .established = link.openings := by
    rw [← Link.openings_after? hlink]
    exact (Nat.zero_add _).symm
  rw [← List.count_pos_iff, count_connectedTicks, hcount, hlink]
  cases link <;> simp [Link.openings]

/-- Once nothing is in flight every connection that was established has been released. -/
theorem released_of_not_running (hrunning : run.running = []) :
    ∀ tick ∈ connectedTicks run, Act.link? (actsOf run tick) = some .released := by
  intro tick hconnected
  rcases running_or_settled h tick with ⟨delivery, hmem, _⟩ | hunopened | hreleased
  · rw [hrunning] at hmem
    cases hmem
  · exact absurd hunopened ((mem_connectedTicks_iff h tick).mp hconnected)
  · exact hreleased

end Open

/-- The pool of a scheduler, and the connections it bounds.

Of any work: every permit is free, held by the ticker or with a tick in flight, and is given
back where its tick ends; a run that is over leaves nothing in flight and a full pool, with
which the next run starts; and what a run that returned logged last are its totals, after which
nothing is done any more.

Of the ticks of a simulation, any of whose polls may be cut short by a panic: every tick's acts
are in order, a tick with an open connection is in flight, and wherever a tick gives its permit
back its connection is not open and it does nothing later.  So there are never more open
connections than workers, and after a run every connection established has been released. -/
theorem pool_conserved_and_connections_released :
    (∀ {σ τ ε : Type} {schedule : Schedule} {work : Work σ τ ε} {run : Run σ τ ε},
      run.Reachable schedule work →
        run.free + run.phase.permitsHeld + run.running.length = schedule.workers ∧
        run.running.length ≤ schedule.workers ∧
        (run.phase.isAborted = false →
          run.free + run.phase.permitsHeld + (Entry.calledIn run.entries).length =
            schedule.workers + (Entry.endedIn run.entries).length) ∧
        (run.phase.isOver = true →
          run.running = [] ∧ run.free = schedule.workers ∧
          run.startAgain schedule =
            Run.start schedule run.now run.cancelled run.shared) ∧
        (run.phase = .returned →
          run.finished = [] ∧
          (∃ earlier : List (Entry ε), run.entries =
            earlier ++ [.logged (.schedulerStopped run.summary)]) ∧
          ∀ last, run.Leads schedule work last →
            last.entries = run.entries ∧ last.running = [])) ∧
    (∀ timer plan peers,
      fallibleWork timer plan peers (fun _ _ _ _ => none) = work timer plan peers) ∧
    (∀ {timer : Timer} {plan : Plan} {peers : Nat → Peer} {mishaps : Mishaps}
      {schedule : Schedule} {run : DeliveryRun},
      run.Reachable schedule (fallibleWork timer plan peers mishaps) →
        (∀ tick, (Act.link? (actsOf run tick)).isSome) ∧
        openConnections run ⊆ run.running.map Prod.fst ∧
        (openConnections run).length ≤ schedule.workers ∧
        (∀ before after tick now how,
          run.entries = before ++ .ended tick now how :: after →
            Act.Settled (Entry.actsIn tick before) ∧ Entry.actsIn tick after = []) ∧
        (run.phase = .returned →
          openConnections run = [] ∧
          ∀ tick ∈ connectedTicks run, Act.link? (actsOf run tick) = some .released)) := by
  refine ⟨?_, fun _ _ _ => fallibleWork_none, ?_⟩
  · intro σ τ ε schedule work run h
    refine ⟨h.pooled, h.length_running_le, h.free_add_called, ?_, ?_⟩
    · intro hover
      exact ⟨h.running_of_isOver hover, h.free_of_isOver hover, h.startAgain_eq hover⟩
    · intro hphase
      obtain ⟨hfinished, hrunning⟩ := h.idle_of_returned hphase
      refine ⟨hfinished, h.last_entry_of_returned hphase, ?_⟩
      intro last hleads
      rw [h.after_return hphase hleads]
      exact ⟨rfl, hrunning⟩
  · intro timer plan peers mishaps schedule run h
    refine ⟨link?_isSome h, openConnections_subset h, length_openConnections_le h, ?_, ?_⟩
    · intro before after tick now how hsplit
      exact (connections_traced h).at_end hsplit
    · intro hphase
      have hrunning := (h.idle_of_returned hphase).2
      refine ⟨?_, released_of_not_running h hrunning⟩
      have hsubset := openConnections_subset h
      rw [hrunning] at hsubset
      exact List.subset_nil.mp hsubset

/-! ## A run with a panic -/

/-- One worker and two ticks. -/
def narrowSchedule : Schedule := ⟨⟨10⟩, 1, some 2, .ideal⟩

/-- The second tick panics after its first four acts: its connection is established and an
order is drawn. -/
def secondPanics : Mishaps := fun tick _ _ _ =>
  if tick = 2 then some (4, "cut short") else none

/-- Batches of one order for a peer that takes everything. -/
def narrowWork : Work Generator Delivery Act :=
  fallibleWork .ideal ⟨"localhost:7000", 1, none⟩ (fun _ => .engine) secondPanics

/-- A generator with words enough for two orders. -/
def shortGenerator : Generator :=
  ⟨⟨Vector.replicate 8 0, 0, [5, 6, 7, 8, 9, 10, 11, 12, 13, 14, 15, 16]⟩⟩

/-- The first tick is delivered, the second panics, and the run returns. -/
def narrowActions : List Action :=
  Run.firing 0 ++ [.poll 1, .collect 0, .ticker] ++ Run.firing 10 ++
    [.poll 2, .collect 0, .ticker, .ticker, .ticker]

/-- The run that these actions lead to. -/
def narrowRun : DeliveryRun :=
  ((Run.start narrowSchedule 0 false shortGenerator).steps? narrowSchedule narrowWork
    narrowActions).getD (.start narrowSchedule 0 false shortGenerator)

theorem reachable_narrowRun : narrowRun.Reachable narrowSchedule narrowWork :=
  ⟨0, false, shortGenerator, narrowActions, rfl⟩

theorem pool_and_connections_of_narrowRun :
    (Run.mixedRun.Reachable Run.mixedSchedule Run.mixedWork ∧
      Run.mixedRun.phase = .returned ∧ Run.mixedRun.free = 2) ∧
    narrowRun.Reachable narrowSchedule narrowWork ∧ narrowRun.phase = .returned ∧
      connectedTicks narrowRun = [1, 2] ∧ openConnections narrowRun = [] :=
  ⟨⟨Run.reachable_mixedRun, rfl,
    ((pool_conserved_and_connections_released.1 Run.reachable_mixedRun).2.2.2.1 rfl).2.1⟩,
    reachable_narrowRun, rfl, rfl,
    ((pool_conserved_and_connections_released.2.2 reachable_narrowRun).2.2.2.2 rfl).1⟩

end Simulation

end OrderFlow
