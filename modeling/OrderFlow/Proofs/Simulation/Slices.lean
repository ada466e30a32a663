import OrderFlow.Proofs.Simulation.Isolation

/-!
# Ticks that follow each other

With one worker a tick is called only when no other is in flight, so the ticks of a simulation
draw one after the other.  Each tick of such a run takes the next slice of the order stream, as
deliveries do that are made one after the other.
-/

namespace OrderFlow

/-! ## Keys in order -/

section Keyed

variable {β : Type}

/-- How many pairs have a lesser key. -/
def countBelow (pairs : List (Nat × β)) (key : Nat) : Nat :=
  pairs.countP fun pair => pair.1 < key

theorem length_share (pairs : List (Nat × β)) (key : Nat) :
    (share pairs key).length = pairs.countP fun pair => pair.1 = key := by
  rw [share, List.length_map, List.countP_eq_length_filter]

theorem countBelow_succ (pairs : List (Nat × β)) (key : Nat) :
    countBelow pairs (key + 1) = countBelow pairs key + (share pairs key).length := by
  rw [length_share]
  induction pairs with
  | nil => rfl
  | cons pair pairs ih =>
      have hpair : (if pair.1 < key + 1 then 1 else 0) =
          (if pair.1 < key then 1 else 0) + if pair.1 = key then 1 else 0 := by
        split_ifs <;> omega
      simp only [countBelow, List.countP_cons, decide_eq_true_eq] at ih ⊢
      rw [ih, hpair]
      omega

/-- Where keys come in order, the places of a key follow those of the lesser keys. -/
theorem placesOf_of_sorted {pairs : List (Nat × β)}
    (h : (pairs.map Prod.fst).Pairwise (· ≤ ·)) (key : Nat) :
    placesOf pairs key = List.range' (countBelow pairs key) (share pairs key).length := by
  induction pairs using List.reverseRecOn with
  | nil => rfl
  | append_singleton pairs pair ih =>
      rw [List.map_append, List.pairwise_append] at h
      obtain ⟨hsorted, -, hlast⟩ := h
      have hle : ∀ other ∈ pairs, other.1 ≤ pair.1 := fun other hother =>
        hlast other.1 (List.mem_map.mpr ⟨other, hother, rfl⟩) pair.1 (by simp)
      rw [placesOf_concat, share_concat, ih hsorted]
      by_cases hkey : pair.1 = key
      · subst hkey
        -- All pairs before the last one count, as lesser keys or in the share of its key.
        have hall : countBelow pairs (pair.1 + 1) = pairs.length :=
          List.countP_eq_length.mpr fun other hother => by
            simpa using Nat.lt_succ_of_le (hle other hother)
        rw [countBelow_succ] at hall
        simp [countBelow, List.range'_1_concat] at hall ⊢
        exact hall.symm
      · rw [if_neg hkey, if_neg hkey, List.append_nil, List.append_nil]
        by_cases hless : pair.1 < key
        · have hnone : (share pairs key).length = 0 := by
            rw [length_share, List.countP_eq_zero]
            intro other hother
            have hbelow := Nat.lt_of_le_of_lt (hle other hother) hless
            simpa using Nat.ne_of_lt hbelow
          rw [hnone, List.range'_zero, List.range'_zero]
        · have hsame : countBelow (pairs ++ [pair]) key = countBelow pairs key := by
            simp [countBelow, hless]
          rw [hsame]

end Keyed

/-- With one worker no tick but the last one called is in flight. -/
theorem Run.Reachable.running_of_one_worker {σ τ ε : Type} {schedule : Schedule}
    {work : Work σ τ ε} {run : Run σ τ ε} (h : run.Reachable schedule work)
    (hworkers : schedule.workers = 1) :
    ∀ tick state, (tick, state) ∈ run.running → tick = run.summary.ticks := by
  refine h.induction (fun _ _ _ tick state hmem => by cases hmem) ?_
  intro run action next hreachable htransition ih tick state hmem
  have hfiltered : ∀ number, (tick, state) ∈ run.running.filter (fun entry => entry.1 != number) →
      tick = run.summary.ticks :=
    fun number hfound => ih tick state (List.mem_filter.mp hfound).1
  cases htransition with
  | call phase called =>
      -- The permit of the call is the only one, so nothing else is in flight.
      have hpooled := hreachable.pooled
      rw [phase, hworkers, Phase.permitsHeld] at hpooled
      have hrunning : run.running = [] := List.length_eq_zero_iff.mp (by omega)
      simp only [hrunning, List.nil_append, List.mem_singleton] at hmem
      exact (Prod.mk.inj hmem).1
  | callPanics phase called => cases hmem
  | collect phase found => rw [ih tick state hmem, Summary.ticks_record]
  | finish running polled ending => exact hfiltered _ hmem
  | drop running polled fired => exact hfiltered _ hmem
  | @keep number state' later effect running polled unfired =>
      have hnumber : tick ∈ run.running.map Prod.fst := by
        rw [← Run.map_fst_keep run.running number later]
        exact List.mem_map.mpr ⟨_, hmem, rfl⟩
      obtain ⟨⟨_, other⟩, hother, rfl⟩ := List.mem_map.mp hnumber
      exact ih _ other hother
  | _ => exact ih tick state hmem

namespace Simulation

variable {timer : Timer} {plan : Plan} {peers : Nat → Peer} {schedule : Schedule}
  {run : DeliveryRun}

/-! ## Draws with one worker -/

/-- What is drawn in a step is drawn by a tick in flight. -/
theorem draws_of_transition {action : Action} {next : DeliveryRun}
    (h : Run.Transition schedule (work timer plan peers) run action next) :
    draws next = draws run ∨ ∃ tick state, ∃ orders : List Order, (tick, state) ∈ run.running ∧
      draws next = draws run ++ orders.map fun order => (tick, order) := by
  have hpassed : ∀ {notes}, next.entries = run.entries ++ notes →
      (∀ tick, Entry.actsIn tick notes = []) → draws next = draws run := by
    intro notes hentries hnotes
    simp only [draws, hentries, Entry.seen_append, drawsIn_notes_eq_nil hnotes, List.append_nil]
  have hpolled : ∀ {tick state notes} {acts : List Act}, run.running.lookup tick = some state →
      next.entries = run.entries ++ (acts.map (Entry.did tick) ++ notes) → drawsIn notes = [] →
      ∃ tick state, ∃ orders : List Order, (tick, state) ∈ run.running ∧
        draws next = draws run ++ orders.map fun order => (tick, order) := by
    intro tick state notes acts hlookup hentries hnotes
    refine ⟨tick, state, Act.drawn acts, Run.mem_of_lookup hlookup, ?_⟩
    simp only [draws, hentries, Entry.seen_append, drawsIn_did, hnotes, List.append_nil]
  cases h with
  | advance move => exact Or.inl (hpassed (Run.entries_mk_journalWith ..) (by simp))
  | takePermit phase uncancelled free => exact Or.inl rfl
  | call phase called =>
      cases called
      exact Or.inl (hpassed (Run.entries_mk_journalWith ..) (by simp))
  | callPanics phase called => cases called
  | collect phase found => exact Or.inl (hpassed (Run.entries_mk_journalWith ..) (by simp))
  | finish running polled ending =>
      exact Or.inr (hpolled running (Run.entries_mk_journalWith ..) rfl)
  | drop running polled fired =>
      exact Or.inr (hpolled running (Run.entries_mk_journalWith ..) rfl)
  | @keep tick state later effect running polled unfired =>
      refine Or.inr (@hpolled tick state [] effect.acts running ?_ rfl)
      rw [List.append_nil]
      exact Run.entries_mk_journalWith ..
  | cancel => exact Or.inl (hpassed (Run.entries_mk_journalWith ..) (by simp))
  | wait later => exact Or.inl rfl

theorem mem_range_of_mem_draws (h : run.Reachable schedule (work timer plan peers))
    {pair : Nat × Order} (hpair : pair ∈ draws run) : 1 ≤ pair.1 ∧ pair.1 ≤ run.summary.ticks := by
  have hcalled := called_of_connected h (connected_of_mem_draws h hpair)
  rw [h.called, List.mem_range'_1] at hcalled
  omega

/-- With one worker ticks draw in the order of their calls. -/
theorem sorted_draws (h : run.Reachable schedule (work timer plan peers))
    (hworkers : schedule.workers = 1) : ((draws run).map Prod.fst).Pairwise (· ≤ ·) := by
  refine h.induction (fun _ _ _ => List.Pairwise.nil) ?_
  intro run action next hreachable htransition ih
  rcases draws_of_transition htransition with hsame | ⟨tick, state, orders, hrunning, hnext⟩
  · rw [hsame]
    exact ih
  · obtain rfl := hreachable.running_of_one_worker hworkers tick state hrunning
    rw [hnext, List.map_append, List.map_map]
    refine List.pairwise_append.mpr ⟨ih, ?_, ?_⟩
    · apply List.pairwise_of_forall_mem_list
      intro first hfirst second hsecond
      obtain ⟨_, _, rfl⟩ := List.mem_map.mp hfirst
      obtain ⟨_, _, rfl⟩ := List.mem_map.mp hsecond
      exact Nat.le_refl _
    · intro earlier hearlier later hlater
      obtain ⟨pair, hpair, rfl⟩ := List.mem_map.mp hearlier
      obtain ⟨_, _, rfl⟩ := List.mem_map.mp hlater
      exact (mem_range_of_mem_draws hreachable hpair).2

/-! ## Slices with one worker -/

/-- Where the slice of a tick begins: behind the draws of the ticks before it. -/
def firstPosition (run : DeliveryRun) (tick : Nat) : Nat :=
  countBelow (draws run) tick

/-- The first tick takes the stream from its beginning. -/
theorem firstPosition_one (h : run.Reachable schedule (work timer plan peers)) :
    firstPosition run 1 = 0 := by
  rw [firstPosition, countBelow, List.countP_eq_zero]
  intro pair hpair
  have hfirst := (mem_range_of_mem_draws h hpair).1
  simpa using Nat.ne_of_gt hfirst

section OneWorker

variable {surroundings : Surroundings} {settings : Settings}

/-- The order at a position of the stream that a simulation draws from. -/
theorem draws_eq_of_startRun
    (h : (startRun surroundings settings).Leads (settings.schedule surroundings.timer)
      (workOf surroundings settings) run) :
    (draws run).map Prod.snd = (List.range (draws run).length).map
      (settings.generator surroundings.unseeded).orderAt := by
  have hyields : (settings.generator surroundings.unseeded).Yields ((draws run).map Prod.snd)
      run.shared := draws_of_leads rfl h
  simpa [Generator.firstOrders] using hyields.inOrder

variable (hworkers : settings.workers = 1)
  (h : (startRun surroundings settings).Leads (settings.schedule surroundings.timer)
    (workOf surroundings settings) run)

include hworkers h

/-- With one worker a tick draws consecutive orders, from behind those of the ticks before it. -/
theorem drawn_of_one_worker (tick : Nat) :
    Act.drawn (actsOf run tick) =
      (List.range' (firstPosition run tick) (Act.drawn (actsOf run tick)).length).map
        (settings.generator surroundings.unseeded).orderAt := by
  have hsorted := sorted_draws (reachable_of_startRun h) hworkers
  have hplaces := placesOf_of_sorted hsorted tick
  rw [← share_draws, firstPosition, ← hplaces]
  exact share_eq_map_placesOf tick (draws_eq_of_startRun h)

variable (hcancelled : run.cancelled = false)

include hcancelled

/-- With one worker every tick that ended took the next slice of the stream. -/
theorem slice_of_ended {tick : Nat} {how : Ending}
    (hended : (tick, how) ∈ Entry.endedIn run.entries) :
    ∃ outcome, how = .returned outcome ∧
      Delivery.Slice (settings.generator surroundings.unseeded) surroundings.timer settings.plan
        (surroundings.network settings.target tick) (firstPosition run tick)
        (actsOf run tick) outcome ∧
      firstPosition run (tick + 1) = firstPosition run tick +
        Act.ordersUsed settings.batchSize (actsOf run tick) outcome := by
  obtain ⟨outcome, rfl, hconcluded⟩ :=
    concluded_of_ended (reachable_of_startRun h) hcancelled hended
  refine ⟨outcome, rfl, hconcluded.slice (drawn_of_one_worker hworkers h tick), ?_⟩
  rw [firstPosition, countBelow_succ, share_draws, hconcluded.spent.length_drawn]
  rfl

/-! ### Peers that take so many lines -/

variable {lines : Nat}
  (hpeers : ∀ tick, (surroundings.network settings.target tick).TakesLines lines)
  (hphase : run.phase = .returned)

include hpeers hphase

/-- The slices of ticks whose peers take so many lines are equally long. -/
theorem firstPosition_of_takesLines {tick : Nat} (htick : tick ≤ run.summary.ticks) :
    firstPosition run (tick + 1) = tick * Delivery.pitch settings.batchSize lines := by
  have hreachable := reachable_of_startRun h
  induction tick with
  | zero => rw [Nat.zero_mul, firstPosition_one hreachable]
  | succ tick ih =>
      obtain ⟨how, hended⟩ := hreachable.exists_ended hphase
        ⟨Nat.succ_le_succ (Nat.zero_le tick), htick⟩
      obtain ⟨outcome, -, hslice, hnext⟩ := slice_of_ended hworkers h hcancelled hended
      have hused : Act.ordersUsed settings.batchSize (actsOf run (tick + 1)) outcome =
          Delivery.pitch settings.batchSize lines :=
        (hslice.of_takesLines (hpeers (tick + 1))).2.1
      rw [hnext, hused, ih (Nat.le_of_succ_le htick), Nat.succ_mul]

/-- A tick whose peer takes so many lines is sent them from the beginning of its slice. -/
theorem received_of_takesLines {tick : Nat} (htick : tick < run.summary.ticks) :
    Act.received (actsOf run (tick + 1)) = Order.lines
      ((List.range' (tick * Delivery.pitch settings.batchSize lines)
        (min lines settings.batchSize)).map
          (settings.generator surroundings.unseeded).orderAt) := by
  obtain ⟨how, hended⟩ := (reachable_of_startRun h).exists_ended hphase
    ⟨Nat.succ_le_succ (Nat.zero_le tick), htick⟩
  obtain ⟨outcome, -, hslice, -⟩ := slice_of_ended hworkers h hcancelled hended
  have hreceived := (hslice.of_takesLines (hpeers (tick + 1))).2.2
  rw [firstPosition_of_takesLines hworkers h hcancelled hpeers hphase
    (Nat.le_of_lt htick)] at hreceived
  exact hreceived

/-- Ticks whose peers take so many lines send that many each, or the whole batch. -/
theorem ordersSent_of_takesLines :
    run.summary.ordersSent = run.summary.ticks * min lines settings.batchSize := by
  have hreachable := reachable_of_startRun h
  have hsent : ((Entry.recordedIn run.entries).map Prod.snd).map Ending.sent =
      (Entry.recordedIn run.entries).map fun _ => min lines settings.batchSize := by
    rw [List.map_map]
    apply List.map_congr_left
    rintro ⟨tick, how⟩ hrecorded
    obtain ⟨outcome, rfl, hslice, -⟩ := slice_of_ended hworkers h hcancelled
      (hreachable.recorded.ended _ hrecorded)
    have houtcome : outcome.sent = min lines settings.batchSize :=
      (hslice.of_takesLines (hpeers tick)).1
    rw [← houtcome]
    cases outcome <;> rfl
  have hlength := (hreachable.recorded_perm hphase).length_eq
  rw [List.length_map, List.length_range'] at hlength
  have hcounted := congrArg Summary.ordersSent hreachable.counted
  simp only [Summary.tally] at hcounted
  rw [hcounted, hsent, List.map_const', List.sum_replicate_nat, hlength]

end OneWorker

/-! ## The slices of a stream -/

/-- Ticks that follow each other cut the order stream into slices, whatever their peers do.

Deliveries made one after the other on one generator all end exactly if each attempt to connect,
in its turn, settles with something on which its peer has a verdict.  Then each takes the next
slice of the stream, which is as long as its batch if it completed, one longer than what it sent
if a write failed, and empty if connecting failed; and of writes that are taken whole or not at
all exactly the lines sent were taken, from the beginning of the slice.  If every peer takes so
many lines, the slices are equally long.  The ticks of a simulation with one worker whose token
has not fired do the same, in the order of their calls. -/
theorem ticks_in_turn_take_slices :
    (∀ timer now ticks generator,
      (Delivery.deliverAll timer now ticks generator).isSome ↔
        Delivery.AllSettle timer now ticks) ∧
    (∀ {timer now ticks generator reports},
      Delivery.deliverAll timer now ticks generator = some reports →
        ∃ last, Delivery.Slices generator timer 0 ticks reports last) ∧
    (∀ {ticks : List (Plan × Peer)} {size lines : Nat},
      (∀ tick ∈ ticks, tick.1.batchSize = size ∧ tick.2.TakesLines lines) →
      ∀ timer now generator, ∃ reports,
        Delivery.deliverAll timer now ticks generator = some reports ∧
        reports.length = ticks.length ∧
        (reports.map fun report => report.outcome.sent).sum = ticks.length * min lines size ∧
        ∀ i report, reports[i]? = some report →
          Act.received report.tickActs = Order.lines
            ((List.range' (i * Delivery.pitch size lines) (min lines size)).map
              generator.orderAt)) ∧
    (∀ {surroundings : Surroundings} {settings : Settings} {run : DeliveryRun},
      settings.workers = 1 →
      (startRun surroundings settings).Leads (settings.schedule surroundings.timer)
        (workOf surroundings settings) run →
      run.cancelled = false →
        firstPosition run 1 = 0 ∧
        ∀ tick how, (tick, how) ∈ Entry.endedIn run.entries →
          ∃ outcome, how = .returned outcome ∧
            Delivery.Slice (settings.generator surroundings.unseeded) surroundings.timer
              settings.plan (surroundings.network settings.target tick)
              (firstPosition run tick) (actsOf run tick) outcome ∧
            firstPosition run (tick + 1) = firstPosition run tick +
              Act.ordersUsed settings.batchSize (actsOf run tick) outcome) ∧
    (∀ {surroundings : Surroundings} {settings : Settings} {run : DeliveryRun} {lines : Nat},
      settings.workers = 1 →
      (startRun surroundings settings).Leads (settings.schedule surroundings.timer)
        (workOf surroundings settings) run →
      run.cancelled = false → run.phase = .returned →
      (∀ tick, (surroundings.network settings.target tick).TakesLines lines) →
        run.summary.ordersSent = run.summary.ticks * min lines settings.batchSize ∧
        ∀ tick < run.summary.ticks,
          Act.received (actsOf run (tick + 1)) = Order.lines
            ((List.range' (tick * Delivery.pitch settings.batchSize lines)
              (min lines settings.batchSize)).map
                (settings.generator surroundings.unseeded).orderAt)) := by
  refine ⟨fun _ _ _ _ => Delivery.deliverAll_isSome_iff, ?_, ?_, ?_, ?_⟩
  · intro timer now ticks generator reports hreports
    exact Delivery.slices_of_deliverAll
      (show Delivery.deliverAll timer now ticks (generator.after 0) = some reports from hreports)
  · intro ticks size lines hticks timer now generator
    have hsettle : Delivery.AllSettle timer now ticks := by
      refine Delivery.allSettle_of_forall (fun tick htick instant => ?_) now
      have hpeer := (hticks tick htick).2
      exact ⟨instant, .ok (), Delivery.settlement?_of_takesLines hpeer,
        Option.isSome_of_eq_some (hpeer.verdict tick.1.batchSize)⟩
    obtain ⟨reports, hreports⟩ := Option.isSome_iff_exists.mp
      (Delivery.deliverAll_isSome_iff.mpr hsettle)
    obtain ⟨last, hslices⟩ := Delivery.slices_of_deliverAll
      (show Delivery.deliverAll timer now ticks (generator.after 0) = some reports from hreports)
    obtain ⟨-, hsum, hreceived⟩ := hslices.of_takesLines hticks
    refine ⟨reports, hreports, hslices.length_eq, hsum, ?_⟩
    intro i report hreport
    rw [hreceived i report hreport, Nat.zero_add]
  · intro surroundings settings run hworkers h hcancelled
    refine ⟨firstPosition_one (reachable_of_startRun h), ?_⟩
    intro tick how hended
    exact slice_of_ended hworkers h hcancelled hended
  · intro surroundings settings run lines hworkers h hcancelled hphase hpeers
    refine ⟨ordersSent_of_takesLines hworkers h hcancelled hpeers hphase, ?_⟩
    intro tick htick
    exact received_of_takesLines hworkers h hcancelled hpeers hphase htick

/-! ## A stream in slices -/

/-- Batches of two orders, connecting within ten nanoseconds. -/
def meteredPlan : Plan := ⟨"localhost:8080", 2, some ⟨10⟩⟩

/-- Ticks whose second write fails, whose connection is refused, that wait in vain, and that
complete. -/
def meteredTicks : List (Plan × Peer) :=
  [.engineFailingAfter 1 (.os .brokenPipe), .refusing (.os .refused), .hanging, .engine].map
    fun peer => (meteredPlan, peer)

/-- Engines that take one line and fail the next. -/
def meteredSurroundings : Surroundings :=
  { pairSurroundings with network := fun _ _ => .engineFailingAfter 1 (.os .brokenPipe) }

/-- Two ticks, the second after the first. -/
def meteredActions : List Action :=
  Run.firing 0 ++ [.poll 1, .collect 0, .ticker] ++ Run.firing 10 ++
    [.poll 2, .collect 0, .ticker, .ticker, .ticker]

/-- The run of two ticks of which one line is taken each. -/
def meteredRun : DeliveryRun :=
  runAlong meteredSurroundings (pairSettings 1) meteredActions

theorem leads_meteredRun :
    (startRun meteredSurroundings (pairSettings 1)).Leads
      ((pairSettings 1).schedule meteredSurroundings.timer)
      (workOf meteredSurroundings (pairSettings 1)) meteredRun :=
  leads_runAlong (by decide +kernel)

theorem slices_of_metered_ticks :
    (∃ reports, Delivery.deliverAll .ideal 0 meteredTicks (.seeded 7) = some reports ∧
      ∃ last, Delivery.Slices (.seeded 7) .ideal 0 meteredTicks reports last) ∧
    (∃ reports, Delivery.deliverAll .ideal 0 (meteredTicks.take 1) (.seeded 7) = some reports ∧
      (reports.map fun report => report.outcome.sent).sum = 1) ∧
    firstPosition meteredRun 1 = 0 ∧
    meteredRun.summary.ordersSent = 2 * min 1 2 ∧
    ∀ tick < 2, Act.received (actsOf meteredRun (tick + 1)) = Order.lines
      ((List.range' (tick * 2) 1).map (Generator.seeded 7).orderAt) := by
  have hsettle : Delivery.AllSettle .ideal 0 meteredTicks :=
    ⟨0, .ok (), rfl, rfl, 0, .error _, rfl, rfl, 10, .error _, rfl, rfl, 10, .ok (), rfl, rfl,
      trivial⟩
  have hengine : (Peer.engineFailingAfter 1 (.os .brokenPipe)).TakesLines 1 :=
    Peer.takesLines_engineFailingAfter 1 (by decide)
  have hmetered : meteredRun.cancelled = false ∧ meteredRun.phase = .returned ∧
      meteredRun.summary.ticks = 2 := by
    decide +kernel
  obtain ⟨hcancelled, hphase, hticks⟩ := hmetered
  have hslices := ticks_in_turn_take_slices.2.2.2.1 rfl leads_meteredRun hcancelled
  have hengines := ticks_in_turn_take_slices.2.2.2.2 rfl leads_meteredRun hcancelled hphase
    fun _ => hengine
  rw [hticks] at hengines
  refine ⟨?_, ?_, hslices.1, hengines⟩
  · obtain ⟨reports, hreports⟩ := Option.isSome_iff_exists.mp
      ((ticks_in_turn_take_slices.1 .ideal 0 meteredTicks (.seeded 7)).mpr hsettle)
    exact ⟨reports, hreports, ticks_in_turn_take_slices.2.1 hreports⟩
  · obtain ⟨reports, hreports, -, hsum, -⟩ := @ticks_in_turn_take_slices.2.2.1
      (meteredTicks.take 1) 2 1 (by simpa [meteredTicks, meteredPlan] using hengine) .ideal 0
      (.seeded 7)
    exact ⟨reports, hreports, hsum⟩

end Simulation

end OrderFlow
