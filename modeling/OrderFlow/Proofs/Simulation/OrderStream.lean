import Mathlib.Data.List.Induction
import Mathlib.Logic.ExistsUnique
import OrderFlow.Proofs.Delivery.Text
import OrderFlow.Proofs.Order.Lines
import OrderFlow.Proofs.Simulation.Connections

/-!
# One order stream for all ticks

All ticks of a simulation draw from one generator, in whatever order they are
polled.  The orders drawn in a run are the stream of its seed as far as it goes,
each position is drawn by one tick, and what a connection takes is the text of its
own tick's positions.  In a run all of whose ticks complete the connections together
take the lines of the whole stream, however they share it.
-/

namespace OrderFlow

/-! ## Sharing out a list -/

section Shares

variable {β : Type}

/-- The values that stand under a key. -/
def share (pairs : List (Nat × β)) (key : Nat) : List β :=
  (pairs.filter fun pair => pair.1 = key).map Prod.snd

/-- The places at which a key stands. -/
def placesOf (pairs : List (Nat × β)) (key : Nat) : List Nat :=
  (List.range pairs.length).filter fun i => (pairs.map Prod.fst)[i]? = some key

theorem share_cons (pair : Nat × β) (pairs : List (Nat × β)) (key : Nat) :
    share (pair :: pairs) key = (if pair.1 = key then [pair.2] else []) ++ share pairs key := by
  by_cases hkey : pair.1 = key
  · simp [share, hkey]
  · simp [share, hkey]

theorem share_append (xs ys : List (Nat × β)) (key : Nat) :
    share (xs ++ ys) key = share xs key ++ share ys key := by
  simp [share]

theorem share_concat (pairs : List (Nat × β)) (pair : Nat × β) (key : Nat) :
    share (pairs ++ [pair]) key =
      share pairs key ++ if pair.1 = key then [pair.2] else [] := by
  by_cases hkey : pair.1 = key
  · simp [share, hkey]
  · simp [share, hkey]

theorem placesOf_concat (pairs : List (Nat × β)) (pair : Nat × β) (key : Nat) :
    placesOf (pairs ++ [pair]) key =
      placesOf pairs key ++ if pair.1 = key then [pairs.length] else [] := by
  have hbefore : (List.range pairs.length).filter
      (fun i => ((pairs ++ [pair]).map Prod.fst)[i]? = some key) = placesOf pairs key := by
    apply List.filter_congr
    intro i hi
    rw [List.map_append, List.getElem?_append_left (by simpa using hi)]
  rw [placesOf, List.length_append, List.length_singleton, List.range_succ,
    List.filter_append, hbefore]
  by_cases hkey : pair.1 = key
  · simp [hkey]
  · simp [hkey]

/-- The values under a key are those at its places. -/
theorem share_eq_map_placesOf {pairs : List (Nat × β)} {value : Nat → β} (key : Nat)
    (h : pairs.map Prod.snd = (List.range pairs.length).map value) :
    share pairs key = (placesOf pairs key).map value := by
  induction pairs using List.reverseRecOn with
  | nil => rfl
  | append_singleton pairs pair ih =>
      rw [List.map_append, List.length_append, List.length_singleton, List.range_succ,
        List.map_append] at h
      obtain ⟨hpairs, hpair⟩ := List.append_inj h (by simp)
      have hlast : pair.2 = value pairs.length := by simpa using hpair
      rw [share_concat, placesOf_concat, List.map_append, ih hpairs, hlast]
      by_cases hkey : pair.1 = key
      · simp [hkey]
      · simp [hkey]

/-- The shares of all keys make up the whole. -/
theorem flatMap_share_perm {keys : List Nat} {pairs : List (Nat × β)} (hnodup : keys.Nodup)
    (hkeys : ∀ pair ∈ pairs, pair.1 ∈ keys) :
    (keys.flatMap (share pairs)).Perm (pairs.map Prod.snd) := by
  induction pairs with
  | nil => simp [share]
  | cons pair pairs ih =>
      have hrest := ih fun other hother => hkeys other (List.mem_cons_of_mem _ hother)
      obtain ⟨front, back, rfl⟩ := List.append_of_mem (hkeys pair List.mem_cons_self)
      rw [List.nodup_middle, List.nodup_cons, List.mem_append, not_or] at hnodup
      have hother : ∀ keys : List Nat, pair.1 ∉ keys →
          keys.flatMap (share (pair :: pairs)) = keys.flatMap (share pairs) := by
        intro keys hnot
        apply List.flatMap_congr
        intro key hkey
        have hne : pair.1 ≠ key := by
          rintro rfl
          exact hnot hkey
        simp [share_cons, hne]
      have hhead : share (pair :: pairs) pair.1 = pair.2 :: share pairs pair.1 := by
        simp [share_cons]
      rw [List.flatMap_append, List.flatMap_cons] at hrest ⊢
      rw [hother front hnodup.1.1, hother back hnodup.1.2, hhead, List.map_cons,
        List.cons_append]
      exact List.perm_middle.trans (hrest.cons pair.2)

/-- What the ticks of a run show is shared out among them: each has what its own acts show. -/
theorem share_byTick {ε : Type} (show? : ε → Option β) (tick : Nat) (entries : List (Entry ε)) :
    share (Entry.seen (Entry.byTick show?) entries) tick =
      (Entry.actsIn tick entries).filterMap show? := by
  induction entries with
  | nil => rfl
  | cons entry rest ih =>
      have hentry : share (Entry.byTick show? entry).toList tick =
          (entry.actOf? tick).toList.filterMap show? := by
        cases entry with
        | did n act =>
            by_cases hn : n = tick <;> cases hshown : show? act <;> simp [share, hn, hshown]
        | _ => rfl
      simp only [Entry.seen_cons, share_append, List.filterMap_append, hentry, ih]

end Shares

namespace Simulation

variable {timer : Timer} {plan : Plan} {peers : Nat → Peer} {schedule : Schedule}
  {run : DeliveryRun}

/-! ## Draws -/

/-- The draws among some entries, each with the tick that drew. -/
abbrev drawsIn (entries : List (Entry Act)) : List (Nat × Order) :=
  Entry.seen (Entry.byTick Act.drawn?) entries

/-- The orders drawn in a run, each with the tick that drew it, in that order. -/
def draws (run : DeliveryRun) : List (Nat × Order) :=
  drawsIn run.entries

/-- The positions in the order stream that a tick has drawn. -/
def positions (run : DeliveryRun) (tick : Nat) : List Nat :=
  placesOf (draws run) tick

theorem drawsIn_did (tick : Nat) (acts : List Act) :
    drawsIn (acts.map (Entry.did tick)) = (Act.drawn acts).map fun order => (tick, order) := by
  rw [drawsIn, Entry.seen_map, Act.drawn, List.map_filterMap]
  rfl

theorem share_draws (run : DeliveryRun) (tick : Nat) :
    share (draws run) tick = Act.drawn (actsOf run tick) := by
  rw [actsOf_eq]
  exact share_byTick Act.drawn? tick run.entries

theorem drawn_lastWord (progress : Progress Delivery Batch.Result) :
    Act.drawn (Delivery.lastWord progress) = [] := by
  rcases progress with next | next | failure | sent <;> rfl

/-- What a poll draws is what the shared generator gives. -/
theorem poll_work_draws {tick now : Nat} {generator : Generator} {delivery : Delivery}
    {effect : Effect Generator Act} {status : Status Delivery}
    (hpolled :
      (work timer plan peers).poll tick now generator delivery = (effect, status)) :
    generator.Yields (Act.drawn effect.acts) effect.shared := by
  have hdraws := Delivery.poll_draws timer now delivery generator
  cases hpolled
  dsimp only
  rw [Act.drawn_append, drawn_lastWord, List.append_nil]
  exact hdraws

theorem drawsIn_notes_eq_nil {notes : List (Entry Act)}
    (h : ∀ tick, Entry.actsIn tick notes = []) : drawsIn notes = [] := by
  apply List.filterMap_eq_nil_iff.mpr
  intro entry hentry
  cases entry with
  | did tick act =>
      have hmem : act ∈ Entry.actsIn tick notes :=
        Entry.mem_seen_iff.mpr ⟨_, hentry, by simp⟩
      rw [h tick] at hmem
      cases hmem
  | _ => rfl

/-- All that is drawn in a run is the stream of the generator that it began with. -/
theorem draws_of_leads {first : DeliveryRun} (hfirst : draws first = [])
    (h : first.Leads schedule (work timer plan peers) run) :
    first.shared.Yields ((draws run).map Prod.snd) run.shared := by
  refine h.induction ?_ ?_
  · rw [hfirst]
    exact .nil _
  intro run action next _ htransition ih
  -- A poll adds what its acts draw; nothing else that is written is a draw.
  have hpolled : ∀ {tick acts notes} {later : Generator},
      next.entries = run.entries ++ (acts.map (Entry.did tick) ++ notes) →
      drawsIn notes = [] → next.shared = later →
      run.shared.Yields (Act.drawn acts) later →
        first.shared.Yields ((draws next).map Prod.snd) next.shared := by
    intro tick acts notes later hentries hnotes hshared hyields
    have hdraws : (draws next).map Prod.snd = (draws run).map Prod.snd ++ Act.drawn acts := by
      simp only [draws, hentries, Entry.seen_append, drawsIn_did, hnotes, List.append_nil,
        List.map_append, List.map_map, Function.comp_def, List.map_id']
    rw [hshared, hdraws]
    exact ih.append hyields
  have hpassed : ∀ {notes}, next.entries = run.entries ++ notes →
      (∀ tick, Entry.actsIn tick notes = []) → next.shared = run.shared →
        first.shared.Yields ((draws next).map Prod.snd) next.shared := by
    intro notes hentries hnotes hshared
    have hdraws : draws next = draws run := by
      simp only [draws, hentries, Entry.seen_append, drawsIn_notes_eq_nil hnotes,
        List.append_nil]
    rw [hshared, hdraws]
    exact ih
  cases htransition with
  | advance move => exact hpassed (Run.entries_mk_journalWith ..) (by simp) rfl
  | takePermit phase uncancelled free =>
      exact hpassed (List.append_nil _).symm (fun _ => rfl) rfl
  | call phase called =>
      cases called
      exact hpassed (Run.entries_mk_journalWith ..) (by simp) rfl
  | callPanics phase called => cases called
  | collect phase found =>
      exact hpassed (Run.entries_mk_journalWith ..) (by simp) rfl
  | finish running polled ending =>
      refine hpolled (Run.entries_mk_journalWith ..) ?_ rfl (poll_work_draws polled)
      rfl
  | @drop tick state next effect running polled fired =>
      refine hpolled (Run.entries_mk_journalWith ..) ?_ rfl ?_
      · rfl
      have hyields := poll_work_draws polled
      rwa [Act.drawn_append, show (work timer plan peers).drop next = next.drop from rfl,
        Delivery.drawn_drop, List.append_nil]
  | @keep tick state later effect running polled unfired =>
      refine @hpolled tick effect.acts [] effect.shared ?_ rfl rfl (poll_work_draws polled)
      rw [List.append_nil]
      exact Run.entries_mk_journalWith ..
  | cancel => exact hpassed (Run.entries_mk_journalWith ..) (by simp) rfl
  | wait later => exact hpassed (List.append_nil _).symm (fun _ => rfl) rfl

/-! ## Text -/

/-- What the acts of a tick amount to when it ended: a completed tick had the whole text taken,
and any other a text cut in the last line at the most, after as many lines as it reports. -/
def Accounted (size : Nat) (acts : List Act) : Ending → Prop
  | .returned (.completed sent) => Batch.Finished size acts (.ok sent)
  | .returned (.failed sent) => Order.Cut (Act.drawn acts) (Act.received acts) sent
  | _ => ∃ sent, Order.Cut (Act.drawn acts) (Act.received acts) sent

theorem cut_of_finished {size : Nat} {acts : List Act} {result : Batch.Result}
    (h : Batch.Finished size acts result) :
    ∃ sent, Order.Cut (Act.drawn acts) (Act.received acts) sent := by
  cases result with
  | ok sent =>
      rw [h.2.2]
      exact ⟨_, .whole _⟩
  | error failure => exact ⟨_, h⟩

theorem cut_of_accounted {size : Nat} {acts : List Act} {how : Ending}
    (h : Accounted size acts how) :
    ∃ sent, Order.Cut (Act.drawn acts) (Act.received acts) sent := by
  unfold Accounted at h
  split at h
  · exact cut_of_finished h
  · exact ⟨_, h⟩
  · exact h

theorem accounted_conclude {size : Nat} {acts : List Act} {result : Batch.Result}
    (h : Batch.Finished size acts result) :
    Accounted size (acts ++ (Delivery.conclude result).1)
      (.returned (Delivery.conclude result).2) := by
  cases result with
  | ok sent => simpa [Accounted, Delivery.conclude] using h
  | error failure =>
      simpa [Accounted, Delivery.conclude, Batch.Finished] using h

/-- Ticks in flight have their text where their delivery stands, and ticks that ended are
accounted for. -/
theorem work_keeps_text :
    (work timer plan peers).Keeps
      (fun _ acts delivery => Delivery.Written plan.batchSize acts delivery)
      (fun _ acts how => Accounted plan.batchSize acts how) where
  call := by
    intro tick now generator effect delivery hcalled
    cases hcalled
    exact ⟨rfl, rfl, rfl⟩
  pending := by
    intro tick now generator effect delivery next acts h hpolled
    rcases poll_work_keeps hpolled
        (Delivery.poll_keeps_text timer now acts delivery generator h) with
      ⟨next', hnext, hwritten⟩ | ⟨result, turnActs, hreturned, _⟩
    · cases hnext
      exact hwritten
    · cases hreturned
  ending := by
    intro tick now generator effect delivery status how acts h hpolled hending
    rcases poll_work_keeps hpolled
        (Delivery.poll_keeps_text timer now acts delivery generator h) with
      ⟨next, rfl, _⟩ | ⟨result, turnActs, rfl, hacts, hfinished⟩
    · cases hending
    · cases hending
      rw [hacts, ← List.append_assoc]
      exact accounted_conclude hfinished
  drop := by
    intro tick delivery acts h
    have hcut := Delivery.cut_of_written h
    simpa [Accounted, work] using hcut

section Reached

variable (h : run.Reachable schedule (work timer plan peers))

include h

theorem not_aborted_of_reachable : run.phase.isAborted = false :=
  not_aborted_of_fallible (reachable_fallibleWork h)

theorem texts_traced :
    Run.Traced (fun _ acts delivery => Delivery.Written plan.batchSize acts delivery)
      (fun _ acts how => Accounted plan.batchSize acts how) run :=
  h.traced work_keeps_text (not_aborted_of_reachable h)

/-- The text that a tick had taken is that of the orders it drew, cut in the last line at the
most. -/
theorem cut_of_tick (tick : Nat) :
    ∃ sent, Order.Cut (Act.drawn (actsOf run tick)) (Act.received (actsOf run tick))
      sent := by
  rw [actsOf_eq]
  rcases (texts_traced h).places h (not_aborted_of_reachable h) tick with
    ⟨delivery, _, hwritten⟩ | ⟨how, _, haccounted⟩ | hnothing
  · exact Delivery.cut_of_written hwritten
  · exact cut_of_accounted haccounted
  · rw [hnothing]
    exact ⟨0, .whole []⟩

/-- Orders are drawn for a connection only. -/
theorem connected_of_drawn {tick : Nat} (hdrawn : Act.drawn (actsOf run tick) ≠ []) :
    tick ∈ connectedTicks run := by
  rw [mem_connectedTicks_iff (reachable_fallibleWork h)]
  intro hunopened
  exact hdrawn (Link.drawn_eq_nil_of_after? hunopened).2

theorem called_of_connected {tick : Nat} (hconnected : tick ∈ connectedTicks run) :
    tick ∈ Entry.calledIn run.entries := by
  by_contra hcalled
  rw [mem_connectedTicks_iff (reachable_fallibleWork h), actsOf_eq,
    (texts_traced h).uncalled tick hcalled] at hconnected
  exact hconnected rfl

theorem connected_of_mem_draws {pair : Nat × Order} (hpair : pair ∈ draws run) :
    pair.1 ∈ connectedTicks run := by
  apply connected_of_drawn h
  rw [← share_draws]
  refine List.ne_nil_of_mem (List.mem_map.mpr ⟨pair, ?_, rfl⟩)
  exact List.mem_filter.mpr ⟨hpair, by simp⟩

/-! ## Runs all of whose ticks complete -/

section Completed

variable (hphase : run.phase = .returned) (hall : run.summary.completed = run.summary.ticks)

include hphase hall

/-- If as many ticks completed as were counted, every tick called had its whole text taken. -/
theorem finished_of_completed {tick : Nat} (hcalled : tick ∈ Entry.calledIn run.entries) :
    (Act.drawn (actsOf run tick)).length = plan.batchSize ∧
      Act.received (actsOf run tick) = Order.lines (Act.drawn (actsOf run tick)) := by
  obtain ⟨hfinished, hrunning⟩ := h.idle_of_returned hphase
  have hperm := h.settled.called_perm (not_aborted_of_reachable h)
  simp only [hfinished, hrunning, List.map_nil, List.append_nil] at hperm
  have hlength := hperm.length_eq
  rw [h.called, List.length_range', List.length_map] at hlength
  have hcount := congrArg Summary.completed h.counted
  simp only [Summary.tally] at hcount
  have hcompletions := List.countP_eq_length.mp
    (show List.countP Ending.isCompletion ((Entry.recordedIn run.entries).map Prod.snd) =
        ((Entry.recordedIn run.entries).map Prod.snd).length by
      rw [List.length_map]
      omega)
  obtain ⟨⟨n, how⟩, hrecorded, rfl⟩ := List.mem_map.mp (hperm.mem_iff.mp hcalled)
  have hcompletion := hcompletions how (List.mem_map.mpr ⟨_, hrecorded, rfl⟩)
  have haccounted := (texts_traced h).ended n how (h.recorded.ended _ hrecorded)
  rw [← actsOf_eq] at haccounted
  unfold Ending.isCompletion at hcompletion
  split at hcompletion
  · exact haccounted.2
  · cases hcompletion

theorem length_draws_of_completed :
    (draws run).length = run.summary.ticks * plan.batchSize := by
  have hperm := flatMap_share_perm h.nodup_called
    fun pair hpair => called_of_connected h (connected_of_mem_draws h hpair)
  have hlength := hperm.length_eq
  have hshares : (Entry.calledIn run.entries).map (fun tick => (share (draws run) tick).length) =
      (Entry.calledIn run.entries).map fun _ => plan.batchSize := by
    apply List.map_congr_left
    intro tick hcalled
    rw [share_draws]
    exact (finished_of_completed h hphase hall hcalled).1
  rw [List.length_map, List.length_flatMap, hshares, List.map_const', List.sum_replicate_nat,
    h.called, List.length_range'] at hlength
  simpa using hlength.symm

/-- The connections together took the line of every order drawn. -/
theorem lines_of_completed :
    ((received run).flatMap Order.splitLines).Perm
      (((draws run).map Prod.snd).map Order.line) := by
  have hperm := flatMap_share_perm (nodup_connectedTicks (reachable_fallibleWork h))
    fun pair hpair => connected_of_mem_draws h hpair
  have hlines : (received run).flatMap Order.splitLines =
      ((connectedTicks run).flatMap (share (draws run))).map Order.line := by
    rw [received, List.flatMap_map, List.map_flatMap]
    apply List.flatMap_congr
    intro tick hconnected
    have hcalled := called_of_connected h hconnected
    rw [(finished_of_completed h hphase hall hcalled).2, Order.splitLines_lines, share_draws]
  rw [hlines]
  exact hperm.map Order.line

end Completed

end Reached

/-! ## The whole simulation -/

theorem reachable_of_startRun {surroundings : Surroundings} {settings : Settings}
    (h : (startRun surroundings settings).Leads (settings.schedule surroundings.timer)
      (workOf surroundings settings) run) :
    run.Reachable (settings.schedule surroundings.timer)
      (work surroundings.timer settings.plan (surroundings.network settings.target)) :=
  ⟨0, surroundings.cancelled, settings.generator surroundings.unseeded, h⟩

theorem draws_of_startRun {surroundings : Surroundings} {settings : Settings} {seed : UInt64}
    (hseed : settings.seed = some seed)
    (h : (startRun surroundings settings).Leads (settings.schedule surroundings.timer)
      (workOf surroundings settings) run) :
    (draws run).map Prod.snd =
      (List.range (draws run).length).map (Generator.seeded seed).orderAt := by
  have hyields := draws_of_leads rfl h
  have hshared : (startRun surroundings settings).shared = .seeded seed := by
    simp [startRun, Run.start, Settings.generator, hseed]
  rw [hshared] at hyields
  simpa [Generator.firstOrders] using hyields.inOrder

/-- In a run all of whose ticks completed the connections took the lines of the stream as far as
the ticks go. -/
theorem lines_of_startRun {surroundings : Surroundings} {settings : Settings} {seed : UInt64}
    (hseed : settings.seed = some seed)
    (h : (startRun surroundings settings).Leads (settings.schedule surroundings.timer)
      (workOf surroundings settings) run)
    (hphase : run.phase = .returned) (hall : run.summary.completed = run.summary.ticks) :
    ((received run).flatMap Order.splitLines).Perm
      ((List.range (run.summary.ticks * settings.batchSize)).map
        fun i => ((Generator.seeded seed).orderAt i).line) := by
  have hreachable := reachable_of_startRun h
  have hlines := lines_of_completed hreachable hphase hall
  have hlength := length_draws_of_completed hreachable hphase hall
  rw [draws_of_startRun hseed h, hlength, List.map_map] at hlines
  exact hlines

/-- One stream for all ticks, whatever the peers do and in whatever order the ticks are polled,
cancelled or not.

The orders drawn in a run are those of the stream of its seed, as far as it goes.  Every
position is drawn by exactly one tick, a tick that draws has one connection, and the text that
a tick's connection took is that of the tick's positions in increasing order, whole or cut in
the last line.  If all ticks completed, the lines that all connections took are together those
of the stream up to the number of ticks times the batch size; so two such runs with the same
seed, batch size and number of ticks have the same lines taken, whatever else differs. -/
theorem orders_drawn_once_and_sent_in_order
    {surroundings : Surroundings} {settings : Settings} {seed : UInt64} {run : DeliveryRun}
    (hseed : settings.seed = some seed)
    (h : (startRun surroundings settings).Leads (settings.schedule surroundings.timer)
      (workOf surroundings settings) run) :
    (draws run).map Prod.snd =
      (List.range (draws run).length).map (Generator.seeded seed).orderAt ∧
    (∀ i < (draws run).length, ∃! tick, i ∈ positions run tick) ∧
    (∀ tick, (positions run tick).Pairwise (· < ·) ∧
      ∀ i ∈ positions run tick, i < (draws run).length) ∧
    (connectedTicks run).Nodup ∧
    (∀ tick, positions run tick ≠ [] → tick ∈ connectedTicks run) ∧
    (∀ tick, ∃ sent,
      Order.Cut ((positions run tick).map (Generator.seeded seed).orderAt)
        (Act.received (actsOf run tick)) sent) ∧
    (run.phase = .returned → run.summary.completed = run.summary.ticks →
      ((received run).flatMap Order.splitLines).Perm
        ((List.range (run.summary.ticks * settings.batchSize)).map
          fun i => ((Generator.seeded seed).orderAt i).line)) ∧
    (∀ {surroundings' : Surroundings} {settings' : Settings} {run' : DeliveryRun},
      settings'.seed = some seed → settings'.batchSize = settings.batchSize →
      (startRun surroundings' settings').Leads (settings'.schedule surroundings'.timer)
        (workOf surroundings' settings') run' →
      run.phase = .returned → run'.phase = .returned →
      run.summary.completed = run.summary.ticks →
      run'.summary.completed = run'.summary.ticks →
      run'.summary.ticks = run.summary.ticks →
        ((received run').flatMap Order.splitLines).Perm
          ((received run).flatMap Order.splitLines)) := by
  have hreachable := reachable_of_startRun h
  have hdraws := draws_of_startRun hseed h
  have hpositions : ∀ tick, Act.drawn (actsOf run tick) =
      (positions run tick).map (Generator.seeded seed).orderAt := by
    intro tick
    rw [← share_draws]
    exact share_eq_map_placesOf tick hdraws
  refine ⟨hdraws, ?_, ?_, nodup_connectedTicks (reachable_fallibleWork hreachable), ?_, ?_,
    lines_of_startRun hseed h, ?_⟩
  · intro i hi
    have hkey : i < ((draws run).map Prod.fst).length := by simpa using hi
    refine ⟨((draws run).map Prod.fst)[i], ?_, ?_⟩
    · exact List.mem_filter.mpr ⟨List.mem_range.mpr hi, by simp [hi]⟩
    · intro tick htick
      have hfound := (List.mem_filter.mp htick).2
      rw [decide_eq_true_eq, List.getElem?_eq_getElem hkey] at hfound
      exact (Option.some.inj hfound).symm
  · intro tick
    refine ⟨List.Pairwise.filter _ List.pairwise_lt_range, ?_⟩
    intro i hi
    exact List.mem_range.mp (List.mem_filter.mp hi).1
  · intro tick hsome
    apply connected_of_drawn hreachable
    rw [hpositions tick]
    simpa using hsome
  · intro tick
    rw [← hpositions tick]
    exact cut_of_tick hreachable tick
  · intro surroundings' settings' run' hseed' hsize h' hphase hphase' hall hall' hticks
    have hlines := lines_of_startRun hseed h hphase hall
    have hlines' := lines_of_startRun hseed' h' hphase' hall'
    rw [hticks, hsize] at hlines'
    exact hlines'.trans hlines.symm

/-! ## Two runs with one stream -/

/-- Two ticks of two orders each. -/
def pairSettings (workers : Nat) : Settings :=
  { Settings.standard with
    batchSize := 2
    period := ⟨10⟩
    workers
    maxTicks := some 2
    seed := some 7 }

/-- The first tick's engine keeps its first write waiting, the second's takes it in two
pieces. -/
def pairSurroundings : Surroundings where
  timer := .ideal
  network _ tick :=
    { Peer.engine with writes := if tick = 1 then [(1, .notReady)] else [(1, .takes 3)] }
  unseeded := .seeded 0
  cancelled := false
  cancelAt := none

/-- The second tick is delivered while the first waits. -/
def crossedActions : List Action :=
  Run.firing 0 ++ [.ticker] ++ Run.firing 10 ++
    [.poll 1, .poll 2, .poll 1, .collect 0, .collect 0, .ticker, .ticker, .ticker]

/-- One tick is delivered after the other. -/
def queuedActions : List Action :=
  Run.firing 0 ++ [.poll 1, .poll 1, .collect 0, .ticker] ++ Run.firing 10 ++
    [.poll 2, .collect 0, .ticker, .ticker, .ticker]

/-- The run that some actions lead to. -/
def pairRun (workers : Nat) (actions : List Action) : DeliveryRun :=
  ((startRun pairSurroundings (pairSettings workers)).steps?
    ((pairSettings workers).schedule .ideal) (workOf pairSurroundings (pairSettings workers))
    actions).getD (startRun pairSurroundings (pairSettings workers))

theorem leads_pairRun {workers : Nat} {actions : List Action}
    (h : ((startRun pairSurroundings (pairSettings workers)).steps?
      ((pairSettings workers).schedule .ideal) (workOf pairSurroundings (pairSettings workers))
      actions).isSome) :
    (startRun pairSurroundings (pairSettings workers)).Leads
      ((pairSettings workers).schedule pairSurroundings.timer)
      (workOf pairSurroundings (pairSettings workers)) (pairRun workers actions) := by
  obtain ⟨run, hrun⟩ := Option.isSome_iff_exists.mp h
  refine ⟨actions, ?_⟩
  rw [pairRun, hrun]
  exact hrun

theorem lines_of_crossed_and_queued :
    (draws (pairRun 2 crossedActions)).map Prod.fst = [1, 2, 2, 1] ∧
    (draws (pairRun 1 queuedActions)).map Prod.fst = [1, 1, 2, 2] ∧
    ((received (pairRun 1 queuedActions)).flatMap Order.splitLines).Perm
      ((received (pairRun 2 crossedActions)).flatMap Order.splitLines) := by
  have hcrossed := @leads_pairRun 2 crossedActions (by decide +kernel)
  have hqueued := @leads_pairRun 1 queuedActions (by decide +kernel)
  have hcrossedEnd : (pairRun 2 crossedActions).phase = .returned ∧
      (pairRun 2 crossedActions).summary = ⟨2, 2, 0, 0, 4⟩ ∧
      (draws (pairRun 2 crossedActions)).map Prod.fst = [1, 2, 2, 1] := by
    decide +kernel
  have hqueuedEnd : (pairRun 1 queuedActions).phase = .returned ∧
      (pairRun 1 queuedActions).summary = ⟨2, 2, 0, 0, 4⟩ ∧
      (draws (pairRun 1 queuedActions)).map Prod.fst = [1, 1, 2, 2] := by
    decide +kernel
  obtain ⟨hcrossedPhase, hcrossedTotals, hcrossedDraws⟩ := hcrossedEnd
  obtain ⟨hqueuedPhase, hqueuedTotals, hqueuedDraws⟩ := hqueuedEnd
  have hseed : (pairSettings 1).seed = some 7 := rfl
  have hsize : (pairSettings 1).batchSize = (pairSettings 2).batchSize := rfl
  refine ⟨hcrossedDraws, hqueuedDraws, ?_⟩
  exact (orders_drawn_once_and_sent_in_order rfl hcrossed).2.2.2.2.2.2.2 hseed hsize hqueued
    hcrossedPhase hqueuedPhase (by rw [hcrossedTotals]) (by rw [hqueuedTotals])
    (by rw [hcrossedTotals, hqueuedTotals])

end Simulation

end OrderFlow
