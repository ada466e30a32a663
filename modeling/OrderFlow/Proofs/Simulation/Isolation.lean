import OrderFlow.Proofs.Delivery.Slices
import OrderFlow.Proofs.Scheduler.Uncancelled
import OrderFlow.Proofs.Simulation.Promptness

/-!
# Ticks do not disturb each other

The ticks of a simulation share a generator, a pool and a log, but what becomes of a tick is
decided by its own peer.  A tick that reports an outcome bears out the verdict of its peer, so
two runs in which a tick meets like peers agree on its outcome and on the number of characters
taken, however else they differ.
-/

namespace OrderFlow.Simulation

variable {timer : Timer} {plan : Plan} {peers : Nat → Peer} {schedule : Schedule}
  {run : DeliveryRun}

/-- What the polls of deliveries keep, the work of the ticks keeps. -/
theorem work_keeps {alive : Nat → List Act → Delivery → Prop}
    {done : Nat → List Act → Batch.Result → Prop} {ended : Nat → List Act → Ending → Prop}
    (hstart : ∀ tick, alive tick [] (.start plan (peers tick)))
    (hpoll : ∀ tick now acts delivery generator, alive tick acts delivery →
      (delivery.poll timer now generator).Keeps (alive tick) (done tick) acts)
    (hend : ∀ tick acts result, done tick acts result →
      ended tick (acts ++ (Delivery.conclude result).1)
        (.returned (Delivery.conclude result).2))
    (hdrop : ∀ tick acts delivery, alive tick acts delivery →
      ended tick (acts ++ delivery.drop) .dropped) :
    (work timer plan peers).Keeps alive ended where
  call := by
    intro tick now generator effect delivery hcalled
    cases hcalled
    exact hstart tick
  pending := by
    intro tick now generator effect delivery next acts halive hpolled
    rcases poll_work_keeps hpolled (hpoll tick now acts delivery generator halive) with
      ⟨next', hnext, hkept⟩ | ⟨result, turnActs, hreturned, _⟩
    · cases hnext
      exact hkept
    · cases hreturned
  ending := by
    intro tick now generator effect delivery status how acts halive hpolled hending
    rcases poll_work_keeps hpolled (hpoll tick now acts delivery generator halive) with
      ⟨next, rfl, _⟩ | ⟨result, turnActs, rfl, hacts, hdone⟩
    · cases hending
    · cases hending
      rw [hacts, ← List.append_assoc]
      exact hend tick _ result hdone
  drop := by
    intro tick delivery acts halive
    exact hdrop tick acts delivery halive

/-! ## Ticks that report an outcome -/

/-- How a tick of a simulation comes to its end: it is concluded, or dropped. -/
def ConcludedOrDropped (timer : Timer) (plan : Plan) (peer : Peer) (acts : List Act)
    (how : Ending) : Prop :=
  how = .dropped ∨
    ∃ outcome, how = .returned outcome ∧ Delivery.Concluded timer plan peer acts outcome

theorem work_keeps_underway :
    (work timer plan peers).Keeps
      (fun tick acts delivery => delivery.Underway timer plan (peers tick) acts)
      (fun tick acts how => ConcludedOrDropped timer plan (peers tick) acts how) :=
  work_keeps (fun tick => Delivery.underway_start timer plan (peers tick))
    (fun _ now acts delivery generator h =>
      Delivery.poll_keeps_underway now acts delivery generator h)
    (fun _ _ result h => Or.inr ⟨(Delivery.conclude result).2, rfl, h⟩)
    (fun _ _ _ _ => Or.inl rfl)

theorem concludedOrDropped {tick : Nat} {how : Ending}
    (h : run.Reachable schedule (work timer plan peers))
    (hended : (tick, how) ∈ Entry.endedIn run.entries) :
    ConcludedOrDropped timer plan (peers tick) (actsOf run tick) how := by
  rw [actsOf_eq]
  exact (h.traced work_keeps_underway (not_aborted_of_reachable h)).ended tick how hended

/-- A tick that ended in a run whose token has not fired is concluded. -/
theorem concluded_of_ended {tick : Nat} {how : Ending}
    (h : run.Reachable schedule (work timer plan peers)) (hcancelled : run.cancelled = false)
    (hended : (tick, how) ∈ Entry.endedIn run.entries) :
    ∃ outcome, how = .returned outcome ∧
      Delivery.Concluded timer plan (peers tick) (actsOf run tick) outcome := by
  rcases concludedOrDropped h hended with rfl | hconcluded
  · exact absurd hended
      (h.undropped (not_aborted_of_reachable h) hcancelled tick)
  · exact hconcluded

/-! ## Two runs -/

section Alike

variable {timer' : Timer} {plan' : Plan} {peers' : Nat → Peer} {tick : Nat}
  {acts acts' : List Act} {outcome outcome' : Outcome} {peer peer' : Peer}

/-- Concluded ticks that met like peers with batches of one size came out alike if both were
connected or neither was. -/
theorem concluded_alike (h : Delivery.Concluded timer plan peer acts outcome)
    (h' : Delivery.Concluded timer' plan' peer' acts' outcome') (halike : peer.Alike peer')
    (hsize : plan'.batchSize = plan.batchSize)
    (hconnected : Act.established ∈ acts ↔ Act.established ∈ acts') :
    outcome' = outcome ∧ (Act.received acts').length = (Act.received acts).length := by
  obtain ⟨answer, -, hanswer, hverdict⟩ := h.verdict
  obtain ⟨answer', -, hanswer', hverdict'⟩ := h'.verdict
  have hsame : answer' = .ok () ↔ answer = .ok () :=
    hanswer'.symm.trans (hconnected.symm.trans hanswer)
  rw [hsize, halike.verdict_eq, Peer.verdict_congr hsame, hverdict] at hverdict'
  exact Prod.mk.inj (Option.some.inj hverdict'.symm)

/-- Whether concluded ticks are connected is decided by how their peers answer, unless an answer
comes after the limit. -/
theorem connected_alike (h : Delivery.Concluded timer plan peer acts outcome)
    (h' : Delivery.Concluded timer' plan' peer' acts' outcome')
    (hconnecting : peer'.connecting = peer.connecting)
    (htimeout : plan'.connectTimeout = plan.connectTimeout)
    (hlate : ∀ delay limit, peer.connecting = .accepts delay →
      plan.connectTimeout = some limit → limit.nanos < delay →
        (Act.established ∈ acts ↔ Act.established ∈ acts')) :
    Act.established ∈ acts ↔ Act.established ∈ acts' := by
  obtain ⟨answer, hcan, hanswer, -⟩ := h.verdict
  obtain ⟨answer', hcan', hanswer', -⟩ := h'.verdict
  rcases answer with cause | ⟨⟩
  · rcases answer' with cause' | ⟨⟩
    · exact iff_of_false (fun hmem => nomatch hanswer.mp hmem) fun hmem => nomatch hanswer'.mp hmem
    · -- The other tick was connected, so the peer accepts, and here it did so too late.
      obtain ⟨delay, haccepts⟩ := hcan'.accepts
      rw [hconnecting] at haccepts
      obtain ⟨limit, hlimit, hless⟩ := hcan.late_of_accepts haccepts
      exact hlate delay limit haccepts hlimit hless
  · rcases answer' with cause' | ⟨⟩
    · obtain ⟨delay, haccepts⟩ := hcan.accepts
      rw [← hconnecting] at haccepts
      obtain ⟨limit, hlimit, hless⟩ := hcan'.late_of_accepts haccepts
      rw [hconnecting] at haccepts
      rw [htimeout] at hlimit
      exact hlate delay limit haccepts hlimit hless
    · exact iff_of_true (hanswer.mpr rfl) (hanswer'.mpr rfl)

end Alike

/-- With an exact timer no tick is connected that is attended in time and answered after the
limit. -/
theorem unconnected_of_late {surroundings : Surroundings} {settings : Settings}
    {run : DeliveryRun} {tick delay : Nat} {outcome : Outcome} {limit : Duration}
    (hexact : surroundings.timer.IsExact)
    (h : Run.LeadsThrough (settings.schedule surroundings.timer) (workOf surroundings settings)
      (Attended surroundings.timer tick) (startRun surroundings settings) run)
    (hended : (tick, .returned outcome) ∈ Entry.endedIn run.entries)
    (haccepts : (surroundings.network settings.target tick).connecting = .accepts delay)
    (hlimit : settings.connectTimeout = some limit) (hlate : limit.nanos < delay) :
    Act.established ∉ actsOf run tick := by
  obtain ⟨since, instant, answer, hsettled, hconnected⟩ := endedPromptly h hended nofun
  rw [hconnected, Delivery.settlement?_accepted_iff hexact haccepts hsettled]
  intro hintime
  exact absurd (hintime limit hlimit) (Nat.not_le_of_lt hlate)

/-- The run that some actions lead a simulation to, if all of them can happen. -/
def runAlong (surroundings : Surroundings) (settings : Settings) (actions : List Action) :
    DeliveryRun :=
  ((startRun surroundings settings).steps? (settings.schedule surroundings.timer)
    (workOf surroundings settings) actions).getD (startRun surroundings settings)

theorem runAlong_eq {surroundings : Surroundings} {settings : Settings}
    {actions : List Action}
    (h : ((startRun surroundings settings).steps? (settings.schedule surroundings.timer)
      (workOf surroundings settings) actions).isSome) :
    (startRun surroundings settings).steps? (settings.schedule surroundings.timer)
      (workOf surroundings settings) actions =
        some (runAlong surroundings settings actions) := by
  obtain ⟨run, hrun⟩ := Option.isSome_iff_exists.mp h
  rw [runAlong, hrun, Option.getD_some]

theorem leads_runAlong {surroundings : Surroundings} {settings : Settings}
    {actions : List Action}
    (h : ((startRun surroundings settings).steps? (settings.schedule surroundings.timer)
      (workOf surroundings settings) actions).isSome) :
    (startRun surroundings settings).Leads (settings.schedule surroundings.timer)
      (workOf surroundings settings) (runAlong surroundings settings actions) :=
  ⟨actions, runAlong_eq h⟩

/-- The peers of `pairSurroundings`, but the first tick is refused. -/
def refusingSurroundings : Surroundings :=
  { pairSurroundings with
    network := fun target tick =>
      if tick = 1 then .refusing (.os .refused) else pairSurroundings.network target tick }

/-- The settings of `pairSettings` with another seed, more workers and a shorter period. -/
def hurriedSettings : Settings :=
  { pairSettings 2 with
    period := ⟨5⟩
    seed := some 8 }

/-- Both ticks are in flight when the first is refused. -/
def hurriedActions : List Action :=
  Run.firing 0 ++ [.ticker] ++ Run.firing 5 ++
    [.poll 1, .poll 2, .collect 0, .collect 0, .ticker, .ticker, .ticker]

/-- The run in which the first tick is refused. -/
def hurriedRun : DeliveryRun :=
  runAlong refusingSurroundings hurriedSettings hurriedActions

theorem leads_hurriedRun :
    (startRun refusingSurroundings hurriedSettings).Leads
      (hurriedSettings.schedule refusingSurroundings.timer)
      (workOf refusingSurroundings hurriedSettings) hurriedRun :=
  leads_runAlong (by decide +kernel)

/-- Peers that accept only after the limit. -/
def slowSurroundings : Surroundings :=
  { pairSurroundings with network := fun _ _ => { Peer.engine with connecting := .accepts 20 } }

/-- One tick, connecting within ten nanoseconds. -/
def slowSettings (workers : Nat) : Settings :=
  { pairSettings workers with
    maxTicks := some 1
    connectTimeout := some ⟨10⟩ }

/-- The tick begins to connect at an instant and is polled again at another. -/
def slowActions (first second : Nat) : List Action :=
  Run.firing 0 ++ [.wait first, .poll 1, .wait second, .poll 1]

/-- The run of one tick that is polled at two instants. -/
def slowRun (workers first second : Nat) : DeliveryRun :=
  runAlong slowSurroundings (slowSettings workers) (slowActions first second)

theorem leadsThrough_slowRun {workers first second : Nat}
    (h : ((startRun slowSurroundings (slowSettings workers)).steps?
      ((slowSettings workers).schedule .ideal) (workOf slowSurroundings (slowSettings workers))
      (slowActions first second)).isSome)
    (hattended : ∀ count ≤ (slowActions first second).length,
      ∀ run ∈ (startRun slowSurroundings (slowSettings workers)).steps?
        ((slowSettings workers).schedule .ideal) (workOf slowSurroundings (slowSettings workers))
        ((slowActions first second).take count), Attended .ideal 1 run) :
    Run.LeadsThrough ((slowSettings workers).schedule slowSurroundings.timer)
      (workOf slowSurroundings (slowSettings workers)) (Attended slowSurroundings.timer 1)
      (startRun slowSurroundings (slowSettings workers)) (slowRun workers first second) :=
  Run.leadsThrough_of_steps (runAlong_eq h) hattended

/-- The tick that is polled late only is answered. -/
example : Entry.endedIn (slowRun 1 0 25).entries = [(1, .returned (.completed 2))] := by
  decide +kernel

end OrderFlow.Simulation
