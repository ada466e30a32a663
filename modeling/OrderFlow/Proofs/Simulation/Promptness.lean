import OrderFlow.Proofs.Delivery.Ending
import OrderFlow.Proofs.Simulation.OrderStream

/-!
# Ticks that are attended in time

An attempt to connect that is looked at only after its deadline may find an answer that came too
late for it.  This does not happen to a tick that is attended in time: time does not run past the
instant at which the attempt comes to something before the tick is polled.  The attempt of such a
tick comes out as it settles, and with a timer that wakes on the instant this is decided by the
answer and the limit alone.
-/

namespace OrderFlow

namespace Timer

/-- The timer wakes on the very instant. -/
def IsExact (timer : Timer) : Prop :=
  ∀ instant, timer.due instant = instant

theorem isExact_ideal : ideal.IsExact := fun _ => rfl

end Timer

/-- Actions lead through runs with a property if each of them leads to such a run. -/
theorem Run.leadsThrough_of_steps {σ τ ε : Type} {schedule : Schedule} {work : Work σ τ ε}
    {kept : Run σ τ ε → Prop} {first last : Run σ τ ε} {actions : List Action}
    (h : first.steps? schedule work actions = some last)
    (hkept : ∀ count ≤ actions.length,
      ∀ run ∈ first.steps? schedule work (actions.take count), kept run) :
    LeadsThrough schedule work kept first last := by
  induction actions using List.reverseRecOn generalizing last with
  | nil =>
      obtain rfl : first = last := Option.some.inj h
      exact .refl (hkept 0 (Nat.le_refl 0) first rfl)
  | append_singleton actions action ih =>
      have hlast := hkept _ (Nat.le_refl _) last (by rwa [List.take_length])
      rw [steps?_append] at h
      obtain ⟨run, hrun, hstep⟩ := Option.bind_eq_some_iff.mp h
      obtain ⟨next, hnext, hsame⟩ := steps?_cons_eq_some_iff.mp hstep
      obtain rfl : next = last := Option.some.inj hsame
      refine (ih hrun fun count hcount => ?_).step hnext hlast
      have hbefore := hkept count (by rw [List.length_append]; omega)
      rwa [List.take_append_of_le_length hcount] at hbefore

namespace Delivery

variable {timer : Timer} {plan : Plan} {peer : Peer} {delivery : Delivery} {acts : List Act}
  {now : Nat}

/-- It is not too late to look at a delivery: an attempt to connect that is under way has not come
to something before. -/
def InTime (timer : Timer) (now : Nat) (delivery : Delivery) : Prop :=
  match delivery.stage with
  | .unstarted => True
  | .connecting since =>
      ∀ instant ∈ settlesAt? timer delivery.plan delivery.peer since, now ≤ instant
  | .sending _ => True
  | .closing _ => True

instance (timer : Timer) (now : Nat) (delivery : Delivery) :
    Decidable (delivery.InTime timer now) := by
  unfold InTime
  exact match delivery.stage with
    | .unstarted => inferInstanceAs (Decidable True)
    | .connecting since => inferInstanceAs (Decidable
        (∀ instant ∈ settlesAt? timer delivery.plan delivery.peer since, now ≤ instant))
    | .sending _ => inferInstanceAs (Decidable True)
    | .closing _ => inferInstanceAs (Decidable True)

/-- A delivery that was always looked at in time has its connection because its attempt to connect
settled so. -/
def Prompt (timer : Timer) (plan : Plan) (peer : Peer) (acts : List Act) (delivery : Delivery) :
    Prop :=
  match delivery.stage with
  | .unstarted => (delivery.plan = plan ∧ delivery.peer = peer) ∧ Act.established ∉ acts
  | .connecting _ => (delivery.plan = plan ∧ delivery.peer = peer) ∧ Act.established ∉ acts
  | .sending _ => Act.established ∈ acts ∧
      ∃ since instant, settlement? timer plan peer since = some (instant, .ok ())
  | .closing _ => Act.established ∈ acts ∧
      ∃ since instant, settlement? timer plan peer since = some (instant, .ok ())

/-- A delivery ended that was connected just if its attempt to connect settled so. -/
def EndedPromptly (timer : Timer) (plan : Plan) (peer : Peer) (acts : List Act) : Prop :=
  ∃ since instant answer, settlement? timer plan peer since = some (instant, answer) ∧
    (Act.established ∈ acts ↔ answer = .ok ())

theorem move_keeps_prompt (acts : List Act) (delivery : Delivery) (generator : Generator)
    (h : Prompt timer plan peer acts delivery ∧ delivery.InTime timer now) :
    (move timer now delivery generator).Keeps
      (fun acts next => Prompt timer plan peer acts next ∧ next.InTime timer now)
      (fun acts _ => EndedPromptly timer plan peer acts) acts := by
  obtain ⟨hprompt, hintime⟩ := h
  refine move_keeps_of_stages (fun hstage => ?_) (fun since hstage => ?_)
    (fun batch hstage => ?_) fun sent hstage => ?_
  · rw [Prompt, hstage] at hprompt
    obtain ⟨hplan, hestablished⟩ := hprompt
    exact ⟨⟨hplan, by simpa using hestablished⟩, fun instant hsettles =>
      since_le_settlesAt hsettles⟩
  · have hconnecting := hprompt
    rw [Prompt, hstage] at hconnecting
    obtain ⟨⟨rfl, rfl⟩, hestablished⟩ := hconnecting
    -- What is looked at in time and has come to something has come to it just now.
    have hsettled : ∀ {answer}, attempt? timer now since delivery.plan delivery.peer = some answer →
        settlement? timer delivery.plan delivery.peer since = some (now, answer) := by
      intro answer hattempt
      obtain ⟨instant, hsettles, hle⟩ :=
        attempt?_isSome_iff.mp (Option.isSome_of_eq_some hattempt)
      rw [InTime, hstage] at hintime
      obtain rfl := Nat.le_antisymm hle (hintime instant hsettles)
      exact settlement?_eq_some_iff.mpr ⟨hsettles, hattempt⟩
    refine connect_keeps_of_attempt (fun _ => ⟨hprompt, hintime⟩) (fun cause hattempt => ?_)
      fun hattempt => ?_
    · exact ⟨since, now, .error cause, hsettled hattempt, by simpa using hestablished⟩
    · exact ⟨⟨by simp, since, now, hsettled hattempt⟩, trivial⟩
  · rw [Prompt, hstage] at hprompt
    obtain ⟨hestablished, hsettled⟩ := hprompt
    refine (Turn.keeps_mem hestablished _).imp (fun _ _ hmem => ⟨⟨hmem, hsettled⟩, trivial⟩)
      fun acts result hmem => ?_
    cases result with
    | ok sent => exact ⟨⟨hmem, hsettled⟩, trivial⟩
    | error failure =>
        obtain ⟨since, instant, hsettled⟩ := hsettled
        exact ⟨since, instant, .ok (), hsettled, by simpa using hmem⟩
  · rw [Prompt, hstage] at hprompt
    obtain ⟨hestablished, since, instant, hsettled⟩ := hprompt
    exact ⟨since, instant, .ok (), hsettled,
      iff_of_true (List.mem_append_left _ hestablished) rfl⟩

theorem poll_keeps_prompt (generator : Generator) (h : Prompt timer plan peer acts delivery)
    (hintime : delivery.InTime timer now) :
    (poll timer now delivery generator).Keeps (Prompt timer plan peer)
      (fun acts _ => EndedPromptly timer plan peer acts) acts :=
  (Turn.poll_keeps move_keeps_prompt _ acts delivery generator ⟨h, hintime⟩).imp
    (fun _ _ hnext => hnext.1) fun _ _ => id

/-- With an exact timer the attempt to connect to a peer that accepts settles so just if the peer
does that within the limit. -/
theorem settlement?_accepted_iff {since instant delay : Nat} {answer : Except Failure Unit}
    (hexact : timer.IsExact) (haccepts : peer.connecting = .accepts delay)
    (h : settlement? timer plan peer since = some (instant, answer)) :
    answer = .ok () ↔ ∀ limit, plan.connectTimeout = some limit → delay ≤ limit.nanos := by
  have hanswer : peer.connecting.answer? = some (delay, .ok ()) := by
    rw [haccepts]
    rfl
  by_cases hintime : ∀ limit, plan.connectTimeout = some limit → delay ≤ limit.nanos
  · have hanswered := settlement?_of_answer hanswer fun limit hlimit => by
      rw [hexact]
      exact Nat.add_le_add_left (hintime limit hlimit) since
    rw [h] at hanswered
    cases hanswered
    exact iff_of_true rfl hintime
  · obtain ⟨limit, hlate⟩ := not_forall.mp hintime
    obtain ⟨hlimit, hlate⟩ := Classical.not_imp.mp hlate
    have hexpired := settlement?_of_expired hlimit fun delay' result hother => by
      rw [hanswer] at hother
      cases hother
      rw [hexact]
      exact Nat.add_lt_add_left (Nat.lt_of_not_le hlate) since
    rw [h] at hexpired
    cases hexpired
    exact iff_of_false nofun hintime

end Delivery

namespace Simulation

variable {timer : Timer} {plan : Plan} {peers : Nat → Peer} {schedule : Schedule}
  {run : DeliveryRun} {tick : Nat}

/-- It is not too late to look at a tick of a run, if it is in flight. -/
def Attended (timer : Timer) (tick : Nat) (run : DeliveryRun) : Prop :=
  ∀ entry ∈ run.running, entry.1 = tick → entry.2.InTime timer run.now

instance (timer : Timer) (tick : Nat) (run : DeliveryRun) : Decidable (Attended timer tick run) :=
  inferInstanceAs
    (Decidable (∀ entry ∈ run.running, entry.1 = tick → entry.2.InTime timer run.now))

/-- Of one tick, what is kept of deliveries that are looked at in time. -/
abbrev PromptlyTraced (timer : Timer) (plan : Plan) (peers : Nat → Peer) (tick : Nat)
    (run : DeliveryRun) : Prop :=
  Run.Traced (fun n acts delivery => n = tick → delivery.Prompt timer plan (peers n) acts)
    (fun n acts how => n = tick → how = .dropped ∨ Delivery.EndedPromptly timer plan (peers n) acts)
    run

/-- A step of a run keeps what is kept of deliveries looked at in time, if the tick is. -/
theorem PromptlyTraced.step {action : Action} {next : DeliveryRun}
    (h : PromptlyTraced timer plan peers tick run)
    (hreachable : run.Reachable schedule (work timer plan peers))
    (hattended : Attended timer tick run)
    (htransition : Run.Transition schedule (work timer plan peers) run action next)
    (haborted : next.phase.isAborted = false) :
    PromptlyTraced timer plan peers tick next := by
  refine Run.Traced.step h hreachable htransition haborted ?_ ?_ ?_ ?_
  · rintro n effect delivery ⟨⟩ rfl
    exact ⟨⟨rfl, rfl⟩, List.not_mem_nil⟩
  · rintro n delivery acts effect later hmem hprompt hpolled rfl
    have hkept := Delivery.poll_keeps_prompt run.shared (hprompt rfl) (hattended _ hmem rfl)
    rcases poll_work_keeps hpolled hkept with ⟨next, hnext, hlater⟩ | ⟨_, _, hreturned, _⟩
    · cases hnext
      exact hlater
    · cases hreturned
  · rintro n delivery acts effect status how hmem hprompt hpolled hending rfl
    have hkept := Delivery.poll_keeps_prompt run.shared (hprompt rfl) (hattended _ hmem rfl)
    rcases poll_work_keeps hpolled hkept with ⟨next, rfl, _⟩ | ⟨result, turnActs, -, hacts, hended⟩
    · cases hending
    · obtain ⟨since, instant, answer, hsettled, hconnected⟩ := hended
      refine Or.inr ⟨since, instant, answer, hsettled, ?_⟩
      rw [hacts, ← List.append_assoc, Delivery.established_mem_conclude]
      exact hconnected
  · rintro n delivery acts - rfl
    exact Or.inl rfl

theorem promptlyTraced_of_attended {now : Nat} {cancelled : Bool} {generator : Generator}
    (h : Run.LeadsThrough schedule (work timer plan peers) (Attended timer tick)
      (.start schedule now cancelled generator) run) :
    PromptlyTraced timer plan peers tick run := by
  induction h with
  | refl here => exact Run.traced_start now cancelled generator
  | @step run next action before taken here ih =>
      have hreachable : run.Reachable schedule (work timer plan peers) :=
        ⟨now, cancelled, generator, before.leads⟩
      exact ih.step hreachable before.kept (Run.transition_of_step taken)
        (not_aborted_of_reachable (hreachable.step taken))

/-- A tick that is attended in time and ended by itself was connected just if its attempt to
connect settled so. -/
theorem endedPromptly {now : Nat} {cancelled : Bool} {generator : Generator} {how : Ending}
    (h : Run.LeadsThrough schedule (work timer plan peers) (Attended timer tick)
      (.start schedule now cancelled generator) run)
    (hended : (tick, how) ∈ Entry.endedIn run.entries) (hdropped : how ≠ .dropped) :
    Delivery.EndedPromptly timer plan (peers tick) (actsOf run tick) := by
  rw [actsOf_eq]
  exact ((promptlyTraced_of_attended h).ended tick how hended rfl).resolve_left hdropped

end Simulation

end OrderFlow
