import OrderFlow.Proofs.Delivery.Course

/-!
# Bounds on connecting that are of no account

The bound on connecting, the clock and the timer are read while a delivery connects and not
after.  So a delivery whose connection is established goes on as if there were no bound, and
one whose connection is established in time comes out as if there were none.
-/

namespace OrderFlow

/-- Where work stands, with its state changed. -/
def Progress.mapState {τ ρ : Type} (f : τ → τ) : Progress τ ρ → Progress τ ρ
  | .again state => .again (f state)
  | .waiting state => .waiting (f state)
  | .ended result => .ended result

namespace Turn

variable {τ ρ : Type}

/-- A turn with the state it leaves changed. -/
def mapState (f : τ → τ) (turn : Turn τ ρ) : Turn τ ρ :=
  { turn with progress := turn.progress.mapState f }

/-- Moves that do the same but for a change of state make up polls that do. -/
theorem poll_mapState {f : τ → τ} {move move' : τ → Generator → Turn τ ρ} {alive : τ → Prop}
    (hkeeps : ∀ acts state generator, alive state →
      (move state generator).Keeps (fun _ next => alive next) (fun _ _ => True) acts)
    (hmove : ∀ state generator, alive state →
      move' (f state) generator = (move state generator).mapState f) :
    ∀ fuel state generator, alive state →
      poll move' fuel (f state) generator = (poll move fuel state generator).mapState f := by
  intro fuel
  induction fuel with
  | zero => exact fun _ _ _ => rfl
  | succ fuel ih =>
      intro state generator halive
      have hkept := hkeeps [] state generator halive
      rw [poll, poll, hmove state generator halive, mapState]
      dsimp only
      cases hprogress : (move state generator).progress with
      | again next =>
          -- The moves agree at the next state too, since the move before has kept it alive.
          rw [Keeps, hprogress] at hkept
          dsimp only [Progress.mapState]
          rw [ih next _ hkept]
          rfl
      | waiting next =>
          rw [mapState, hprogress]
          rfl
      | ended result =>
          rw [mapState, hprogress]
          rfl

end Turn

namespace Delivery

variable {timer : Timer} {plan : Plan} {peer : Peer} {delivery : Delivery}

/-- A delivery with another bound on connecting. -/
def timedBy (limit : Option Duration) (delivery : Delivery) : Delivery :=
  { delivery with plan := { delivery.plan with connectTimeout := limit } }

/-- The connection of a delivery is established. -/
def IsOpen (delivery : Delivery) : Prop :=
  match delivery.stage with
  | .unstarted => False
  | .connecting _ => False
  | .sending _ => True
  | .closing _ => True

theorem move_keeps_open (now : Nat) (acts : List Act) (delivery : Delivery)
    (generator : Generator) (h : delivery.IsOpen) :
    (move timer now delivery generator).Keeps (fun _ next => next.IsOpen) (fun _ _ => True)
      acts := by
  rcases delivery with ⟨plan, peer, - | since | batch | sent⟩
  · exact h.elim
  · exact h.elim
  · unfold move Turn.Keeps
    dsimp only
    cases (batch.move generator).progress with
    | again next => trivial
    | waiting next => trivial
    | ended result => cases result <;> trivial
  · trivial

/-- What a delivery does with an established connection depends on no clock, timer or bound. -/
theorem move_timedBy_of_open {timer' : Timer} {now now' : Nat} (limit : Option Duration)
    (generator : Generator) (h : delivery.IsOpen) :
    move timer' now' (delivery.timedBy limit) generator =
      (move timer now delivery generator).mapState (timedBy limit) := by
  rcases delivery with ⟨plan, peer, - | since | batch | sent⟩
  · exact h.elim
  · exact h.elim
  · unfold move Turn.mapState
    simp only [timedBy]
    cases (batch.move generator).progress with
    | again next => rfl
    | waiting next => rfl
    | ended result => cases result <;> rfl
  · rfl

theorem poll_timedBy_of_open {timer' : Timer} {now now' : Nat} (limit : Option Duration)
    (generator : Generator) (h : delivery.IsOpen) :
    poll timer' now' (delivery.timedBy limit) generator =
      (poll timer now delivery generator).mapState (timedBy limit) :=
  Turn.poll_mapState (move_keeps_open now)
    (fun _ generator hopen => move_timedBy_of_open limit generator hopen) _ delivery generator h

/-! ## Attempts that come out alike -/

section Unbound

variable {now since delay : Nat} {limit : Duration}

/-- The plan of a delivery without the bound on connecting. -/
def unboundPlan (plan : Plan) : Plan :=
  { plan with connectTimeout := none }

/-- An attempt that is not given up has come to the same without a bound. -/
theorem attempt?_unbound
    (h : ∀ cause, attempt? timer now since plan peer ≠ some (.error cause)) :
    attempt? timer now since (unboundPlan plan) peer = attempt? timer now since plan peer := by
  cases hanswered : answered? now since peer with
  | some result => rw [attempt?, attempt?, hanswered]
  | none =>
      cases hexpired : expired? timer now since plan with
      | some cause =>
          have hgivenUp : attempt? timer now since plan peer = some (.error cause) := by
            rw [attempt?, hanswered, hexpired]
            rfl
          exact absurd hgivenUp (h cause)
      | none =>
          rw [attempt?, attempt?, hanswered, hexpired]
          rfl

/-- A connection that is accepted by the deadline is not given up. -/
theorem attempt?_ne_error_of_intime (haccepts : peer.connecting = .accepts delay)
    (hintime : ∀ limit, plan.connectTimeout = some limit →
      since + delay ≤ timer.due (since + limit.nanos)) (cause : Failure) :
    attempt? timer now since plan peer ≠ some (.error cause) := by
  have hanswer : peer.connecting.answer? = some (delay, .ok ()) := by
    rw [haccepts]
    rfl
  intro hattempt
  by_cases hdue : since + delay ≤ now
  · rw [attempt?_of_answered hanswer hdue] at hattempt
    cases hattempt
  · have hunanswered : Unanswered peer since now := by
      intro delay' result hother
      rw [hanswer] at hother
      cases hother
      exact Nat.lt_of_not_le hdue
    rw [attempt?_of_unanswered hunanswered] at hattempt
    obtain ⟨cause, hexpired, -⟩ := Option.map_eq_some_iff.mp hattempt
    obtain ⟨limit, hlimit, hpast, -⟩ := expired?_eq_some_iff.mp hexpired
    exact hdue (Nat.le_trans (hintime limit hlimit) hpast)

/-- What an attempt to connect that a delivery makes has come to by now, it has come to without a
bound too. -/
def LooksUnbound (timer : Timer) (now : Nat) (delivery : Delivery) : Prop :=
  ∀ since, delivery.stage = .unstarted ∧ since = now ∨ delivery.stage = .connecting since →
    attempt? timer now since (unboundPlan delivery.plan) delivery.peer =
      attempt? timer now since delivery.plan delivery.peer

theorem move_keeps_looksUnbound (acts : List Act) (delivery : Delivery) (generator : Generator)
    (h : delivery.LooksUnbound timer now) :
    (move timer now delivery generator).Keeps (fun _ next => next.LooksUnbound timer now)
      (fun _ _ => True) acts := by
  refine move_keeps_of_stages (fun hstage => ?_) (fun since hstage => ?_)
    (fun batch hstage => ?_) fun sent hstage => ?_
  · rintro since (⟨hnext, -⟩ | hnext)
    · cases hnext
    · cases hnext
      exact h now (Or.inl ⟨hstage, rfl⟩)
  · refine connect_keeps_of_attempt (fun _ => h) (fun _ _ => trivial) fun _ => ?_
    rintro since' (⟨hnext, -⟩ | hnext) <;> cases hnext
  · unfold Turn.Keeps
    split
    · rintro since' (⟨hnext, -⟩ | hnext) <;> cases hnext
    · rintro since' (⟨hnext, -⟩ | hnext) <;> cases hnext
    · rename_i result _
      cases result with
      | ok sent => rintro since' (⟨hnext, -⟩ | hnext) <;> cases hnext
      | error failure => trivial
  · unfold close
    dsimp only
    split
    · trivial
    · split <;> trivial

/-- Without a bound a delivery does the same when its attempt has come to the same. -/
theorem move_unbound (delivery : Delivery) (generator : Generator)
    (h : delivery.LooksUnbound timer now) :
    move timer now (delivery.timedBy none) generator =
      (move timer now delivery generator).mapState (timedBy none) := by
  rcases delivery with ⟨plan, peer, - | since | batch | sent⟩
  · rfl
  · have hsame : attempt? timer now since (unboundPlan plan) peer =
        attempt? timer now since plan peer := h since (Or.inr rfl)
    unfold move
    dsimp only [timedBy]
    unfold connect
    dsimp only
    rw [unboundPlan] at hsame
    rw [hsame]
    cases attempt? timer now since plan peer with
    | none => rfl
    | some answer =>
        obtain cause | ⟨⟩ := answer
        · rfl
        · rfl
  · exact move_timedBy_of_open none generator trivial
  · rfl

theorem poll_unbound (delivery : Delivery) (generator : Generator)
    (h : delivery.LooksUnbound timer now) :
    poll timer now (delivery.timedBy none) generator =
      (poll timer now delivery generator).mapState (timedBy none) :=
  Turn.poll_mapState move_keeps_looksUnbound move_unbound _ delivery generator h

end Unbound

/-! ## Connections established in time -/

section InTime

variable {first now delay : Nat} {acts : List Act} (haccepts : peer.connecting = .accepts delay)
  (hintime : ∀ limit, plan.connectTimeout = some limit →
    first + delay ≤ timer.due (first + limit.nanos))

include haccepts hintime

theorem Timely.looksUnbound (h : Timely timer plan peer first now acts delivery) :
    delivery.LooksUnbound timer now := by
  rintro since (⟨hstage, rfl⟩ | hstage)
  · rw [Timely, hstage] at h
    obtain ⟨⟨rfl, rfl⟩, -, rfl⟩ := h
    exact attempt?_unbound (attempt?_ne_error_of_intime haccepts hintime)
  · rw [Timely, hstage] at h
    obtain ⟨⟨rfl, rfl⟩, -, rfl, -⟩ := h
    exact attempt?_unbound (attempt?_ne_error_of_intime haccepts hintime)

/-- A delivery is woken for an answer that comes in time as if there were no bound. -/
theorem Timely.wakesAt?_unbound (h : Timely timer plan peer first now acts delivery) :
    (delivery.timedBy none).wakesAt? timer now = delivery.wakesAt? timer now := by
  rcases delivery with ⟨plan', peer', - | since | batch | sent⟩
  · rfl
  · obtain ⟨⟨rfl, rfl⟩, -, rfl, -⟩ := h
    have hanswer : peer'.connecting.answer? = some (delay, .ok ()) := by
      rw [haccepts]
      rfl
    have hbound := settlement?_eq_some_iff.mp (settlement?_of_answer hanswer hintime)
    have hunbound := settlement?_eq_some_iff.mp
      (@settlement?_of_answer timer (unboundPlan plan') peer' since delay _ hanswer nofun)
    exact hunbound.1.trans hbound.1.symm
  · rfl
  · rfl

theorem follow_unbound : ∀ {fuel now acts delivery} generator,
    Timely timer plan peer first now acts delivery →
      follow timer fuel now (delivery.timedBy none) generator =
        follow timer fuel now delivery generator := by
  intro fuel
  induction fuel with
  | zero => exact fun _ _ => rfl
  | succ fuel ih =>
      intro now acts delivery generator h
      have hkept := poll_keeps_timely acts delivery generator h
      rw [follow, follow, poll_unbound delivery generator (h.looksUnbound haccepts hintime)]
      dsimp only [Turn.mapState]
      unfold Turn.Keeps at hkept
      have hwoken : ∀ {acts next instant} generator, Timely timer plan peer first now acts next →
          next.wakesAt? timer now = some instant →
            follow timer fuel (max now instant) (next.timedBy none) generator =
              follow timer fuel (max now instant) next generator :=
        fun generator hnext hwakes => ih generator (hnext.wakes hwakes).1
      cases hprogress : (poll timer now delivery generator).progress with
      | again next =>
          rw [hprogress] at hkept
          dsimp only [Progress.mapState]
          rw [hkept.wakesAt?_unbound haccepts hintime]
          cases hwakes : next.wakesAt? timer now with
          | none => rfl
          | some instant =>
              dsimp only
              rw [hwoken _ hkept hwakes]
      | waiting next =>
          rw [hprogress] at hkept
          dsimp only [Progress.mapState]
          rw [hkept.wakesAt?_unbound haccepts hintime]
          cases hwakes : next.wakesAt? timer now with
          | none => rfl
          | some instant =>
              dsimp only
              rw [hwoken _ hkept hwakes]
      | ended result => rfl

/-- A delivery that is connected in time comes out as if there were no bound. -/
theorem deliver_unbound (generator : Generator) :
    deliver timer first (unboundPlan plan) peer generator =
      deliver timer first plan peer generator :=
  follow_unbound haccepts hintime generator (timely_start timer plan peer first)

end InTime

/-! ## Connections established at last -/

/-- A poll that finds an attempt to connect failed ends the delivery unconnected. -/
theorem looksUnbound_of_poll {now : Nat} {generator : Generator} {acts : List Act}
    (hforeseen : delivery.Foreseen timer plan peer acts)
    (h : (∃ next, (poll timer now delivery generator).progress = .waiting next) ∨
      .established ∈ acts ++ (poll timer now delivery generator).acts) :
    delivery.LooksUnbound timer now := by
  rcases delivery with ⟨plan', peer', - | since | batch | sent⟩
  · obtain ⟨-, hestablished, -⟩ := hforeseen
    rintro since (⟨-, rfl⟩ | hstage)
    · refine attempt?_unbound fun cause hfailed => ?_
      have hpoll := poll_start timer since plan' peer' generator
      rw [poll_of_attempt_failed hfailed] at hpoll
      rw [start] at hpoll
      rw [hpoll] at h
      rcases h with ⟨next, hnext⟩ | hmem
      · cases hnext
      · simp [Turn.after, hestablished] at hmem
    · cases hstage
  · obtain ⟨-, hestablished, -⟩ := hforeseen
    rintro since' (⟨hstage, -⟩ | hstage)
    · cases hstage
    · cases hstage
      refine attempt?_unbound fun cause hfailed => ?_
      rw [poll_of_attempt_failed hfailed] at h
      rcases h with ⟨next, hnext⟩ | hmem
      · cases hnext
      · simp [hestablished] at hmem
  · rintro since (⟨hstage, -⟩ | hstage) <;> cases hstage
  · rintro since (⟨hstage, -⟩ | hstage) <;> cases hstage

/-- A delivery that is connected, however late, went as if there were no bound on connecting, and
goes on so. -/
theorem Course.unbound {polls : List Nat} {acts : List Act}
    {progress : Progress Delivery Batch.Result} (h : Course timer plan peer polls acts progress)
    (hconnected : (∃ delivery, progress = .waiting delivery) ∨ .established ∈ acts) :
    Course timer (unboundPlan plan) peer polls acts (progress.mapState (timedBy none)) := by
  induction h with
  | start => exact .start
  | @poll polls acts delivery before now generator ih =>
      have hforeseen : delivery.Foreseen timer plan peer acts :=
        before.holds poll_keeps_verdict (foreseen_start timer plan peer)
      have hpolled := (ih (Or.inl ⟨delivery, rfl⟩)).poll now generator
      rw [poll_unbound delivery generator (looksUnbound_of_poll hforeseen hconnected)] at hpolled
      exact hpolled

end Delivery

end OrderFlow
