import OrderFlow.Proofs.Delivery.Breakdown
import OrderFlow.Proofs.Delivery.Verdict

/-!
# Deliveries that end

A delivery polled whenever there is something to do keeps what every poll keeps.  Its attempt to
connect is looked at in time, so it ends at the instant at which the attempt settles, and it
does so exactly if its peer has a verdict then: if nothing stalls for ever.  `Delivery.load`
bounds the moves still to be made, and every poll lowers it.
-/

namespace OrderFlow

namespace Script

theorem length_replies (script : Script) : script.replies.length = script.calls := by
  induction script with
  | nil => rfl
  | cons entry rest ih => simp [replies, calls, ih]

theorem calls_next_le (script : Script) : script.next.2.calls ≤ script.calls := by
  rw [← length_replies, ← length_replies, next_replies]
  split
  · exact Nat.le_refl _
  · rw [List.length_tail]
    exact Nat.sub_le _ 1

/-- A call that gets a reply of the script, other than a stall, uses the reply up. -/
theorem calls_next_lt {script : Script} {reply : Reply} (h : script.next.1 = reply)
    (hscripted : reply ≠ .takesAll) (hstalls : reply ≠ .stalls) :
    script.next.2.calls < script.calls := by
  have hcons := Batch.replies_eq_cons (script.next_reply.symm.trans h) hscripted
  rw [← length_replies, ← length_replies, next_replies, h, if_neg hstalls, hcons]
  exact Nat.lt_succ_self _

end Script

namespace Batch

variable {verdict : Outlook} {acts : List Act} {batch : Batch}

/-- The reply to the next call of a batch. -/
def nextReply (batch : Batch) : Reply :=
  match batch.stage with
  | .writing _ _ => batch.writes.next.1
  | .flushing => batch.flushes.next.1

theorem load_pos (batch : Batch) : 0 < batch.load := by
  unfold load
  dsimp only
  split
  · omega
  · omega

/-- A batch that has a verdict meets no stall. -/
theorem nextReply_ne_stalls (h : Foreseen verdict acts batch) (hsome : verdict.isSome) :
    batch.nextReply ≠ .stalls := by
  intro hstalls
  rcases batch with ⟨size, ⟨sent, rest⟩ | -, writes, flushes⟩
  · have hcons := replies_eq_cons (writes.next_reply.symm.trans hstalls) (by simp)
    obtain ⟨-, -, rfl⟩ := foreseen_writing.mp h
    rw [hcons, writeOutlook] at hsome
    cases hsome
  · have hcons := replies_eq_cons (flushes.next_reply.symm.trans hstalls) (by simp)
    obtain rfl := foreseen_flushing.mp h
    rw [hcons, flushOutlook] at hsome
    cases hsome

theorem load_openLine_le (size sent : Nat) (writes flushes : Script) (generator : Generator) :
    load ⟨size, (openLine size sent generator).2.2, writes, flushes⟩ ≤
      size - sent + 1 + writes.calls + flushes.calls := by
  unfold openLine
  split
  · exact Nat.le_refl _
  · exact Nat.add_le_add_right (Nat.add_le_add_right (Nat.le_add_left 1 _) _) _

theorem accept_load {sent count bound : Nat} {rest : List Char} (generator : Generator)
    (hlt : sent < batch.size)
    (hbound : batch.size - sent + batch.writes.calls + batch.flushes.calls < bound)
    (hpart : ¬ rest.length ≤ count →
      batch.size - sent + 1 + batch.writes.calls + batch.flushes.calls < bound) :
    (batch.accept sent rest count generator).Keeps (fun _ next => next.load < bound)
      (fun _ _ => True) acts := by
  unfold accept
  by_cases hzero : count = 0
  · rw [if_pos hzero]
    trivial
  · rw [if_neg hzero]
    by_cases hall : rest.length ≤ count
    · rw [if_pos hall]
      have hopen := load_openLine_le batch.size (sent + 1) batch.writes batch.flushes generator
      have hline : batch.size - (sent + 1) + 1 = batch.size - sent := by omega
      rw [hline] at hopen
      exact Nat.lt_of_le_of_lt hopen hbound
    · rw [if_neg hall]
      exact hpart hall

/-- Every call that does not stall leaves less to do, if a batch that is writing has a line to
write. -/
theorem move_load_of_ready (generator : Generator)
    (hline : ∀ sent rest, batch.stage = .writing sent rest → sent < batch.size)
    (hstalls : batch.nextReply ≠ .stalls) :
    (batch.move generator).Keeps (fun _ next => next.load < batch.load) (fun _ _ => True)
      acts := by
  rcases batch with ⟨size, ⟨sent, rest⟩ | -, writes, flushes⟩
  · have hlt : sent < size := hline sent rest rfl
    have hle := writes.calls_next_le
    have hless : ∀ {reply : Reply}, writes.next.1 = reply → reply ≠ .takesAll →
        size - sent + 1 + writes.next.2.calls + flushes.calls <
          size - sent + 1 + writes.calls + flushes.calls := by
      intro reply hreply hscripted
      have hused := Script.calls_next_lt hreply hscripted (by rw [← hreply]; exact hstalls)
      omega
    rw [move]
    dsimp only
    split
    · apply accept_load generator hlt
      · simp only [load]
        omega
      · exact fun hall => absurd (Nat.le_refl _) hall
    · rename_i count hreply
      apply accept_load generator hlt
      · simp only [load]
        omega
      · exact fun _ => hless hreply (by simp)
    · rename_i hreply
      exact hless hreply (by simp)
    · rename_i hreply
      exact absurd hreply hstalls
    · rename_i cause hreply
      split
      · exact hless hreply (by simp)
      · trivial
  · have hless : ∀ {reply : Reply}, flushes.next.1 = reply → reply ≠ .takesAll →
        1 + writes.calls + flushes.next.2.calls < 1 + writes.calls + flushes.calls := by
      intro reply hreply hscripted
      have hused := Script.calls_next_lt hreply hscripted (by rw [← hreply]; exact hstalls)
      omega
    rw [move]
    dsimp only
    split
    · trivial
    · trivial
    · rename_i hreply
      exact hless hreply (by simp)
    · rename_i hreply
      exact absurd hreply hstalls
    · trivial

/-- Every call of a batch that meets no stall leaves less to do. -/
theorem move_load (generator : Generator) (h : Foreseen verdict acts batch)
    (hsome : verdict.isSome) :
    (batch.move generator).Keeps (fun _ next => next.load < batch.load) (fun _ _ => True)
      acts :=
  move_load_of_ready generator (fun sent rest hstage => (h.1 sent rest hstage).1)
    (nextReply_ne_stalls h hsome)

/-- A call that stalls has to wait. -/
theorem move_ne_again_of_stalls (generator : Generator) (h : batch.nextReply = .stalls)
    (next : Batch) : (batch.move generator).progress ≠ .again next := by
  rcases batch with ⟨size, ⟨sent, rest⟩ | -, writes, flushes⟩
  · have hreply : writes.next.1 = .stalls := h
    simp [move, hreply]
  · have hreply : flushes.next.1 = .stalls := h
    simp [move, hreply]

/-- A call after which the batch can go on at once leaves less to do. -/
theorem load_lt_of_again {generator : Generator} {next : Batch}
    (hline : ∀ sent rest, batch.stage = .writing sent rest → sent < batch.size)
    (h : (batch.move generator).progress = .again next) : next.load < batch.load := by
  by_cases hstalls : batch.nextReply = .stalls
  · exact absurd h (move_ne_again_of_stalls generator hstalls next)
  · have hload := @move_load_of_ready [] batch generator hline hstalls
    rw [Turn.Keeps, h] at hload
    exact hload

end Batch

namespace Delivery

variable {timer : Timer} {acts : List Act} {delivery : Delivery}

/-! ## What a delivery followed to its end keeps -/

/-- A delivery that is followed beyond a poll is woken after it. -/
theorem eq_some_of_woken {fuel now : Nat} {generator : Generator} {acts : List Act}
    {report : Report}
    (h : (match delivery.wakesAt? timer now with
      | none => none
      | some instant =>
          (follow timer fuel (max now instant) delivery generator).map fun later =>
            { later with acts := acts ++ later.acts }) = some report) :
    ∃ instant later, delivery.wakesAt? timer now = some instant ∧
      follow timer fuel (max now instant) delivery generator = some later ∧
      report = { later with acts := acts ++ later.acts } := by
  split at h
  · cases h
  · rename_i instant hinstant
    obtain ⟨later, hlater, hreport⟩ := Option.map_eq_some_iff.mp h
    exact ⟨instant, later, hinstant, hlater, hreport.symm⟩

/-- A delivery that is followed ends in the first poll, or is woken and followed further. -/
theorem follow_cases {fuel now : Nat} {generator : Generator} {report : Report}
    (h : follow timer (fuel + 1) now delivery generator = some report) :
    (∃ result, (poll timer now delivery generator).progress = .ended result ∧
      report = ⟨(poll timer now delivery generator).generator,
        (poll timer now delivery generator).acts, result, now⟩) ∨
    ∃ next instant later,
      ((poll timer now delivery generator).progress = .again next ∨
        (poll timer now delivery generator).progress = .waiting next) ∧
      next.wakesAt? timer now = some instant ∧
      follow timer fuel (max now instant) next
          (poll timer now delivery generator).generator = some later ∧
      report =
        { later with acts := (poll timer now delivery generator).acts ++ later.acts } := by
  rw [follow] at h
  rcases hprogress : (poll timer now delivery generator).progress with next | next | result
  · rw [hprogress] at h
    obtain ⟨instant, later, hwoken, hlater, hreport⟩ := eq_some_of_woken h
    exact Or.inr ⟨next, instant, later, Or.inl rfl, hwoken, hlater, hreport⟩
  · rw [hprogress] at h
    obtain ⟨instant, later, hwoken, hlater, hreport⟩ := eq_some_of_woken h
    exact Or.inr ⟨next, instant, later, Or.inr rfl, hwoken, hlater, hreport⟩
  · rw [hprogress] at h
    exact Or.inl ⟨result, rfl, (Option.some.inj h).symm⟩

/-- What polls keep from one to the next, if each comes at the instant at which the delivery is
woken, is kept to the end. -/
theorem follow_keeps_timed {alive : Nat → List Act → Delivery → Prop}
    {done : Nat → List Act → Batch.Result → Prop}
    (hpoll : ∀ now acts delivery generator, alive now acts delivery →
      (poll timer now delivery generator).Keeps
        (fun acts next => ∀ instant, next.wakesAt? timer now = some instant →
          alive (max now instant) acts next)
        (done now) acts) :
    ∀ {fuel now acts delivery generator report}, alive now acts delivery →
      follow timer fuel now delivery generator = some report →
        done report.endedAt (acts ++ report.acts) report.result := by
  intro fuel
  induction fuel with
  | zero =>
      intro now acts delivery generator report _ hreport
      cases hreport
  | succ fuel ih =>
      intro now acts delivery generator report halive hreport
      have hturn := hpoll now acts delivery generator halive
      unfold Turn.Keeps at hturn
      rcases follow_cases hreport with
        ⟨result, hprogress, rfl⟩ | ⟨next, instant, later, hprogress, hwoken, hlater, rfl⟩
      · rw [hprogress] at hturn
        exact hturn
      · have hnext :
            alive (max now instant) (acts ++ (poll timer now delivery generator).acts) next := by
          rcases hprogress with hprogress | hprogress
          · rw [hprogress] at hturn
            exact hturn instant hwoken
          · rw [hprogress] at hturn
            exact hturn instant hwoken
        have hdone := ih hnext hlater
        rwa [List.append_assoc] at hdone

theorem follow_keeps {alive : List Act → Delivery → Prop}
    {done : List Act → Batch.Result → Prop}
    (hpoll : ∀ now acts delivery generator, alive acts delivery →
      (poll timer now delivery generator).Keeps alive done acts)
    {fuel now : Nat} {acts : List Act} {delivery : Delivery} {generator : Generator}
    {report : Report} (halive : alive acts delivery)
    (h : follow timer fuel now delivery generator = some report) :
    done (acts ++ report.acts) report.result :=
  @follow_keeps_timed timer (fun _ => alive) (fun _ => done)
    (fun now acts delivery generator hstate =>
      (hpoll now acts delivery generator hstate).imp (fun _ _ hnext _ _ => hnext)
        fun _ _ => id)
    fuel now acts delivery generator report halive h

theorem follow_draws : ∀ {fuel now delivery generator report},
    follow timer fuel now delivery generator = some report →
      generator.Yields (Act.drawn report.acts) report.generator := by
  intro fuel
  induction fuel with
  | zero =>
      intro now delivery generator report hreport
      cases hreport
  | succ fuel ih =>
      intro now delivery generator report hreport
      have hturn := poll_draws timer now delivery generator
      rcases follow_cases hreport with
        ⟨result, _, rfl⟩ | ⟨next, instant, later, _, _, hlater, rfl⟩
      · exact hturn
      · rw [Act.drawn_append]
        exact hturn.append (ih hlater)

section Delivered

variable {plan : Plan} {peer : Peer} {now : Nat} {generator : Generator} {report : Report}

theorem deliver_keeps {alive : List Act → Delivery → Prop}
    {done : List Act → Batch.Result → Prop}
    (hpoll : ∀ now acts delivery generator, alive acts delivery →
      (poll timer now delivery generator).Keeps alive done acts)
    (hstart : alive [] (start plan peer))
    (h : deliver timer now plan peer generator = some report) :
    done report.acts report.result :=
  follow_keeps hpoll hstart h

end Delivered

/-! ## Ticks that report an outcome -/

/-- What is known of a tick that reported an outcome: how many orders it used, which text was
taken, and that this is what its peer makes of it, by whether it was connected. -/
structure Concluded (timer : Timer) (plan : Plan) (peer : Peer) (acts : List Act)
    (outcome : Outcome) : Prop where
  spent : Spent timer plan peer acts outcome
  text : Order.Cut (Act.drawn acts) (Act.received acts) outcome.sent
  verdict : ∃ answer, CanSettle timer plan peer answer ∧
    (Act.established ∈ acts ↔ answer = .ok ()) ∧
    peer.verdict plan.batchSize answer = some (outcome, (Act.received acts).length)

/-- Where a delivery on its way stands, seen from its acts. -/
structure Underway (timer : Timer) (plan : Plan) (peer : Peer) (acts : List Act)
    (delivery : Delivery) : Prop where
  unbroken : delivery.Unbroken plan peer acts
  written : delivery.Written plan.batchSize acts
  foreseen : delivery.Foreseen timer plan peer acts

/-- Where the delivery of a tick ended, with its last word. -/
def Ended (timer : Timer) (plan : Plan) (peer : Peer) (acts : List Act)
    (result : Batch.Result) : Prop :=
  Concluded timer plan peer (acts ++ (conclude result).1) (conclude result).2

@[simp] theorem breakdowns_conclude (result : Batch.Result) :
    Act.breakdowns (conclude result).1 = [] := by
  cases result <;> rfl

theorem established_mem_conclude (acts : List Act) (result : Batch.Result) :
    Act.established ∈ acts ++ (conclude result).1 ↔ Act.established ∈ acts := by
  cases result <;> simp [conclude]

theorem cut_of_finished {size : Nat} {result : Batch.Result}
    (h : Batch.Finished size acts result) :
    Order.Cut (Act.drawn acts) (Act.received acts) (conclude result).2.sent := by
  cases result with
  | ok sent =>
      obtain ⟨rfl, hlength, hreceived⟩ := h
      rw [hreceived, conclude, Outcome.sent, ← hlength]
      exact .whole _
  | error failure => exact h

section Last

variable {plan : Plan} {peer : Peer} {result : Batch.Result}

/-- The last word of a tick uses no order. -/
theorem spent_conclude (h : Reckoned timer plan peer acts result) :
    Spent timer plan peer (acts ++ (conclude result).1) (conclude result).2 := by
  have hbroken : Act.breakdowns (acts ++ (conclude result).1) = Act.breakdowns acts := by simp
  have hdrawn : Act.drawn (acts ++ (conclude result).1) = Act.drawn acts := by simp
  rcases h with hunconnected | ⟨hestablished, hspent⟩
  · refine Or.inl ⟨hunconnected.refused, ?_, hbroken.trans hunconnected.unbroken,
      hdrawn.trans hunconnected.undrawn, hunconnected.nothing⟩
    rw [established_mem_conclude]
    exact hunconnected.unestablished
  · exact Or.inr ⟨(established_mem_conclude acts result).mpr hestablished,
      hspent.congr hbroken hdrawn⟩

theorem foreseen_start (timer : Timer) (plan : Plan) (peer : Peer) :
    (start plan peer).Foreseen timer plan peer [] :=
  ⟨⟨rfl, rfl⟩, List.not_mem_nil, rfl⟩

theorem underway_start (timer : Timer) (plan : Plan) (peer : Peer) :
    Underway timer plan peer [] (start plan peer) where
  unbroken := by simp [Unbroken, start]
  written := ⟨rfl, rfl, rfl⟩
  foreseen := foreseen_start timer plan peer

theorem poll_keeps_underway (now : Nat) (acts : List Act) (delivery : Delivery)
    (generator : Generator) (h : Underway timer plan peer acts delivery) :
    (poll timer now delivery generator).Keeps (Underway timer plan peer)
      (Ended timer plan peer) acts := by
  have hkept := (poll_keeps_unbroken now acts delivery generator h.unbroken).and
    ((poll_keeps_text timer now acts delivery generator h.written).and
      (poll_keeps_verdict now acts delivery generator h.foreseen))
  apply hkept.imp
  · rintro acts next ⟨hunbroken, hwritten, hforeseen⟩
    exact ⟨hunbroken, hwritten, hforeseen⟩
  · rintro acts result ⟨hreckoned, hfinished, answer, hcan, hconnected, hdecided⟩
    refine ⟨spent_conclude hreckoned, ?_, answer, hcan, ?_, ?_⟩
    · simpa using cut_of_finished hfinished
    · rwa [established_mem_conclude]
    · simpa [Batch.Decided] using hdecided

end Last

/-! ## Deliveries that are looked at in time -/

section InTime

variable {plan : Plan} {peer : Peer} {first now instant : Nat} {answer : Except Failure Unit}

/-- A delivery that was first polled at an instant is looked at in time: when its attempt to
connect starts or settles, and from then on at that instant. -/
def Timely (timer : Timer) (plan : Plan) (peer : Peer) (first now : Nat) (acts : List Act)
    (delivery : Delivery) : Prop :=
  match delivery.stage with
  | .unstarted => (delivery.plan = plan ∧ delivery.peer = peer) ∧ Act.established ∉ acts ∧
      now = first
  | .connecting since => (delivery.plan = plan ∧ delivery.peer = peer) ∧
      Act.established ∉ acts ∧ since = first ∧
      (now = first ∨ settlesAt? timer plan peer first = some now)
  | .sending _ => Act.established ∈ acts ∧
      settlement? timer plan peer first = some (now, .ok ())
  | .closing _ => Act.established ∈ acts ∧
      settlement? timer plan peer first = some (now, .ok ())

/-- A delivery ended when its attempt to connect settled, and was connected if that was how. -/
def EndedInTime (timer : Timer) (plan : Plan) (peer : Peer) (first now : Nat) (acts : List Act)
    (_ : Batch.Result) : Prop :=
  ∃ answer, settlement? timer plan peer first = some (now, answer) ∧
    (Act.established ∈ acts ↔ answer = .ok ())

/-- What an attempt looked at in time has come to is what it settles with. -/
theorem settlement?_of_timely (htime : now = first ∨ settlesAt? timer plan peer first = some now)
    (h : attempt? timer now first plan peer = some answer) :
    settlement? timer plan peer first = some (now, answer) := by
  rcases htime with rfl | hsettles
  · exact settlement?_of_attempt_at_start h
  · exact settlement?_eq_some_iff.mpr ⟨hsettles, h⟩

theorem move_keeps_timely (acts : List Act) (delivery : Delivery) (generator : Generator)
    (h : Timely timer plan peer first now acts delivery) :
    (move timer now delivery generator).Keeps (Timely timer plan peer first now)
      (EndedInTime timer plan peer first now) acts := by
  refine move_keeps_of_stages (fun hstage => ?_) (fun since hstage => ?_)
    (fun batch hstage => ?_) fun sent hstage => ?_
  · rw [Timely, hstage] at h
    obtain ⟨hplan, hestablished, rfl⟩ := h
    exact ⟨hplan, by simpa using hestablished, rfl, Or.inl rfl⟩
  · have hconnecting := h
    rw [Timely, hstage] at hconnecting
    obtain ⟨⟨rfl, rfl⟩, hestablished, rfl, htime⟩ := hconnecting
    refine connect_keeps_of_attempt (fun _ => h) (fun cause hattempt => ?_) fun hattempt => ?_
    · exact ⟨.error cause, settlement?_of_timely htime hattempt, by simpa using hestablished⟩
    · exact ⟨by simp, settlement?_of_timely htime hattempt⟩
  · rw [Timely, hstage] at h
    refine (Turn.keeps_mem h.1 _).imp (fun _ _ hestablished => ⟨hestablished, h.2⟩)
      fun acts result hestablished => ?_
    cases result with
    | ok sent => exact ⟨hestablished, h.2⟩
    | error failure => exact ⟨.ok (), h.2, by simpa using hestablished⟩
  · rw [Timely, hstage] at h
    exact ⟨.ok (), h.2, iff_of_true (List.mem_append_left _ h.1) rfl⟩

theorem poll_keeps_timely (acts : List Act) (delivery : Delivery) (generator : Generator)
    (h : Timely timer plan peer first now acts delivery) :
    (poll timer now delivery generator).Keeps (Timely timer plan peer first now)
      (EndedInTime timer plan peer first now) acts :=
  Turn.poll_keeps move_keeps_timely _ acts delivery generator h

/-- An attempt to connect that is under way settles now. -/
def Due (timer : Timer) (now : Nat) (delivery : Delivery) : Prop :=
  ∀ since, delivery.stage = .connecting since →
    settlesAt? timer delivery.plan delivery.peer since = some now

/-- A delivery that is polled when it is woken is looked at in time. -/
theorem Timely.wakes (h : Timely timer plan peer first now acts delivery)
    (hwakes : delivery.wakesAt? timer now = some instant) :
    Timely timer plan peer first (max now instant) acts delivery ∧
      delivery.Due timer (max now instant) := by
  rcases delivery with ⟨plan', peer', - | since | batch | sent⟩
  · obtain rfl : now = instant := Option.some.inj hwakes
    rw [Nat.max_self]
    exact ⟨h, fun since hstage => Stage.noConfusion hstage⟩
  · obtain ⟨⟨rfl, rfl⟩, hestablished, rfl, htime⟩ := h
    have hsettles : settlesAt? timer plan' peer' since = some instant := hwakes
    have hlater : now ≤ instant := by
      rcases htime with rfl | hnow
      · exact since_le_settlesAt hsettles
      · rw [hsettles] at hnow
        exact Nat.le_of_eq (Option.some.inj hnow).symm
    rw [Nat.max_eq_right hlater]
    refine ⟨⟨⟨rfl, rfl⟩, hestablished, rfl, Or.inr hsettles⟩, fun since' hstage => ?_⟩
    obtain rfl := Stage.connecting.inj hstage
    exact hsettles
  · have hready : (if batch.nextReply = .stalls then none else some now) = some instant := hwakes
    split at hready
    · cases hready
    · obtain rfl : now = instant := Option.some.inj hready
      rw [Nat.max_self]
      exact ⟨h, fun since hstage => Stage.noConfusion hstage⟩
  · obtain rfl : now = instant := Option.some.inj hwakes
    rw [Nat.max_self]
    exact ⟨h, fun since hstage => Stage.noConfusion hstage⟩

theorem timely_start (timer : Timer) (plan : Plan) (peer : Peer) (first : Nat) :
    Timely timer plan peer first first [] (start plan peer) :=
  ⟨⟨rfl, rfl⟩, List.not_mem_nil, rfl⟩

/-- A delivery with nothing else going on ends when its attempt to connect settles, and as its
peer then makes it end. -/
theorem settlement?_of_deliver {generator : Generator} {report : Report}
    (h : deliver timer first plan peer generator = some report) :
    ∃ answer, settlement? timer plan peer first = some (report.endedAt, answer) ∧
      Batch.Decided (peer.verdict plan.batchSize answer) report.acts report.result := by
  obtain ⟨answer, hsettled, hconnected⟩ : EndedInTime timer plan peer first report.endedAt
      ([] ++ report.acts) report.result :=
    follow_keeps_timed (fun now acts delivery generator htimely =>
      (poll_keeps_timely acts delivery generator htimely).imp
        (fun _ _ hnext _ hwoken => (hnext.wakes hwoken).1) fun _ _ => id)
      (timely_start timer plan peer first) h
  obtain ⟨other, -, hother, hdecided⟩ : Borne timer plan peer ([] ++ report.acts)
      report.result :=
    follow_keeps poll_keeps_verdict (foreseen_start timer plan peer) h
  refine ⟨answer, hsettled, ?_⟩
  rwa [Peer.verdict_congr (hother.symm.trans hconnected)] at hdecided

/-! ## Deliveries that end -/

theorem load_pos (delivery : Delivery) : 0 < delivery.load := by
  unfold load
  split
  · omega
  · omega
  · omega
  · omega

/-- Where a delivery stands that is looked at in time and has a verdict to come. -/
structure Hopeful (timer : Timer) (plan : Plan) (peer : Peer) (first now : Nat)
    (acts : List Act) (delivery : Delivery) : Prop where
  timely : Timely timer plan peer first now acts delivery
  foreseen : Foreseen timer plan peer acts delivery
  hopes : ∀ {instant answer}, settlement? timer plan peer first = some (instant, answer) →
    (peer.verdict plan.batchSize answer).isSome

/-- Every move of a delivery that has a verdict to come leaves less to do, but for one look at an
attempt to connect that does not settle yet. -/
theorem Hopeful.move_load (generator : Generator)
    (h : Hopeful timer plan peer first now acts delivery) :
    (move timer now delivery generator).Keeps
      (fun _ next => next.load < delivery.load ∨ next = delivery ∧ ¬ delivery.Due timer now)
      (fun _ _ => True) acts := by
  refine move_keeps_of_stages (fun hstage => Or.inl ?_) (fun since hstage => ?_)
    (fun batch hstage => ?_) fun sent hstage => trivial
  · simp [load, hstage]
  · refine connect_keeps_of_attempt (fun hattempt => Or.inr ⟨rfl, fun hdue => ?_⟩)
      (fun _ _ => trivial) fun _ => Or.inl ?_
    · have hsome := attempt?_isSome_iff.mpr ⟨now, hdue since hstage, Nat.le_refl now⟩
      rw [hattempt] at hsome
      cases hsome
    · have hopen := Batch.load_openLine_le delivery.plan.batchSize 0 delivery.peer.writes
        delivery.peer.flushes generator
      simp only [load, hstage]
      exact Nat.succ_lt_succ (Nat.lt_succ_of_le hopen)
  · have hload : delivery.load = batch.load + 1 := by
      simp [load, hstage]
    have htimely := h.timely
    have hforeseen := h.foreseen
    rw [Timely, hstage] at htimely
    rw [Foreseen, hstage] at hforeseen
    have hsome := h.hopes htimely.2
    refine (Batch.move_load generator hforeseen.2.2 hsome).imp
      (fun _ next hless => Or.inl ?_) fun _ result _ => ?_
    · rw [hload]
      exact Nat.succ_lt_succ hless
    · rcases result with failure | sent
      · trivial
      · apply Or.inl
        rw [hload]
        exact Nat.succ_lt_succ batch.load_pos

theorem Hopeful.move (generator : Generator)
    (h : Hopeful timer plan peer first now acts delivery) :
    (Delivery.move timer now delivery generator).Keeps
      (Hopeful timer plan peer first now) (fun _ _ => True) acts :=
  ((move_keeps_timely acts delivery generator h.timely).and
    (move_keeps_verdict now acts delivery generator h.foreseen)).imp
    (fun _ _ hnext => ⟨hnext.1, hnext.2, h.hopes⟩) fun _ _ _ => trivial

/-- Every poll of a delivery that has a verdict to come leaves less to do, if an attempt to
connect that is under way settles now. -/
theorem Hopeful.poll_load (generator : Generator)
    (h : Hopeful timer plan peer first now acts delivery) (hdue : delivery.Due timer now) :
    (poll timer now delivery generator).Keeps
      (fun acts next => Hopeful timer plan peer first now acts next ∧
        next.load < delivery.load)
      (fun _ _ => True) acts := by
  have hmove : ∀ acts next generator,
      Hopeful timer plan peer first now acts next ∧ next.load < delivery.load →
        (Delivery.move timer now next generator).Keeps
          (fun acts later => Hopeful timer plan peer first now acts later ∧
            later.load < delivery.load)
          (fun _ _ => True) acts := by
    rintro acts next generator ⟨hnext, hless⟩
    refine ((hnext.move generator).and (hnext.move_load generator)).imp ?_ fun _ _ _ => trivial
    rintro acts later ⟨hlater, hbefore | ⟨rfl, -⟩⟩
    · exact ⟨hlater, Nat.lt_trans hbefore hless⟩
    · exact ⟨hlater, hless⟩
  -- The first move leaves less to do, and no later move undoes this.
  obtain ⟨fuel, hfuel⟩ := Nat.exists_eq_succ_of_ne_zero (Nat.ne_of_gt delivery.load_pos)
  have hfirst := (h.move generator).and (h.move_load generator)
  have hpoll : poll timer now delivery generator =
      Turn.poll (Delivery.move timer now) (fuel + 1) delivery generator := by
    rw [poll, hfuel]
  unfold Turn.Keeps at hfirst
  rw [hpoll, Turn.poll]
  rcases hprogress : (Delivery.move timer now delivery generator).progress with
    next | next | result
  · rw [hprogress] at hfirst
    have hless : next.load < delivery.load :=
      hfirst.2.resolve_right fun hsame => hsame.2 hdue
    exact (Turn.poll_keeps hmove fuel _ next _ ⟨hfirst.1, hless⟩).after
  · rw [hprogress] at hfirst
    rw [Turn.Keeps, hprogress]
    exact ⟨hfirst.1, hfirst.2.resolve_right fun hsame => hsame.2 hdue⟩
  · rw [Turn.Keeps, hprogress]
    trivial

/-- A delivery that has a verdict to come is woken at an instant at which it is due. -/
theorem Hopeful.wakes (h : Hopeful timer plan peer first now acts delivery)
    (hsettled : settlement? timer plan peer first = some (instant, answer)) :
    ∃ woken, delivery.wakesAt? timer now = some woken ∧
      Hopeful timer plan peer first (max now woken) acts delivery ∧
      delivery.Due timer (max now woken) := by
  have hwakes : ∃ woken, delivery.wakesAt? timer now = some woken := by
    have htimely := h.timely
    have hforeseen := h.foreseen
    rcases delivery with ⟨plan', peer', - | since | batch | sent⟩
    · exact ⟨now, rfl⟩
    · obtain ⟨⟨rfl, rfl⟩, -, rfl, -⟩ := htimely
      exact ⟨instant, (settlement?_eq_some_iff.mp hsettled).1⟩
    · have hstalls := Batch.nextReply_ne_stalls hforeseen.2.2 (h.hopes htimely.2)
      exact ⟨now, if_neg hstalls⟩
    · exact ⟨now, rfl⟩
  obtain ⟨woken, hwoken⟩ := hwakes
  obtain ⟨hlater, hdue⟩ := h.timely.wakes hwoken
  exact ⟨woken, hwoken, ⟨hlater, h.foreseen, h.hopes⟩, hdue⟩

/-- A delivery that has a verdict to come ends if it is polled often enough. -/
theorem Hopeful.follow_isSome
    (hsettled : settlement? timer plan peer first = some (instant, answer)) :
    ∀ {fuel now acts delivery} generator, Hopeful timer plan peer first now acts delivery →
      delivery.Due timer now → delivery.load < fuel →
        (follow timer fuel now delivery generator).isSome := by
  intro fuel
  induction fuel with
  | zero =>
      intro now acts delivery generator _ _ hfuel
      exact absurd hfuel (Nat.not_lt_zero _)
  | succ fuel ih =>
      intro now acts delivery generator h hdue hfuel
      have hkept := h.poll_load generator hdue
      unfold Turn.Keeps at hkept
      have hlater : ∀ {acts next} generator,
          Hopeful timer plan peer first now acts next ∧ next.load < delivery.load →
          ∃ woken, next.wakesAt? timer now = some woken ∧
            (follow timer fuel (max now woken) next generator).isSome := by
        rintro acts next generator ⟨hnext, hless⟩
        obtain ⟨woken, hwoken, hhopeful, hready⟩ := hnext.wakes hsettled
        exact ⟨woken, hwoken, ih generator hhopeful hready (by omega)⟩
      rw [follow]
      rcases hprogress : (poll timer now delivery generator).progress with next | next | result
      · rw [hprogress] at hkept
        obtain ⟨woken, hwoken, hfollow⟩ :=
          hlater (poll timer now delivery generator).generator hkept
        dsimp only
        rw [hwoken]
        simpa using hfollow
      · rw [hprogress] at hkept
        obtain ⟨woken, hwoken, hfollow⟩ :=
          hlater (poll timer now delivery generator).generator hkept
        dsimp only
        rw [hwoken]
        simpa using hfollow
      · rfl

/-- A delivery ends exactly if its attempt to connect settles with something on which its peer
has a verdict. -/
theorem deliver_isSome_iff (timer : Timer) (first : Nat) (plan : Plan) (peer : Peer)
    (generator : Generator) :
    (deliver timer first plan peer generator).isSome ↔
      ∃ instant answer, settlement? timer plan peer first = some (instant, answer) ∧
        (peer.verdict plan.batchSize answer).isSome := by
  constructor
  · intro h
    obtain ⟨report, hreport⟩ := Option.isSome_iff_exists.mp h
    obtain ⟨answer, hsettled, hdecided⟩ := settlement?_of_deliver hreport
    exact ⟨report.endedAt, answer, hsettled, Option.isSome_of_eq_some hdecided⟩
  · rintro ⟨instant, answer, hsettled, hsome⟩
    refine Hopeful.follow_isSome hsettled generator
      ⟨timely_start timer plan peer first, foreseen_start timer plan peer, ?_⟩
      (fun since hstage => Stage.noConfusion hstage) (Nat.lt_succ_self _)
    intro other answer' hother
    rw [hsettled] at hother
    cases hother
    exact hsome

end InTime

end Delivery

end OrderFlow
