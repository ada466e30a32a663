import OrderFlow.Proofs.Delivery.Course
import OrderFlow.Proofs.Delivery.Effects
import OrderFlow.Proofs.Delivery.Timeouts

/-!
# The connection of a tick, from its first poll to its end

A tick can leave each of its stages in several ways: it succeeds, fails, runs out of time or is
dropped.  On each of them it owes something to its connection, to the generator and to the log.
A tick that is never connected owes the least: it attempts to connect and waits until it finds
that attempt answered or given up.
-/

namespace OrderFlow

namespace Act

/-- A connection is released as often as it is established, and that is once at most. -/
theorem Settled.count_released {acts : List Act} (h : Settled acts) :
    acts.count .released = acts.count .established ∧ acts.count .established ≤ 1 := by
  rcases h with h | h
  · have hopened := Link.openings_after? h
    have hreleased := Link.releases_after? h
    simp only [Link.openings, Link.releases] at hopened hreleased
    omega
  · have hopened := Link.openings_after? h
    have hreleased := Link.releases_after? h
    simp only [Link.openings, Link.releases] at hopened hreleased
    omega

/-- Without a connection there are attempts to connect and log entries, and nothing else. -/
theorem Settled.eq_attempted_or_logged {acts : List Act} (h : Settled acts)
    (hunopened : .established ∉ acts) :
    ∀ act ∈ acts, act = .attempted ∨ ∃ event, act = .logged event := by
  rcases h with h | h
  · exact (Link.eq_attempted_or_logged h).2
  · have hopened := Link.openings_after? h
    rw [List.count_eq_zero.mpr hunopened] at hopened
    cases hopened

end Act

namespace Delivery

variable {timer : Timer} {plan : Plan} {peer : Peer} {polls : List Nat} {acts : List Act}
  {progress : Progress Delivery Batch.Result} {delivery : Delivery}

/-! ## What a tick does, whether it ends or is dropped -/

/-- All lines of a batch of some size were taken, and the connection was flushed. -/
structure WholeOut (size : Nat) (acts : List Act) : Prop where
  drawn : (Act.drawn acts).length = size
  taken : Act.received acts = Order.lines (Act.drawn acts)
  flushed : Act.Flushed acts

/-- What a tick has done that was polled, by what it tells the scheduler: that it is on its way,
in which case it is dropped where it stands, or its outcome.  It completes, and closes its
connection in good order, just if the whole batch is out.  If it fails, its last word is the
failure with as many lines as its outcome has, and otherwise it reports no failure.  It ends in
no other way, and without a connection it fails with nothing sent. -/
structure Orderly (plan : Plan) (status : Status Delivery) (acts : List Act) : Prop where
  attempt : acts.count .attempted = 1
  inOrder : Act.Settled acts
  opened : acts.count .established ≤ 1
  released : acts.count .released = acts.count .established
  unconnected : .established ∉ acts → ∀ act ∈ acts, act = .attempted ∨ ∃ event, act = .logged event
  closes : Act.closings acts ≠ [] ↔ WholeOut plan.batchSize acts
  quietly : Act.closings acts ≠ [] → Act.ClosedQuietly acts
  completes : ∀ sent, status = .returned (.completed sent) ↔
    sent = plan.batchSize ∧ WholeOut plan.batchSize acts
  fails : ∀ sent, status = .returned (.failed sent) →
    ∃ before cause, acts = before ++ [.logged (.attemptFailed ⟨sent, cause⟩)] ∧
      Act.failuresReported before = 0
  silent : (∀ sent, status ≠ .returned (.failed sent)) → Act.failuresReported acts = 0
  failsUnconnected : .established ∉ acts → ∀ outcome, status = .returned outcome →
    outcome = .failed 0
  notCancelled : status ≠ .returned .cancelled
  notPanicked : ∀ message, status ≠ .panicked message

@[simp] theorem endings_drop (delivery : Delivery) : Act.endings delivery.drop = [] := by
  unfold drop
  split <;> rfl

@[simp] theorem closings_drop (delivery : Delivery) : Act.closings delivery.drop = [] := by
  unfold drop
  split <;> rfl

@[simp] theorem count_attempted_drop (delivery : Delivery) :
    delivery.drop.count .attempted = 0 := by
  unfold drop
  split <;> rfl

/-- A tick that is dropped while it waits leaves its connection in order. -/
theorem Course.orderly_of_waiting (h : Course timer plan peer polls acts (.waiting delivery))
    (hpolled : polls ≠ []) : Orderly plan (.pending delivery) (acts ++ delivery.drop) := by
  have hwaits : delivery.Waits := h.waits.resolve_left fun hstart => hpolled hstart.1
  have hconnected : Connected acts delivery := h.holds (poll_keeps_connection timer) rfl
  have hattempted : Attempted acts delivery := h.holds poll_keeps_attempted rfl
  have hunclosed : Unclosed acts delivery := h.holds poll_keeps_unclosed ⟨rfl, rfl⟩
  have hreported : Reported plan.batchSize acts delivery :=
    h.holds (fun now => poll_keeps_reports timer now) ⟨rfl, rfl, rfl⟩
  have hsettled := settled_drop hconnected
  obtain ⟨hreleased, hopened⟩ := hsettled.count_released
  have hone : acts.count .attempted = 1 := by
    rw [hattempted, attempts]
    rcases hwaits with ⟨since, hstage⟩ | ⟨batch, hstage⟩ <;> rw [hstage]
  have hendings : Act.endings acts = [] := by
    rw [Unclosed] at hunclosed
    rcases hwaits with ⟨since, hstage⟩ | ⟨batch, hstage⟩
    · rw [hstage] at hunclosed
      exact hunclosed.2
    · rw [hstage] at hunclosed
      exact hunclosed.2
  have hnever : Act.closings (acts ++ delivery.drop) = [] := by
    simp [hunclosed.1]
  have hunflushed : ¬ Act.Flushed (acts ++ delivery.drop) := by
    simp [Act.flushed_iff, hendings]
  have halive : ∀ outcome, Status.pending delivery ≠ .returned outcome := by
    rintro outcome ⟨⟩
  exact {
    attempt := by simp [hone]
    inOrder := hsettled
    opened := hopened
    released := hreleased
    unconnected := hsettled.eq_attempted_or_logged
    closes := ⟨fun hclosed => absurd hnever hclosed, fun hwhole => absurd hwhole.flushed hunflushed⟩
    quietly := fun hclosed => absurd hnever hclosed
    completes := fun _ => ⟨fun hended => absurd hended (halive _),
      fun hwhole => absurd hwhole.2.flushed hunflushed⟩
    fails := fun _ hended => absurd hended (halive _)
    silent := fun _ => by simp [failuresReported_of_reported hreported]
    failsUnconnected := fun _ outcome hended => absurd hended (halive outcome)
    notCancelled := halive .cancelled
    notPanicked := fun _ hpanicked => by cases hpanicked }

/-- A tick that ended without a connection has failed with nothing sent. -/
theorem Concluded.failed_of_unconnected {outcome : Outcome}
    (h : Concluded timer plan peer acts outcome) (hunopened : .established ∉ acts) :
    outcome = .failed 0 := by
  obtain ⟨answer, -, hconnected, hverdict⟩ := h.verdict
  cases answer with
  | ok _ => exact absurd (hconnected.mpr rfl) hunopened
  | error cause => exact (Prod.mk.inj (Option.some.inj hverdict)).1.symm

/-- A tick that runs to its end leaves its connection in order. -/
theorem Course.orderly_of_ended {result : Batch.Result}
    (h : Course timer plan peer polls acts (.ended result)) :
    Orderly plan (.returned (conclude result).2) (acts ++ (conclude result).1) := by
  have hsettled : Act.Settled acts := h.holds (poll_keeps_connection timer) rfl
  have hone : acts.count .attempted = 1 := h.holds poll_keeps_attempted rfl
  have hclosed : ClosedIfFlushed acts result := h.holds poll_keeps_unclosed ⟨rfl, rfl⟩
  have hsummed : Batch.Summed plan.batchSize acts result :=
    h.holds (fun now => poll_keeps_reports timer now) ⟨rfl, rfl, rfl⟩
  have hfinished : Batch.Finished plan.batchSize acts result :=
    h.holds (fun now => poll_keeps_text timer now) ⟨rfl, rfl, rfl⟩
  have hconcluded : Ended timer plan peer acts result :=
    h.holds poll_keeps_underway (underway_start timer plan peer)
  have hunconnected := hconcluded.failed_of_unconnected
  cases result with
  | ok sent =>
      obtain ⟨hreleased, hopened⟩ := hsettled.count_released
      obtain ⟨rfl, hlength, hreceived⟩ := hfinished
      obtain ⟨hflushed, hquietly⟩ := hclosed
      have hlast : acts ++ (conclude (.ok plan.batchSize)).1 = acts := List.append_nil acts
      have hwhole : WholeOut plan.batchSize acts :=
        ⟨hlength, hreceived, Act.flushed_iff.mpr (by rw [hflushed]; exact List.mem_cons_self)⟩
      obtain ⟨failure, hclosings⟩ := hquietly.closings_eq
      rw [hlast]
      exact {
        attempt := hone
        inOrder := hsettled
        opened := hopened
        released := hreleased
        unconnected := hsettled.eq_attempted_or_logged
        closes := ⟨fun _ => hwhole, fun _ => by rw [hclosings]; exact List.cons_ne_nil _ _⟩
        quietly := fun _ => hquietly
        completes := fun sent => ⟨by rintro ⟨⟩; exact ⟨rfl, hwhole⟩, by rintro ⟨rfl, -⟩; rfl⟩
        fails := nofun
        silent := fun _ => hsummed.2.1
        failsUnconnected := fun hunopened outcome hended => by
          cases hended
          exact hunconnected (by rwa [hlast])
        notCancelled := nofun
        notPanicked := nofun }
  | error failure =>
      have hsettled := hsettled.logged (.attemptFailed failure)
      obtain ⟨hreleased, hopened⟩ := hsettled.count_released
      obtain ⟨hunflushed, hunclosed⟩ := hclosed
      have hnever : Act.closings (acts ++ [.logged (.attemptFailed failure)]) = [] := by
        simp [hunclosed]
      have hunflushed : ¬ Act.Flushed (acts ++ [.logged (.attemptFailed failure)]) := by
        simpa [Act.flushed_iff] using hunflushed
      exact {
        attempt := by simp [conclude, hone]
        inOrder := hsettled
        opened := hopened
        released := hreleased
        unconnected := hsettled.eq_attempted_or_logged
        closes := ⟨fun hclosed => absurd hnever hclosed,
          fun hwhole => absurd hwhole.flushed hunflushed⟩
        quietly := fun hclosed => absurd hnever hclosed
        completes := fun _ => ⟨nofun, fun hwhole => absurd hwhole.2.flushed hunflushed⟩
        fails := by rintro _ ⟨⟩; exact ⟨acts, failure.cause, rfl, hsummed.1⟩
        silent := fun hnone => absurd rfl (hnone failure.sent)
        failsUnconnected := fun hunopened outcome hended => by
          cases hended
          exact hunconnected hunopened
        notCancelled := nofun
        notPanicked := nofun }

/-- Polling leaves a delivery waiting or ended. -/
theorem Course.ne_again (h : Course timer plan peer polls acts progress) :
    progress ≠ .again delivery := by
  cases h with
  | start => exact nofun
  | poll before now generator => exact Turn.poll_ne_again _ _ _ _ _

theorem Course.orderly (h : Course timer plan peer polls acts progress) (hpolled : polls ≠ []) :
    Orderly plan (status progress) (acts ++ lastActs progress) := by
  cases progress with
  | again delivery => exact absurd rfl h.ne_again
  | waiting delivery => exact h.orderly_of_waiting hpolled
  | ended result => exact h.orderly_of_ended

theorem Course.unpolled (h : Course timer plan peer [] acts progress) :
    acts ++ lastActs progress = [] := by
  generalize hpolls : ([] : List Nat) = polls at h
  cases h with
  | start => rfl
  | poll before now generator => simp at hpolls

/-- A tick that runs to its end with nothing else going on leaves its connection in order. -/
theorem orderly_of_deliver {now : Nat} {generator : Generator} {report : Report}
    (h : deliver timer now plan peer generator = some report) :
    Orderly plan (.returned report.outcome) report.tickActs := by
  obtain ⟨polls, hcourse⟩ := course_of_deliver h
  exact hcourse.orderly_of_ended

/-! ## Connections that do not come about -/

theorem established_not_mem_lastActs (progress : Progress Delivery Batch.Result) :
    Act.established ∉ lastActs progress := by
  unfold lastActs
  split
  · unfold drop
    split <;> simp
  · unfold drop
    split <;> simp
  · rename_i result
    cases result <;> simp [conclude]

/-- A poll after which there is no connection leaves the generator as it was. -/
theorem Course.untouched (h : Course timer plan peer polls acts (.waiting delivery)) (now : Nat)
    (generator : Generator)
    (hunopened : .established ∉ acts ++ (Delivery.poll timer now delivery generator).acts) :
    (Delivery.poll timer now delivery generator).generator = generator := by
  have hpolled := h.poll now generator
  have horderly := hpolled.orderly (by simp)
  have hnothing := horderly.unconnected fun hmem => by
    rcases List.mem_append.mp hmem with hmem | hmem
    · exact hunopened hmem
    · exact established_not_mem_lastActs _ hmem
  have hdrawn : Act.drawn (Delivery.poll timer now delivery generator).acts = [] := by
    refine List.filterMap_eq_nil_iff.mpr fun act hact => ?_
    rcases hnothing act (by simp [hact]) with rfl | ⟨event, rfl⟩ <;> rfl
  have hmoved := (poll_draws timer now delivery generator).moved
  rw [hdrawn] at hmoved
  exact hmoved

/-- What a delivery has done that was polled at some instants, none of which found it connected:
it attempts to connect in the first poll, waits as long as the attempt has come to nothing, and
ends with the cause of its failure in the poll that finds it failed. -/
inductive Stranded (timer : Timer) (plan : Plan) (peer : Peer) :
    List Nat → List Act → Progress Delivery Batch.Result → Prop
  | unpolled : Stranded timer plan peer [] [] (.waiting (start plan peer))
  | waiting {since : Nat} {rest : List Nat}
      (pending : ∀ now ∈ since :: rest, attempt? timer now since plan peer = none) :
      Stranded timer plan peer (since :: rest) [.attempted]
        (.waiting ⟨plan, peer, .connecting since⟩)
  | failed {since : Nat} {rest before : List Nat} {last : Nat} {cause : Failure}
      (polls : since :: rest = before ++ [last])
      (pending : ∀ now ∈ before, attempt? timer now since plan peer = none)
      (failed : attempt? timer last since plan peer = some (.error cause)) :
      Stranded timer plan peer (since :: rest) [.attempted] (.ended (.error ⟨0, cause⟩))

section Connecting

variable {since now : Nat} {rest : List Nat}

/-- A poll that does not find a delivery connected, after polls that found nothing. -/
theorem Stranded.of_poll {before : List Nat} (generator : Generator)
    (hnever : attempt? timer now since plan peer ≠ some (.ok ()))
    (hpolls : since :: rest = before ++ [now])
    (hpending : ∀ instant ∈ before, attempt? timer instant since plan peer = none) :
    Stranded timer plan peer (since :: rest)
      ([.attempted] ++ (poll timer now ⟨plan, peer, .connecting since⟩ generator).acts)
      (poll timer now ⟨plan, peer, .connecting since⟩ generator).progress := by
  rcases hattempt : attempt? timer now since plan peer with - | cause | ⟨⟩
  · rw [poll_of_attempt_pending hattempt]
    refine .waiting fun instant hinstant => ?_
    rw [hpolls, List.mem_append, List.mem_singleton] at hinstant
    rcases hinstant with hinstant | rfl
    · exact hpending instant hinstant
    · exact hattempt
  · rw [poll_of_attempt_failed hattempt]
    exact .failed hpolls hpending hattempt
  · exact absurd hattempt hnever

/-- A delivery that no poll finds connected is stranded. -/
theorem Course.stranded (h : Course timer plan peer polls acts progress)
    (hnever : ∀ since rest, polls = since :: rest → ∀ now ∈ polls,
      attempt? timer now since plan peer ≠ some (.ok ())) :
    Stranded timer plan peer polls acts progress := by
  induction h with
  | start => exact .unpolled
  | @poll before _ delivery _ now generator ih =>
      have hbefore : ∀ since rest, before = since :: rest → ∀ instant ∈ before,
          attempt? timer instant since plan peer ≠ some (.ok ()) := by
        rintro since rest rfl instant hinstant
        exact hnever since (rest ++ [now]) rfl instant (List.mem_append_left _ hinstant)
      -- Up to now no poll found anything, as the delivery is still on its way.
      generalize hprogress : Progress.waiting delivery = standing at ih
      cases ih hbefore with
      | unpolled =>
          cases hprogress
          have hpolls : [now] = [] ++ [now] := rfl
          exact Stranded.of_poll generator (hnever now [] rfl now (by simp)) hpolls
            fun _ hinstant => by cases hinstant
      | @waiting since rest pending =>
          cases hprogress
          exact Stranded.of_poll generator (hnever since (rest ++ [now]) rfl now (by simp)) rfl
            pending
      | failed polls pending failed => cases hprogress

end Connecting

/-- A delivery whose attempt to connect settles with a failure ends then, and leaves the
generator as it was. -/
theorem deliver_of_failed {now instant : Nat} {cause : Failure}
    (h : settlement? timer plan peer now = some (instant, .error cause)) (generator : Generator) :
    deliver timer now plan peer generator =
      some ⟨generator, [.attempted], .error ⟨0, cause⟩, instant⟩ := by
  obtain ⟨hsettles, hfailed⟩ := settlement?_eq_some_iff.mp h
  rw [deliver, follow, poll_start]
  cases hattempt : attempt? timer now now plan peer with
  | some answer =>
      have hatOnce := settlement?_of_attempt_at_start hattempt
      rw [h] at hatOnce
      cases hatOnce
      rw [poll_of_attempt_failed hattempt]
      rfl
  | none =>
      have hwakes : wakesAt? timer now ⟨plan, peer, .connecting now⟩ = some instant := hsettles
      rw [poll_of_attempt_pending hattempt]
      dsimp only [Turn.after]
      rw [hwakes]
      dsimp only
      rw [load, start, follow, Nat.max_eq_right (since_le_settlesAt hsettles),
        poll_of_attempt_failed hfailed]
      rfl

/-! ## Bounds on connecting -/

/-- A tick whose attempt to connect is bounded by a limit.  As long as its polls find no answer it
waits, and from the deadline on it fails with nothing sent; with nothing else going on it does so
at the deadline. -/
structure TimesOut (timer : Timer) (plan : Plan) (peer : Peer) (limit : Duration) : Prop where
  kind : (Failure.connectTimeout plan.target limit).kind = .timedOut
  waits : ∀ since rest acts progress, Course timer plan peer (since :: rest) acts progress →
    (∀ now ∈ since :: rest, Unanswered peer since now) →
    (∀ now ∈ since :: rest, now < timer.due (since + limit.nanos)) →
      status progress = .pending ⟨plan, peer, .connecting since⟩ ∧ acts = [.attempted]
  fails : ∀ since rest acts progress, Course timer plan peer (since :: rest) acts progress →
    (∀ now ∈ since :: rest, Unanswered peer since now) →
    (∃ now ∈ since :: rest, timer.due (since + limit.nanos) ≤ now) →
      status progress = .returned (.failed 0) ∧
        acts ++ lastActs progress =
          [.attempted, .logged (.attemptFailed ⟨0, .connectTimeout plan.target limit⟩)]
  alone : ∀ now, Unanswered peer now (timer.due (now + limit.nanos)) → ∀ generator,
    deliver timer now plan peer generator =
      some ⟨generator, [.attempted], .error ⟨0, .connectTimeout plan.target limit⟩,
        timer.due (now + limit.nanos)⟩

/-- A poll that finds no answer does not find a connection. -/
theorem attempt?_ne_ok {since now : Nat} (h : Unanswered peer since now) :
    attempt? timer now since plan peer ≠ some (.ok ()) := by
  rw [attempt?_of_unanswered h]
  intro hok
  obtain ⟨cause, -, hcause⟩ := Option.map_eq_some_iff.mp hok
  cases hcause

theorem Course.stranded_of_unanswered {since : Nat} {rest : List Nat}
    (h : Course timer plan peer (since :: rest) acts progress)
    (hunanswered : ∀ now ∈ since :: rest, Unanswered peer since now) :
    Stranded timer plan peer (since :: rest) acts progress := by
  refine h.stranded ?_
  rintro since' rest' hpolls now hnow
  obtain ⟨rfl, rfl⟩ := List.cons.inj hpolls
  exact attempt?_ne_ok (hunanswered now hnow)

theorem timesOut_of_limit {limit : Duration} (hlimit : plan.connectTimeout = some limit) :
    TimesOut timer plan peer limit where
  kind := rfl
  waits since rest acts progress h hunanswered hearly := by
    cases h.stranded_of_unanswered hunanswered with
    | waiting pending => exact ⟨rfl, rfl⟩
    | @failed _ _ before last cause polls pending failed =>
        have hlast : last ∈ since :: rest := by rw [polls]; simp
        have hpending : attempt? timer last since plan peer = none :=
          attempt?_of_limit_ahead (hunanswered last hlast) hlimit (hearly last hlast)
        rw [hpending] at failed
        cases failed
  fails since rest acts progress h hunanswered hpast := by
    obtain ⟨now, hnow, hdue⟩ := hpast
    cases h.stranded_of_unanswered hunanswered with
    | waiting pending =>
        have hexpired := pending now hnow
        rw [attempt?_of_expired (hunanswered now hnow) hlimit hdue] at hexpired
        cases hexpired
    | @failed _ _ before last cause polls pending failed =>
        have hlast : last ∈ since :: rest := by rw [polls]; simp
        rw [attempt?_of_unanswered (hunanswered last hlast)] at failed
        obtain ⟨cause', hexpired, hcause⟩ := Option.map_eq_some_iff.mp failed
        cases hcause
        obtain ⟨limit', hlimit', -, rfl⟩ := expired?_eq_some_iff.mp hexpired
        rw [hlimit] at hlimit'
        cases hlimit'
        exact ⟨rfl, rfl⟩
  alone now hunanswered := deliver_of_failed (settlement?_of_expired hlimit hunanswered)

/-- A tick whose attempt to connect hangs waits for ever. -/
theorem Course.of_hanging {since : Nat} {rest : List Nat}
    (hhangs : settlesAt? timer plan peer since = none)
    (h : Course timer plan peer (since :: rest) acts progress) :
    acts = [.attempted] ∧ progress = .waiting ⟨plan, peer, .connecting since⟩ := by
  have hnothing : ∀ now, attempt? timer now since plan peer = none := by
    intro now
    rw [← Option.not_isSome_iff_eq_none, attempt?_isSome_iff, hhangs]
    rintro ⟨instant, hinstant, -⟩
    cases hinstant
  have hstranded : Stranded timer plan peer (since :: rest) acts progress := by
    refine h.stranded ?_
    rintro since' rest' hpolls now hnow hok
    obtain ⟨rfl, rfl⟩ := List.cons.inj hpolls
    rw [hnothing] at hok
    cases hok
  cases hstranded with
  | waiting pending => exact ⟨rfl, rfl⟩
  | failed polls pending failed =>
      rw [hnothing] at failed
      cases failed

/-- A delivery that waits for ever for its connection does not end. -/
theorem deliver_of_hanging {now : Nat} (h : settlesAt? timer plan peer now = none)
    (generator : Generator) : deliver timer now plan peer generator = none := by
  rw [← Option.not_isSome_iff_eq_none, deliver_isSome_iff]
  rintro ⟨instant, answer, hsettled, -⟩
  rw [settlement?_eq_none_iff.mpr h] at hsettled
  cases hsettled

/-- An answer that is there is taken, however late it is found. -/
theorem established_of_answered {since now delay : Nat}
    (haccepts : peer.connecting = .accepts delay) (hdue : since + delay ≤ now)
    (generator : Generator) :
    .established ∈ (poll timer now ⟨plan, peer, .connecting since⟩ generator).acts := by
  have hanswer : peer.connecting.answer? = some (delay, .ok ()) := by
    rw [haccepts]
    rfl
  have hattempt : attempt? timer now since plan peer = some (.ok ()) :=
    attempt?_of_answered hanswer hdue
  rw [poll, load, Turn.poll]
  simp [move, connect, hattempt, Turn.after]

/-- The connection of a tick, whatever its peer does, at whatever instants the tick is polled
and wherever it is dropped.  Once polled it attempts to connect once, releases the connection
once if there is one, closes it in good order just if the whole batch is out and flushed, and
tells the scheduler that it completed just then.

A bound on connecting makes a tick fail whose polls find no answer up to the deadline; an answer
that is found first is taken, and from then on the tick goes as if there were no bound.  Without
a bound a tick may wait for ever.  A tick that is not connected leaves the generator as it
was. -/
theorem tick_lifecycle (timer : Timer) (plan : Plan) (peer : Peer) :
    (∀ polls acts progress, Course timer plan peer polls acts progress →
      (polls = [] → acts ++ lastActs progress = []) ∧
      (polls ≠ [] → Orderly plan (status progress) (acts ++ lastActs progress))) ∧
    (∀ now generator report, deliver timer now plan peer generator = some report →
      Orderly plan (.returned report.outcome) report.tickActs) ∧
    (∀ limit, plan.connectTimeout = some limit → TimesOut timer plan peer limit) ∧
    (∀ delay, peer.connecting = .accepts delay → ∀ polls acts since,
      Course timer plan peer polls acts (.waiting ⟨plan, peer, .connecting since⟩) →
      ∀ now generator, since + delay ≤ now →
        .established ∈ (poll timer now ⟨plan, peer, .connecting since⟩ generator).acts) ∧
    (∀ polls acts progress, Course timer plan peer polls acts progress → .established ∈ acts →
      Course timer (unboundPlan plan) peer polls acts (progress.mapState (timedBy none))) ∧
    (∀ delivery, IsOpen delivery → ∀ timer' now now' limit generator,
      poll timer' now' (delivery.timedBy limit) generator =
        (poll timer now delivery generator).mapState (timedBy limit)) ∧
    (∀ delay now, peer.connecting = .accepts delay →
      (∀ limit, plan.connectTimeout = some limit →
        now + delay ≤ timer.due (now + limit.nanos)) →
      ∀ generator, deliver timer now (unboundPlan plan) peer generator =
        deliver timer now plan peer generator) ∧
    (plan.connectTimeout = none → peer.connecting = .hangs →
      (∀ since rest acts progress, Course timer plan peer (since :: rest) acts progress →
        acts = [.attempted] ∧ status progress = .pending ⟨plan, peer, .connecting since⟩) ∧
      ∀ now generator, deliver timer now plan peer generator = none) ∧
    (∀ polls acts delivery, Course timer plan peer polls acts (.waiting delivery) →
      ∀ now generator, .established ∉ acts ++ (poll timer now delivery generator).acts →
        (poll timer now delivery generator).generator = generator) ∧
    ∀ now instant cause, settlement? timer plan peer now = some (instant, .error cause) →
      ∀ generator, deliver timer now plan peer generator =
        some ⟨generator, [.attempted], .error ⟨0, cause⟩, instant⟩ := by
  refine ⟨fun polls acts progress h => ⟨?_, h.orderly⟩,
    fun now generator report => orderly_of_deliver, fun limit => timesOut_of_limit,
    fun delay haccepts polls acts since _ now generator hdue =>
      established_of_answered haccepts hdue generator,
    fun polls acts progress h hconnected => h.unbound (Or.inr hconnected),
    fun delivery hopen => ?_,
    fun delay now haccepts hintime => deliver_unbound haccepts hintime,
    fun hlimit hhangs => ?_, fun polls acts delivery => Course.untouched,
    fun now instant cause => deliver_of_failed⟩
  · rintro rfl
    exact h.unpolled
  · exact fun timer' now now' limit generator => poll_timedBy_of_open limit generator hopen
  · have hanswer : peer.connecting.answer? = none := by
      rw [hhangs]
      rfl
    have hsettles : ∀ since, settlesAt? timer plan peer since = none :=
      fun _ => settlesAt?_eq_none_iff.mpr ⟨hanswer, hlimit⟩
    refine ⟨fun since rest acts progress h => ?_, fun now => deliver_of_hanging (hsettles now)⟩
    obtain ⟨hacts, rfl⟩ := h.of_hanging (hsettles since)
    exact ⟨hacts, rfl⟩

theorem lifecycle_of_hanging_peer :
    deliver .ideal 3 ⟨"engine:80", 2, some ⟨5⟩⟩ .hanging (.seeded 1) =
        some ⟨.seeded 1, [.attempted], .error ⟨0, .connectTimeout "engine:80" ⟨5⟩⟩, 8⟩ ∧
      Orderly ⟨"engine:80", 2, some ⟨5⟩⟩
        (.pending ⟨⟨"engine:80", 2, some ⟨5⟩⟩, .hanging, .connecting 3⟩) [.attempted] := by
  have hlife := tick_lifecycle .ideal ⟨"engine:80", 2, some ⟨5⟩⟩ .hanging
  have hcourse : Course .ideal ⟨"engine:80", 2, some ⟨5⟩⟩ .hanging [3] [.attempted]
      (.waiting ⟨⟨"engine:80", 2, some ⟨5⟩⟩, .hanging, .connecting 3⟩) :=
    Course.start.poll 3 (.seeded 1)
  exact ⟨(hlife.2.2.1 ⟨5⟩ rfl).alone 3 nofun (.seeded 1),
    (hlife.1 [3] [.attempted] _ hcourse).2 (List.cons_ne_nil 3 [])⟩

end Delivery

end OrderFlow
