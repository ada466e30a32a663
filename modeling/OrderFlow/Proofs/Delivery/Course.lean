import OrderFlow.Proofs.Delivery.Connection
import OrderFlow.Proofs.Delivery.Sending

/-!
# The course of a tick

The delivery of a tick is polled now and then, each time with whatever generator the others
have left, and between two polls it waits for its connection or for a call on it.  What every
poll keeps is kept over the whole course, and a tick that is dropped is dropped while it waits.
-/

namespace OrderFlow

/-- What holds where work stands: of its state, or of its result if it ended. -/
def Progress.Holds {τ ρ : Type} (alive : τ → Prop) (done : ρ → Prop) : Progress τ ρ → Prop
  | .again state => alive state
  | .waiting state => alive state
  | .ended result => done result

namespace Delivery

/-- What a delivery of a peer has done that was polled at some instants, and where it stands. -/
inductive Course (timer : Timer) (plan : Plan) (peer : Peer) :
    List Nat → List Act → Progress Delivery Batch.Result → Prop
  | start : Course timer plan peer [] [] (.waiting (start plan peer))
  | poll {polls : List Nat} {acts : List Act} {delivery : Delivery}
      (before : Course timer plan peer polls acts (.waiting delivery)) (now : Nat)
      (generator : Generator) :
      Course timer plan peer (polls ++ [now]) (acts ++ (poll timer now delivery generator).acts)
        (poll timer now delivery generator).progress

/-- The last that a tick does: one whose delivery ended says how, and the delivery of one that is
dropped is dropped with it. -/
def lastActs : Progress Delivery Batch.Result → List Act
  | .again delivery => delivery.drop
  | .waiting delivery => delivery.drop
  | .ended result => (conclude result).1

/-- A delivery waits for its connection, or for a call on it. -/
def Waits (delivery : Delivery) : Prop :=
  (∃ since, delivery.stage = .connecting since) ∨ ∃ batch, delivery.stage = .sending batch

variable {timer : Timer} {plan : Plan} {peer : Peer} {polls : List Nat} {acts : List Act}
  {progress : Progress Delivery Batch.Result} {delivery : Delivery}

/-- What holds at the start and is kept by every poll holds all along. -/
theorem Course.holds {alive : List Act → Delivery → Prop}
    {done : List Act → Batch.Result → Prop}
    (hpoll : ∀ now acts delivery generator, alive acts delivery →
      (Delivery.poll timer now delivery generator).Keeps alive done acts)
    (hstart : alive [] (Delivery.start plan peer))
    (h : Course timer plan peer polls acts progress) :
    progress.Holds (alive acts) (done acts) := by
  induction h with
  | start => exact hstart
  | @poll _ acts delivery _ now generator ih =>
      have hturn := hpoll now acts delivery generator ih
      unfold Turn.Keeps at hturn
      unfold Progress.Holds
      split
      · rename_i hprogress
        rw [hprogress] at hturn
        exact hturn
      · rename_i hprogress
        rw [hprogress] at hturn
        exact hturn
      · rename_i hprogress
        rw [hprogress] at hturn
        exact hturn

/-! ## Where a delivery waits -/

theorem waits_of_move {now : Nat} {generator : Generator} {next : Delivery}
    (h : (move timer now delivery generator).progress = .waiting next) : next.Waits := by
  unfold move at h
  split at h
  · cases h
  · rename_i since hstage
    have hnext : next = delivery := by
      unfold connect at h
      dsimp only at h
      split at h
      · exact (Progress.waiting.inj h).symm
      · cases h
      · cases h
    exact Or.inl ⟨since, hnext ▸ hstage⟩
  · dsimp only at h
    split at h
    · cases h
    · cases h
      exact Or.inr ⟨_, rfl⟩
    · cases h
    · cases h
  · cases h

/-- A move after which a delivery can go on at once leaves less to do. -/
theorem load_lt_of_again {now : Nat} {generator : Generator} {next : Delivery}
    (halive : Unbroken plan peer acts delivery)
    (h : (move timer now delivery generator).progress = .again next) :
    next.load < delivery.load := by
  unfold move at h
  split at h
  · rename_i hstage
    cases h
    simp [load, hstage]
  · rename_i since hstage
    unfold connect at h
    dsimp only at h
    split at h
    · cases h
    · cases h
    · cases h
      have hopen := Batch.load_openLine_le delivery.plan.batchSize 0 delivery.peer.writes
        delivery.peer.flushes generator
      simp only [load, hstage]
      exact Nat.succ_lt_succ (Nat.lt_succ_of_le hopen)
  · rename_i batch hstage
    rw [Unbroken, hstage] at halive
    obtain ⟨-, hsize, -, hdrawn⟩ := halive
    have hload : delivery.load = batch.load + 1 := by
      simp [load, hstage]
    rw [hload]
    dsimp only at h
    split at h
    · rename_i batch' hagain
      cases h
      refine Nat.succ_lt_succ (Batch.load_lt_of_again (fun sent rest hwriting => ?_) hagain)
      rw [hwriting] at hdrawn
      rw [hsize]
      exact hdrawn.1
    · cases h
    · cases h
      exact Nat.succ_lt_succ batch.load_pos
    · cases h
  · cases h

theorem waits_of_poll {now : Nat} {generator : Generator} {next : Delivery}
    (halive : Unbroken plan peer acts delivery)
    (h : (poll timer now delivery generator).progress = .waiting next) : next.Waits := by
  obtain ⟨last, later, hlast⟩ := Turn.exists_move_of_waiting load_pos
    (fun acts state generator next hstate hagain => by
      have hkept : (move timer now state generator).Keeps _ _ acts :=
        move_keeps_unbroken now acts state generator hstate
      rw [Turn.Keeps, hagain] at hkept
      exact ⟨hkept, load_lt_of_again hstate hagain⟩)
    _ acts delivery generator next halive (Nat.le_refl _) h
  exact waits_of_move hlast

theorem unbroken_start (plan : Plan) (peer : Peer) : (start plan peer).Unbroken plan peer [] := by
  simp [Unbroken, start]

/-- A delivery that is on its way was not polled yet, or waits. -/
theorem Course.waits (h : Course timer plan peer polls acts (.waiting delivery)) :
    (polls = [] ∧ acts = [] ∧ delivery = Delivery.start plan peer) ∨ delivery.Waits := by
  generalize hprogress : Progress.waiting delivery = progress at h
  cases h with
  | start =>
      cases hprogress
      exact Or.inl ⟨rfl, rfl, rfl⟩
  | poll before now generator =>
      have halive := before.holds poll_keeps_unbroken (unbroken_start plan peer)
      exact Or.inr (waits_of_poll halive hprogress.symm)

/-! ## Ticks alone -/

/-- A delivery that is followed to its end takes a course. -/
theorem Course.follow : ∀ {fuel now polls acts delivery} generator {report},
    Course timer plan peer polls acts (.waiting delivery) →
      Delivery.follow timer fuel now delivery generator = some report →
        ∃ polls', Course timer plan peer polls' (acts ++ report.acts) (.ended report.result) := by
  intro fuel
  induction fuel with
  | zero =>
      intro now polls acts delivery generator report _ hreport
      cases hreport
  | succ fuel ih =>
      intro now polls acts delivery generator report h hreport
      have hpolled := h.poll now generator
      rcases follow_cases hreport with
        ⟨result, hprogress, rfl⟩ | ⟨next, instant, later, hprogress, _, hlater, rfl⟩
      · rw [hprogress] at hpolled
        exact ⟨_, hpolled⟩
      · have hwaiting := hprogress.resolve_left (Turn.poll_ne_again _ _ _ _ next)
        rw [hwaiting] at hpolled
        obtain ⟨polls', hcourse⟩ := ih _ hpolled hlater
        rw [List.append_assoc] at hcourse
        exact ⟨polls', hcourse⟩

theorem course_of_deliver {now : Nat} {generator : Generator} {report : Report}
    (h : deliver timer now plan peer generator = some report) :
    ∃ polls, Course timer plan peer polls report.acts (.ended report.result) :=
  Course.start.follow generator h

end Delivery

end OrderFlow
