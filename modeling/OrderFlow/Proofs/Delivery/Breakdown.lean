import Mathlib.Data.List.Basic
import OrderFlow.Proofs.Delivery.Attempts
import OrderFlow.Proofs.Delivery.Text

/-!
# How much of the order stream a delivery uses

A delivery draws an order when it begins a line, so a batch that breaks down in a write has
drawn the order of that line for nothing, and a delivery that is never connected has drawn
none.  `Delivery.Spent` says for each way to end how many orders were drawn.
-/

namespace OrderFlow

/-- The calls in which a batch can break down. -/
inductive Call where
  | write
  | flush
  deriving DecidableEq

namespace Act

/-- The call in which an act shows a batch to break down: a write that takes nothing or fails
other than by being interrupted, or a flush that fails. -/
def breakdown? : Act → Option Call
  | .wrote _ (.took count) => if count = 0 then some .write else none
  | .wrote _ (.failed cause) => if cause.kind = .interrupted then none else some .write
  | .flushed (.failed _) => some .flush
  | _ => none

/-- The calls in which a batch broke down. -/
def breakdowns (acts : List Act) : List Call :=
  acts.filterMap breakdown?

attribute [simp] breakdown?

@[simp] theorem breakdowns_nil : breakdowns [] = [] := rfl

@[simp] theorem breakdowns_append (xs ys : List Act) :
    breakdowns (xs ++ ys) = breakdowns xs ++ breakdowns ys :=
  List.filterMap_append

@[simp] theorem breakdowns_cons (act : Act) (acts : List Act) :
    breakdowns (act :: acts) = act.breakdown?.toList ++ breakdowns acts := by
  simp only [breakdowns, List.filterMap_eq_flatMap_toList, List.flatMap_cons]

end Act

namespace Batch

/-- How many orders of a batch of some size were drawn, by its outcome and the call in which it
broke down: all of them if it is completed or only its flush failed, and one more than it sent
if a write failed. -/
def Spent (size : Nat) (acts : List Act) : Outcome → Prop
  | .completed sent =>
      Act.breakdowns acts = [] ∧ sent = size ∧ (Act.drawn acts).length = size
  | .failed sent =>
      (Act.breakdowns acts = [.write] ∧ sent < size ∧ (Act.drawn acts).length = sent + 1) ∨
      (Act.breakdowns acts = [.flush] ∧ sent = size ∧ (Act.drawn acts).length = size)
  | .cancelled => False

theorem Spent.congr {size : Nat} {acts acts' : List Act} {outcome : Outcome}
    (h : Spent size acts outcome) (hbroken : Act.breakdowns acts' = Act.breakdowns acts)
    (hdrawn : Act.drawn acts' = Act.drawn acts) : Spent size acts' outcome := by
  unfold Spent at h ⊢
  rwa [hbroken, hdrawn]

/-- The outcome of a batch that ended is in keeping with the orders drawn. -/
def Reckoned (size : Nat) (acts : List Act) (result : Result) : Prop :=
  Spent size acts (Delivery.conclude result).2

/-- A batch on its way has not broken down, and has drawn an order for each line begun. -/
def Unbroken (size : Nat) (acts : List Act) (batch : Batch) : Prop :=
  batch.size = size ∧ Act.breakdowns acts = [] ∧
    match batch.stage with
    | .writing sent _ => sent < size ∧ (Act.drawn acts).length = sent + 1
    | .flushing => (Act.drawn acts).length = size

theorem unbroken_openLine {size : Nat} {acts : List Act} (writes flushes : Script)
    (generator : Generator) (hunbroken : Act.breakdowns acts = [])
    (hle : (Act.drawn acts).length ≤ size) :
    Unbroken size (acts ++ (openLine size (Act.drawn acts).length generator).2.1)
      ⟨size, (openLine size (Act.drawn acts).length generator).2.2, writes, flushes⟩ := by
  unfold openLine
  by_cases hlt : (Act.drawn acts).length < size
  · rw [if_pos hlt]
    exact ⟨rfl, by simpa using hunbroken, hlt, by simp⟩
  · rw [if_neg hlt]
    have hall := Nat.le_antisymm hle (Nat.not_lt.mp hlt)
    exact ⟨rfl, by simpa using hunbroken, by simpa using hall⟩

variable {size : Nat} {acts : List Act} {batch : Batch}

theorem accept_keeps_unbroken {sent : Nat} {rest : List Char} (count : Nat)
    (generator : Generator) (hstage : batch.stage = .writing sent rest)
    (h : Unbroken size acts batch) :
    (batch.accept sent rest count generator).Keeps (Unbroken size) (Reckoned size) acts := by
  obtain ⟨rfl, hunbroken, hdrawn⟩ := h
  rw [hstage] at hdrawn
  obtain ⟨hlt, hlength⟩ := hdrawn
  refine accept_keeps_of_counts (fun _ => ?_) (fun hsome _ => ?_) fun hsome _ => ?_
  · exact Or.inl ⟨by simp [hunbroken], hlt, by simpa using hlength⟩
  · let written := acts ++ [.wrote rest (.took count), .logged .sent]
    have hwritten : (Act.drawn written).length = sent + 1 := by
      simpa [written] using hlength
    have hopen := @unbroken_openLine batch.size written batch.writes batch.flushes generator
      (by simp [written, hunbroken, hsome]) (by rw [hwritten]; exact hlt)
    rwa [hwritten] at hopen
  · exact ⟨rfl, by simp [hunbroken, hsome], hlt, by simpa using hlength⟩

/-- Every call on the connection keeps the orders drawn in step with the lines begun. -/
theorem move_keeps_unbroken (generator : Generator) (h : Unbroken size acts batch) :
    (batch.move generator).Keeps (Unbroken size) (Reckoned size) acts := by
  have hwrites : Unbroken size acts { batch with writes := batch.writes.next.2 } := h
  obtain ⟨rfl, hunbroken, hdrawn⟩ := h
  refine move_keeps_of_calls
    (fun count hstage => accept_keeps_unbroken count generator hstage hwrites)
    (fun {sent rest answer} hstage hvain => ?_) (fun hstage hbroken => ?_) (fun hstage => ?_)
    (fun hstage => ?_) fun hstage => ?_
  · have hanswer : (Act.wrote rest answer).breakdown? = none := by
      cases answer with
      | took count => cases hvain
      | notReady => rfl
      | failed cause => exact if_pos hvain
    refine ⟨rfl, ?_, ?_⟩
    · rw [Act.breakdowns_append, Act.breakdowns_cons, hanswer, hunbroken]
      rfl
    · rw [hstage] at hdrawn ⊢
      exact ⟨hdrawn.1, by simpa using hdrawn.2⟩
  · rw [hstage] at hdrawn
    exact Or.inl ⟨by simp [hunbroken, hbroken], hdrawn.1, by simpa using hdrawn.2⟩
  · rw [hstage] at hdrawn
    exact ⟨by simp [hunbroken], rfl, by simpa using hdrawn⟩
  · refine ⟨rfl, by simp [hunbroken], ?_⟩
    rw [hstage] at hdrawn ⊢
    simpa using hdrawn
  · rw [hstage] at hdrawn
    exact Or.inr ⟨by simp [hunbroken], rfl, by simpa using hdrawn⟩

end Batch

namespace Delivery

/-- The attempt to connect came to nothing, and so did the delivery. -/
structure Unconnected (timer : Timer) (plan : Plan) (peer : Peer) (acts : List Act)
    (outcome : Outcome) : Prop where
  refused : ∃ cause, CanSettle timer plan peer (.error cause)
  unestablished : Act.established ∉ acts
  unbroken : Act.breakdowns acts = []
  undrawn : Act.drawn acts = []
  nothing : outcome = .failed 0

/-- How many orders a delivery drew, by its outcome and the way in which it failed. -/
def Spent (timer : Timer) (plan : Plan) (peer : Peer) (acts : List Act) (outcome : Outcome) :
    Prop :=
  Unconnected timer plan peer acts outcome ∨
    Act.established ∈ acts ∧ Batch.Spent plan.batchSize acts outcome

/-- The outcome of a delivery that ended is in keeping with the orders drawn. -/
def Reckoned (timer : Timer) (plan : Plan) (peer : Peer) (acts : List Act)
    (result : Batch.Result) : Prop :=
  Spent timer plan peer acts (conclude result).2

/-- A delivery on its way has not broken down, and has drawn an order for each line begun. -/
def Unbroken (plan : Plan) (peer : Peer) (acts : List Act) (delivery : Delivery) : Prop :=
  match delivery.stage with
  | .unstarted => (delivery.plan = plan ∧ delivery.peer = peer) ∧ Act.established ∉ acts ∧
      Act.breakdowns acts = [] ∧ Act.drawn acts = []
  | .connecting _ => (delivery.plan = plan ∧ delivery.peer = peer) ∧ Act.established ∉ acts ∧
      Act.breakdowns acts = [] ∧ Act.drawn acts = []
  | .sending batch => Act.established ∈ acts ∧ batch.Unbroken plan.batchSize acts
  | .closing sent => Act.established ∈ acts ∧ Batch.Reckoned plan.batchSize acts (.ok sent)

variable {timer : Timer} {plan : Plan} {peer : Peer} {acts : List Act} {delivery : Delivery}

theorem connect_keeps_unbroken {since : Nat} (now : Nat) (generator : Generator)
    (hstage : delivery.stage = .connecting since) (h : Unbroken plan peer acts delivery) :
    (connect timer now delivery since generator).Keeps (Unbroken plan peer)
      (Reckoned timer plan peer) acts := by
  have hnothing := h
  rw [Unbroken, hstage] at hnothing
  obtain ⟨⟨rfl, rfl⟩, hestablished, hunbroken, hdrawn⟩ := hnothing
  refine connect_keeps_of_attempt (fun _ => h) (fun cause hattempt => ?_) fun _ => ?_
  · exact Or.inl
      ⟨⟨cause, canSettle_of_attempt hattempt⟩, hestablished, hunbroken, hdrawn, rfl⟩
  · let opened := acts ++ [.established, .logged (.connected delivery.plan.target)]
    have hopened : (Act.drawn opened).length = 0 := by
      simp [opened, hdrawn]
    have hopen := @Batch.unbroken_openLine delivery.plan.batchSize opened
      delivery.peer.writes delivery.peer.flushes generator (by simp [opened, hunbroken])
      (by rw [hopened]; exact Nat.zero_le _)
    rw [hopened] at hopen
    exact ⟨by simp, hopen⟩

theorem close_keeps_unbroken {sent : Nat} (generator : Generator)
    (hestablished : Act.established ∈ acts)
    (h : Batch.Reckoned plan.batchSize acts (.ok sent)) :
    (close delivery sent generator).Keeps (Unbroken plan peer) (Reckoned timer plan peer)
      acts := by
  obtain ⟨hunbroken, hsent, hlength⟩ := h
  refine Or.inr ⟨List.mem_append_left _ hestablished, ?_⟩
  unfold close
  dsimp only
  split
  · exact ⟨by simpa using hunbroken, hsent, by simpa using hlength⟩
  · split
    · exact ⟨by simpa using hunbroken, hsent, by simpa using hlength⟩
    · exact ⟨by simpa using hunbroken, hsent, by simpa using hlength⟩

/-- Every move of a delivery keeps the orders drawn in step with the lines begun. -/
theorem move_keeps_unbroken (now : Nat) (acts : List Act) (delivery : Delivery)
    (generator : Generator) (h : Unbroken plan peer acts delivery) :
    (move timer now delivery generator).Keeps (Unbroken plan peer) (Reckoned timer plan peer)
      acts := by
  refine move_keeps_of_stages (fun hstage => ?_)
    (fun since hstage => connect_keeps_unbroken now generator hstage h)
    (fun batch hstage => ?_) fun sent hstage => ?_
  · rw [Unbroken, hstage] at h
    simpa [Unbroken] using h
  · rw [Unbroken, hstage] at h
    obtain ⟨hestablished, hbatch⟩ := h
    refine ((Turn.keeps_mem hestablished _).and (Batch.move_keeps_unbroken generator hbatch)).imp
      (fun _ _ => id) fun acts result hreckoned => ?_
    rcases result with failure | sent
    · refine Or.inr ⟨List.mem_append_left _ hreckoned.1, ?_⟩
      simpa [Batch.Reckoned, conclude, Batch.Spent] using hreckoned.2
    · exact hreckoned
  · rw [Unbroken, hstage] at h
    exact close_keeps_unbroken generator h.1 h.2

theorem poll_keeps_unbroken (now : Nat) (acts : List Act) (delivery : Delivery)
    (generator : Generator) (h : Unbroken plan peer acts delivery) :
    (poll timer now delivery generator).Keeps (Unbroken plan peer) (Reckoned timer plan peer)
      acts :=
  Turn.poll_keeps (move_keeps_unbroken now) _ acts delivery generator h

end Delivery

end OrderFlow
