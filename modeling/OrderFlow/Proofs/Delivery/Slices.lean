import Mathlib.Algebra.Ring.Nat
import OrderFlow.Proofs.Delivery.Ending
import OrderFlow.Proofs.Delivery.Reports

/-!
# Deliveries one after the other

Deliveries that follow each other on one generator cut its order stream into slices.  A slice
is as long as its batch if the delivery completes or only its flush fails, one order longer
than what was sent if a write fails, and empty if connecting fails; and from a peer that takes
each write whole or not at all the slice begins with just the orders that were sent.
-/

namespace OrderFlow

namespace Order

theorem length_lines {orders : List Order}
    (h : ∀ order ∈ orders, order.line.length = Generator.lineWidth) :
    (lines orders).length = orders.length * Generator.lineWidth := by
  induction orders with
  | nil => rfl
  | cons order orders ih =>
      rw [lines_cons, List.length_append, h order List.mem_cons_self,
        ih fun other hother => h other (List.mem_cons_of_mem _ hother), List.length_cons,
        Nat.succ_mul, Nat.add_comm]

/-- A text as long as its whole lines consists of them. -/
theorem Cut.eq_lines {orders : List Order} {text : List Char} {sent : Nat}
    (h : Cut orders text sent)
    (hwidth : ∀ order ∈ orders, order.line.length = Generator.lineWidth)
    (hlength : text.length = sent * Generator.lineWidth) : text = lines (orders.take sent) := by
  rcases h with _ | ⟨before, last, taken, rest, hline, hmissing⟩
  · rw [List.take_length]
  · have hbefore := length_lines fun order horder =>
      hwidth order (List.mem_append_left _ horder)
    have htaken : taken = [] := by
      rw [List.length_append, hbefore] at hlength
      exact List.length_eq_zero_iff.mp (by omega)
    rw [htaken, List.append_nil, List.take_left]

end Order

namespace Act

/-- How many orders a tick takes from the stream, by its outcome and the call in which it broke
down: the whole batch if it completed or its flush failed, one more than it sent if a write
failed, and none if it was never connected. -/
def ordersUsed (size : Nat) (acts : List Act) : Outcome → Nat
  | .completed _ => size
  | .failed sent =>
      match breakdowns acts with
      | [] => 0
      | .write :: _ => sent + 1
      | .flush :: _ => size
  | .cancelled => 0

end Act

namespace Delivery

variable {timer : Timer} {plan : Plan} {peer : Peer} {acts : List Act} {outcome : Outcome}

theorem Spent.length_drawn (h : Spent timer plan peer acts outcome) :
    (Act.drawn acts).length = Act.ordersUsed plan.batchSize acts outcome := by
  unfold Act.ordersUsed
  rcases h with hunconnected | ⟨-, hspent⟩
  · rw [hunconnected.nothing, hunconnected.undrawn, hunconnected.unbroken]
    rfl
  · cases outcome with
    | completed sent => exact hspent.2.2
    | failed sent =>
        rcases hspent with ⟨hbroken, -, hlength⟩ | ⟨hbroken, -, hlength⟩
        · rw [hbroken]
          exact hlength
        · rw [hbroken]
          exact hlength
    | cancelled => exact hspent.elim

/-- What a tick makes of the stream of a generator from a position on: it draws the orders of a
slice, and of writes that are taken whole or not at all just the lines sent are left. -/
structure Slice (generator : Generator) (timer : Timer) (plan : Plan) (peer : Peer)
    (first : Nat) (acts : List Act) (outcome : Outcome) : Prop
    extends Concluded timer plan peer acts outcome where
  drawn : Act.drawn acts =
    (List.range' first (Act.ordersUsed plan.batchSize acts outcome)).map generator.orderAt
  whole : peer.TakesWhole → Act.received acts =
    Order.lines ((List.range' first outcome.sent).map generator.orderAt)

theorem take_map_range' {α : Type} (f : Nat → α) {first count more : Nat} (h : count ≤ more) :
    ((List.range' first more).map f).take count = (List.range' first count).map f := by
  obtain ⟨rest, rfl⟩ := Nat.exists_eq_add_of_le h
  rw [← List.range'_append_1, List.map_append, List.take_left' (by simp)]

/-- A text as long as the lines that were sent is their text. -/
theorem received_of_length {generator : Generator} {first used sent : Nat}
    (hdrawn : Act.drawn acts = (List.range' first used).map generator.orderAt)
    (htext : Order.Cut (Act.drawn acts) (Act.received acts) sent)
    (hlength : (Act.received acts).length = sent * Generator.lineWidth) :
    Act.received acts = Order.lines ((List.range' first sent).map generator.orderAt) := by
  have hsent := htext.sent_le
  rw [hdrawn] at htext hsent
  rw [List.length_map, List.length_range'] at hsent
  have hwidth : ∀ order ∈ (List.range' first used).map generator.orderAt,
      order.line.length = Generator.lineWidth := by
    intro order horder
    obtain ⟨i, _, rfl⟩ := List.mem_map.mp horder
    exact generator.length_line_orderAt i
  rw [htext.eq_lines hwidth hlength, take_map_range' _ hsent]

/-- A tick that is concluded and drew consecutive orders has taken a slice. -/
theorem Concluded.slice {generator : Generator} {first : Nat}
    (h : Concluded timer plan peer acts outcome)
    (hdrawn : Act.drawn acts =
      (List.range' first (Act.drawn acts).length).map generator.orderAt) :
    Slice generator timer plan peer first acts outcome where
  toConcluded := h
  drawn := by rwa [h.spent.length_drawn] at hdrawn
  whole := fun hwhole => by
    obtain ⟨answer, -, -, hverdict⟩ := h.verdict
    exact received_of_length hdrawn h.text (hwhole.taken hverdict)

/-! ## One delivery -/

/-- How many orders of the stream a delivery of some size took. -/
def Report.ordersUsed (size : Nat) (report : Report) : Nat :=
  Act.ordersUsed size report.tickActs report.outcome

/-- A delivery takes a slice of the stream and leaves the generator behind it. -/
theorem slice_of_deliver {generator : Generator} {first now : Nat} {report : Report}
    (h : deliver timer now plan peer (generator.after first) = some report) :
    Slice generator timer plan peer first report.tickActs report.outcome ∧
      report.generator = generator.after (first + report.ordersUsed plan.batchSize) := by
  have hyields := follow_draws h
  have hconcluded : Concluded timer plan peer report.tickActs report.outcome :=
    deliver_keeps poll_keeps_underway (underway_start timer plan peer) h
  have hdrawn : Act.drawn report.tickActs = Act.drawn report.acts := by
    simp [Report.tickActs]
  constructor
  · apply hconcluded.slice
    rw [hdrawn, hyields.inOrder, Generator.length_firstOrders, Generator.firstOrders,
      List.range'_eq_map_range, List.map_map]
    exact List.map_congr_left fun i _ => generator.orderAt_after first i
  · rw [hyields.moved, Generator.after_after, ← hdrawn, hconcluded.spent.length_drawn]
    rfl

/-! ## Many deliveries -/

/-- Reports of deliveries one after the other, each of which takes the next slice of the stream
of a generator. -/
inductive Slices (generator : Generator) (timer : Timer) :
    (first : Nat) → List (Plan × Peer) → List Report → (last : Nat) → Prop
  | nil (first : Nat) : Slices generator timer first [] [] first
  | cons {first last : Nat} {plan : Plan} {peer : Peer} {report : Report}
      {rest : List (Plan × Peer)} {reports : List Report}
      (slice : Slice generator timer plan peer first report.tickActs report.outcome)
      (slices : Slices generator timer (first + report.ordersUsed plan.batchSize) rest reports
        last) :
      Slices generator timer first ((plan, peer) :: rest) (report :: reports) last

theorem Slices.length_eq {generator : Generator} {first last : Nat}
    {ticks : List (Plan × Peer)} {reports : List Report}
    (h : Slices generator timer first ticks reports last) : reports.length = ticks.length := by
  induction h with
  | nil first => rfl
  | cons slice slices ih => rw [List.length_cons, List.length_cons, ih]

theorem slices_of_deliverAll {generator : Generator} : ∀ {ticks first now reports},
    deliverAll timer now ticks (generator.after first) = some reports →
      ∃ last, Slices generator timer first ticks reports last := by
  intro ticks
  induction ticks with
  | nil =>
      intro first now reports hreports
      obtain rfl : [] = reports := Option.some.inj hreports
      exact ⟨first, .nil first⟩
  | cons tick ticks ih =>
      obtain ⟨plan, peer⟩ := tick
      intro first now reports hreports
      obtain ⟨report, hreport, hrest⟩ := Option.bind_eq_some_iff.mp hreports
      obtain ⟨others, hothers, hall⟩ := Option.bind_eq_some_iff.mp hrest
      obtain rfl := Option.some.inj hall
      obtain ⟨hslice, hgenerator⟩ := slice_of_deliver hreport
      rw [hgenerator] at hothers
      obtain ⟨last, hslices⟩ := ih hothers
      exact ⟨last, .cons hslice hslices⟩

/-- Deliveries one after the other can all end: the attempt of each to connect, begun when the
delivery before it ended, settles with something on which its peer has a verdict. -/
def AllSettle (timer : Timer) : Nat → List (Plan × Peer) → Prop
  | _, [] => True
  | now, (plan, peer) :: rest =>
      ∃ instant answer, settlement? timer plan peer now = some (instant, answer) ∧
        (peer.verdict plan.batchSize answer).isSome ∧ AllSettle timer instant rest

/-- Deliveries one after the other all end exactly if each of their peers, in its turn, has a
verdict. -/
theorem deliverAll_isSome_iff : ∀ {now ticks generator},
    (deliverAll timer now ticks generator).isSome ↔ AllSettle timer now ticks := by
  intro now ticks
  induction ticks generalizing now with
  | nil => simp [deliverAll, AllSettle]
  | cons tick ticks ih =>
      obtain ⟨plan, peer⟩ := tick
      intro generator
      have hends := deliver_isSome_iff timer now plan peer generator
      rw [deliverAll, AllSettle]
      cases hreport : deliver timer now plan peer generator with
      | none =>
          rw [hreport] at hends
          refine iff_of_false (by simp) ?_
          rintro ⟨instant, answer, hsettled, hsome, -⟩
          simpa using hends.mpr ⟨instant, answer, hsettled, hsome⟩
      | some report =>
          obtain ⟨answer, hsettled, hdecided⟩ := settlement?_of_deliver hreport
          have hrest := @ih report.endedAt report.generator
          have hdone : (deliverAll timer report.endedAt ticks report.generator).isSome ↔
              (do let report ← some report
                  let reports ← deliverAll timer report.endedAt ticks report.generator
                  return report :: reports).isSome := by
            cases hothers : deliverAll timer report.endedAt ticks report.generator <;>
              simp [hothers]
          rw [← hdone, hrest]
          constructor
          · exact fun hall => ⟨report.endedAt, answer, hsettled,
              Option.isSome_of_eq_some hdecided, hall⟩
          · rintro ⟨instant, answer', hother, -, hall⟩
            rw [hsettled] at hother
            cases hother
            exact hall

/-- Deliveries that can all end whenever they are begun can all end one after the other. -/
theorem allSettle_of_forall {ticks : List (Plan × Peer)}
    (h : ∀ tick ∈ ticks, ∀ now, ∃ instant answer,
      settlement? timer tick.1 tick.2 now = some (instant, answer) ∧
        (tick.2.verdict tick.1.batchSize answer).isSome) (now : Nat) :
    AllSettle timer now ticks := by
  induction ticks generalizing now with
  | nil => trivial
  | cons tick ticks ih =>
      obtain ⟨htick, hticks⟩ := List.forall_mem_cons.mp h
      obtain ⟨instant, answer, hsettled, hsome⟩ := htick now
      exact ⟨instant, answer, hsettled, hsome, ih hticks instant⟩

/-! ## Peers that take so many lines -/

/-- How far apart the slices of batches begin of which only so many lines are taken. -/
def pitch (size lines : Nat) : Nat :=
  if size ≤ lines then size else lines + 1

/-- A peer that takes so many lines is connected to at once. -/
theorem settlement?_of_takesLines {lines now : Nat} (h : peer.TakesLines lines) :
    settlement? timer plan peer now = some (now, .ok ()) := by
  have hanswer : peer.connecting.answer? = some (0, .ok ()) := by
    rw [h.connects]
    rfl
  exact settlement?_of_attempt_at_start (attempt?_of_answered hanswer (Nat.le_refl _))

/-- A peer that takes so many lines is sent them, or the whole batch if that is less, from the
beginning of the slice. -/
theorem Slice.of_takesLines {generator : Generator} {first lines : Nat}
    (h : Slice generator timer plan peer first acts outcome) (hpeer : peer.TakesLines lines) :
    outcome.sent = min lines plan.batchSize ∧
      Act.ordersUsed plan.batchSize acts outcome = pitch plan.batchSize lines ∧
      Act.received acts = Order.lines
        ((List.range' first (min lines plan.batchSize)).map generator.orderAt) := by
  obtain ⟨answer, hcan, -, hverdict⟩ := h.verdict
  have hconnected : answer = .ok () := by
    cases answer with
    | error cause => exact absurd hcan (Peer.not_canSettle_error hpeer.connects)
    | ok _ => rfl
  rw [hconnected] at hverdict
  obtain ⟨houtcome, hlength⟩ :=
    Prod.mk.inj (Option.some.inj ((hpeer.verdict plan.batchSize).symm.trans hverdict))
  have hsent : outcome.sent = min lines plan.batchSize := by
    rw [← houtcome]
    split
    · rename_i hall
      exact (Nat.min_eq_right hall).symm
    · rename_i hpart
      exact (Nat.min_eq_left (Nat.le_of_not_le hpart)).symm
  refine ⟨hsent, ?_, ?_⟩
  · rw [pitch]
    by_cases hall : plan.batchSize ≤ lines
    · rw [if_pos hall] at houtcome ⊢
      rw [← houtcome, Act.ordersUsed]
    · rw [if_neg hall] at houtcome ⊢
      subst houtcome
      rcases h.spent with hunconnected | ⟨-, hbroken | hbroken⟩
      · obtain ⟨cause, hrefused⟩ := hunconnected.refused
        exact absurd hrefused (Peer.not_canSettle_error hpeer.connects)
      · rw [Act.ordersUsed, hbroken.1]
      · exact absurd (Nat.le_of_eq hbroken.2.1.symm) hall
  · rw [← hsent]
    apply received_of_length h.drawn h.text
    rw [← hlength, hsent]

/-- Slices of peers that take so many lines are equally long, and what is sent adds up. -/
theorem Slices.of_takesLines {generator : Generator} {first last size lines : Nat}
    {ticks : List (Plan × Peer)} {reports : List Report}
    (h : Slices generator timer first ticks reports last)
    (hticks : ∀ tick ∈ ticks, tick.1.batchSize = size ∧ tick.2.TakesLines lines) :
    last = first + ticks.length * pitch size lines ∧
      (reports.map fun report => report.outcome.sent).sum = ticks.length * min lines size ∧
      ∀ i report, reports[i]? = some report →
        Act.received report.tickActs = Order.lines
          ((List.range' (first + i * pitch size lines) (min lines size)).map
            generator.orderAt) := by
  induction h with
  | nil first => simp
  | @cons first last plan peer report rest reports slice slices ih =>
      obtain ⟨⟨hsize, hpeer⟩, hrest⟩ := List.forall_mem_cons.mp hticks
      obtain rfl : plan.batchSize = size := hsize
      obtain ⟨hsent, hused, hreceived⟩ := slice.of_takesLines hpeer
      obtain ⟨hlast, hsum, hreports⟩ := ih hrest
      rw [Report.ordersUsed, hused] at hlast hreports
      refine ⟨?_, ?_, ?_⟩
      · rw [hlast, List.length_cons, Nat.succ_mul, Nat.add_assoc,
          Nat.add_comm (pitch plan.batchSize lines)]
      · rw [List.map_cons, List.sum_cons, hsum, hsent, List.length_cons, Nat.succ_mul,
          Nat.add_comm]
      · intro i later hlater
        rcases i with - | i
        · obtain rfl : report = later := Option.some.inj hlater
          rw [Nat.zero_mul, Nat.add_zero]
          exact hreceived
        · rw [hreports i later hlater, Nat.succ_mul]
          have hposition : first + pitch plan.batchSize lines + i * pitch plan.batchSize lines =
              first + (i * pitch plan.batchSize lines + pitch plan.batchSize lines) := by
            omega
          rw [hposition]

end Delivery

end OrderFlow
