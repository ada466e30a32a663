import OrderFlow.Delivery
import OrderFlow.Proofs.Generator.Stream
import OrderFlow.Proofs.Turn

/-!
# The text of a delivery

A delivery draws its orders one after the other from the shared generator and writes
the line of each before it draws the next.  So whatever the other side takes or
refuses, the text taken is that of the orders drawn, cut in the last line at the
most, and it is whole if the delivery is completed.
-/

namespace OrderFlow

namespace Order

/-- A text made of the lines of some orders, with so many whole lines: it ends after the last
line, or anywhere before the end of the last line. -/
inductive Cut : List Order → List Char → Nat → Prop
  | whole (orders : List Order) : Cut orders (lines orders) orders.length
  | within (before : List Order) (last : Order) (taken rest : List Char)
      (line : last.line = taken ++ rest) (missing : rest ≠ []) :
      Cut (before ++ [last]) (lines before ++ taken) before.length

end Order

namespace Act

@[simp] theorem drawn_nil : drawn [] = [] := rfl

@[simp] theorem drawn_append (xs ys : List Act) : drawn (xs ++ ys) = drawn xs ++ drawn ys :=
  List.filterMap_append

@[simp] theorem drawn_cons (act : Act) (acts : List Act) :
    drawn (act :: acts) = act.drawn?.toList ++ drawn acts := by
  cases act <;> rfl

@[simp] theorem received_nil : received [] = [] := rfl

@[simp] theorem received_append (xs ys : List Act) :
    received (xs ++ ys) = received xs ++ received ys := by
  simp [received, pieces]

@[simp] theorem received_cons (act : Act) (acts : List Act) :
    received (act :: acts) = act.taken?.getD [] ++ received acts := by
  cases act with
  | wrote offered answer => cases answer <;> rfl
  | _ => rfl

attribute [simp] drawn? taken?

end Act

/-! ## Draws -/

open Generator (Yields)

namespace Turn

variable {τ ρ : Type}

/-- What a turn draws is what the generator gives. -/
def Draws (generator : Generator) (turn : Turn τ ρ) : Prop :=
  Yields generator (Act.drawn turn.acts) turn.generator

theorem poll_draws {move : τ → Generator → Turn τ ρ}
    (hmove : ∀ state generator, (move state generator).Draws generator) :
    ∀ fuel state generator, (poll move fuel state generator).Draws generator := by
  intro fuel
  induction fuel with
  | zero => exact fun _ generator => Yields.nil generator
  | succ fuel ih =>
      intro state generator
      have hturn := hmove state generator
      rw [poll]
      split
      · rename_i next _
        have hrest := Yields.append hturn (ih next _)
        simpa [Draws, Turn.after] using hrest
      · exact hturn
      · exact hturn

theorem finish_draws {move : τ → Generator → Turn τ ρ}
    (hmove : ∀ state generator, (move state generator).Draws generator) :
    ∀ fuel state generator, (finish move fuel state generator).Draws generator := by
  intro fuel
  induction fuel with
  | zero => exact fun _ generator => Yields.nil generator
  | succ fuel ih =>
      intro state generator
      have hturn := hmove state generator
      rw [finish]
      split
      · rename_i next _
        have hrest := Yields.append hturn (ih next _)
        simpa [Draws, Turn.after] using hrest
      · rename_i next _
        have hrest := Yields.append hturn (ih next _)
        simpa [Draws, Turn.after] using hrest
      · exact hturn

end Turn

namespace Batch

theorem openLine_draws (size sent : Nat) (generator : Generator) :
    Yields generator (Act.drawn (openLine size sent generator).2.1)
      (openLine size sent generator).1 := by
  unfold openLine
  split
  · exact Yields.next generator
  · exact Yields.nil generator

theorem start_draws (size : Nat) (writes flushes : Script) (generator : Generator) :
    Yields generator (Act.drawn (start size writes flushes generator).2.1)
      (start size writes flushes generator).1 :=
  openLine_draws size 0 generator

theorem accept_draws (batch : Batch) (sent : Nat) (rest : List Char) (count : Nat)
    (generator : Generator) :
    (batch.accept sent rest count generator).Draws generator := by
  unfold accept
  split
  · exact Yields.nil generator
  · split
    · simpa [Turn.Draws] using openLine_draws batch.size (sent + 1) generator
    · exact Yields.nil generator

theorem move_draws (batch : Batch) (generator : Generator) :
    (batch.move generator).Draws generator := by
  unfold move
  split
  · dsimp only
    split
    · exact accept_draws ..
    · exact accept_draws ..
    · exact Yields.nil generator
    · exact Yields.nil generator
    · split
      · exact Yields.nil generator
      · exact Yields.nil generator
  · dsimp only
    split <;> exact Yields.nil generator

end Batch

namespace Delivery

theorem connect_draws (timer : Timer) (now : Nat) (delivery : Delivery) (since : Nat)
    (generator : Generator) : (connect timer now delivery since generator).Draws generator := by
  unfold connect
  dsimp only
  split
  · exact Yields.nil generator
  · exact Yields.nil generator
  · have hdrawn := Batch.start_draws delivery.plan.batchSize delivery.peer.writes
      delivery.peer.flushes generator
    simpa [Turn.Draws] using hdrawn

theorem close_draws (delivery : Delivery) (sent : Nat) (generator : Generator) :
    (close delivery sent generator).Draws generator := by
  unfold close
  dsimp only
  split
  · exact Yields.nil generator
  · split
    · exact Yields.nil generator
    · exact Yields.nil generator

theorem move_draws (timer : Timer) (now : Nat) (delivery : Delivery) (generator : Generator) :
    (move timer now delivery generator).Draws generator := by
  unfold move
  split
  · exact Yields.nil generator
  · exact connect_draws ..
  · rename_i batch _
    have hbatch := Batch.move_draws batch generator
    dsimp only
    split
    · exact hbatch
    · exact hbatch
    · exact hbatch
    · simpa [Turn.Draws] using hbatch
  · exact close_draws ..

theorem poll_draws (timer : Timer) (now : Nat) (delivery : Delivery) (generator : Generator) :
    (poll timer now delivery generator).Draws generator :=
  Turn.poll_draws (move_draws timer now) _ delivery generator

end Delivery

/-! ## Text -/

namespace Batch

/-- The acts so far have brought the text to where a batch of some size stands. -/
def Written (size : Nat) (acts : List Act) (batch : Batch) : Prop :=
  batch.size = size ∧
    match batch.stage with
    | .writing sent rest => ∃ before last taken,
        Act.drawn acts = before ++ [last] ∧ before.length = sent ∧ sent < size ∧
        last.line = taken ++ rest ∧ rest ≠ [] ∧
        Act.received acts = Order.lines before ++ taken
    | .flushing => (Act.drawn acts).length = size ∧
        Act.received acts = Order.lines (Act.drawn acts)

/-- The acts of a batch of some size and its result: all lines were taken, or as many as its
failure says. -/
def Finished (size : Nat) (acts : List Act) : Result → Prop
  | .ok sent => sent = size ∧ (Act.drawn acts).length = size ∧
      Act.received acts = Order.lines (Act.drawn acts)
  | .error failure => Order.Cut (Act.drawn acts) (Act.received acts) failure.sent

theorem written_openLine {size : Nat} {acts : List Act} (writes flushes : Script)
    (generator : Generator) (hle : (Act.drawn acts).length ≤ size)
    (hreceived : Act.received acts = Order.lines (Act.drawn acts)) :
    Written size (acts ++ (openLine size (Act.drawn acts).length generator).2.1)
      ⟨size, (openLine size (Act.drawn acts).length generator).2.2, writes, flushes⟩ := by
  refine ⟨rfl, ?_⟩
  unfold openLine
  by_cases hlt : (Act.drawn acts).length < size
  · rw [if_pos hlt]
    exact ⟨Act.drawn acts, generator.next.1, [], by simp, rfl, hlt, rfl,
      Order.line_ne_nil _, by simp [hreceived]⟩
  · rw [if_neg hlt]
    have hlength : (Act.drawn acts).length = size := by omega
    exact ⟨by simpa using hlength, by simpa using hreceived⟩

theorem written_start {size : Nat} {acts : List Act} (writes flushes : Script)
    (generator : Generator) (hdrawn : Act.drawn acts = []) (hreceived : Act.received acts = []) :
    Written size (acts ++ (start size writes flushes generator).2.1)
      (start size writes flushes generator).2.2 := by
  have hlength : (Act.drawn acts).length = 0 := by simp [hdrawn]
  have hopen := @written_openLine size acts writes flushes generator (by simp [hdrawn])
    (by simp [hdrawn, hreceived])
  rw [hlength] at hopen
  exact hopen

/-- What a write that took so many characters leaves is written. -/
theorem accept_keeps {size sent : Nat} {acts : List Act} {batch : Batch} {rest : List Char}
    (count : Nat) (generator : Generator) (hstage : batch.stage = .writing sent rest)
    (h : Written size acts batch) :
    (batch.accept sent rest count generator).Keeps (Written size) (Finished size) acts := by
  obtain ⟨rfl, hwritten⟩ := h
  rw [hstage] at hwritten
  obtain ⟨before, last, taken, hdrawn, rfl, hlt, hline, hrest, hreceived⟩ := hwritten
  refine accept_keeps_of_counts (fun _ => ?_) (fun _ hall => ?_) fun _ hleft => ?_
  · have hcut := Order.Cut.within before last taken rest hline hrest
    simpa [Finished, hdrawn, hreceived] using hcut
  · have htake : rest.take count = rest := List.take_of_length_le hall
    -- The line is out, so the text is whole again and the next line is opened.
    let written := acts ++ [.wrote rest (.took count), .logged .sent]
    have hwhole : Act.drawn written = before ++ [last] := by
      simp [written, hdrawn]
    have htext : Act.received written = Order.lines (before ++ [last]) := by
      simp [written, hreceived, htake, hline]
    have hlength : (Act.drawn written).length = before.length + 1 := by
      simp [hwhole]
    have hopen := @written_openLine batch.size written batch.writes batch.flushes generator
      (by rw [hlength]; exact hlt) (by rw [htext, hwhole])
    rwa [hlength] at hopen
  · refine ⟨rfl, before, last, taken ++ rest.take count, by simp [hdrawn], rfl, hlt, ?_,
      fun hnil => hleft (List.drop_eq_nil_iff.mp hnil), by simp [hreceived]⟩
    rw [List.append_assoc, List.take_append_drop, hline]

/-- Every call on the connection keeps the text in step with the orders drawn. -/
theorem move_keeps {size : Nat} {acts : List Act} {batch : Batch} (generator : Generator)
    (h : Written size acts batch) :
    (batch.move generator).Keeps (Written size) (Finished size) acts := by
  have hwrites : Written size acts { batch with writes := batch.writes.next.2 } := h
  obtain ⟨rfl, hwritten⟩ := h
  refine move_keeps_of_calls (fun count hstage => accept_keeps count generator hstage hwrites)
    (fun {sent rest answer} hstage hanswer => ?_) (fun hstage _ => ?_) (fun hstage => ?_)
    (fun hstage => ?_) fun hstage => ?_
  · rw [hstage] at hwritten
    obtain ⟨before, last, taken, hdrawn, hsent, hlt, hline, hrest, hreceived⟩ := hwritten
    refine ⟨rfl, ?_⟩
    rw [hstage]
    refine ⟨before, last, taken, by simp [hdrawn], hsent, hlt, hline, hrest, ?_⟩
    cases answer with
    | took count => cases hanswer
    | _ => simp [hreceived]
  · rw [hstage] at hwritten
    obtain ⟨before, last, taken, hdrawn, hsent, hlt, hline, hrest, hreceived⟩ := hwritten
    have hcut := Order.Cut.within before last taken _ hline hrest
    simpa [Finished, hdrawn, hreceived, hsent] using hcut
  · rw [hstage] at hwritten
    exact ⟨rfl, by simpa using hwritten.1, by simpa using hwritten.2⟩
  · rw [hstage] at hwritten
    simpa [Written, hstage] using hwritten
  · rw [hstage] at hwritten
    have hcut := Order.Cut.whole (Act.drawn acts)
    simpa [Finished, hwritten.2, hwritten.1] using hcut

end Batch

namespace Delivery

/-- The acts so far have brought the text to where a delivery of a batch of some size stands. -/
def Written (size : Nat) (acts : List Act) (delivery : Delivery) : Prop :=
  match delivery.stage with
  | .unstarted =>
      delivery.plan.batchSize = size ∧ Act.drawn acts = [] ∧ Act.received acts = []
  | .connecting _ =>
      delivery.plan.batchSize = size ∧ Act.drawn acts = [] ∧ Act.received acts = []
  | .sending batch => batch.Written size acts
  | .closing sent => Batch.Finished size acts (.ok sent)

theorem connect_keeps_text {size since : Nat} {acts : List Act} {delivery : Delivery}
    (timer : Timer) (now : Nat) (generator : Generator)
    (hstage : delivery.stage = .connecting since) (h : Written size acts delivery) :
    (connect timer now delivery since generator).Keeps (Written size)
      (Batch.Finished size) acts := by
  have hnothing := h
  rw [Written, hstage] at hnothing
  obtain ⟨rfl, hdrawn, hreceived⟩ := hnothing
  refine connect_keeps_of_attempt (fun _ => h) (fun _ _ => ?_) fun _ => ?_
  · have hcut := Order.Cut.whole []
    simpa [Batch.Finished, hdrawn, hreceived] using hcut
  · exact Batch.written_start _ _ generator (by simp [hdrawn]) (by simp [hreceived])

theorem close_keeps_text {size sent : Nat} {acts : List Act} (delivery : Delivery)
    (generator : Generator) (h : Batch.Finished size acts (.ok sent)) :
    (close delivery sent generator).Keeps (Written size) (Batch.Finished size) acts := by
  unfold close
  dsimp only
  split
  · simpa [Turn.Keeps, Batch.Finished] using h
  · split
    · simpa [Turn.Keeps, Batch.Finished] using h
    · simpa [Turn.Keeps, Batch.Finished] using h

/-- Every move of a delivery keeps the text in step with the orders drawn. -/
theorem move_keeps_text (timer : Timer) (now : Nat) {size : Nat} (acts : List Act)
    (delivery : Delivery) (generator : Generator) (h : Written size acts delivery) :
    (move timer now delivery generator).Keeps (Written size) (Batch.Finished size) acts := by
  refine move_keeps_of_stages (fun hstage => ?_)
    (fun since hstage => connect_keeps_text timer now generator hstage h)
    (fun batch hstage => ?_) fun sent hstage => ?_
  · rw [Written, hstage] at h
    simpa [Written] using h
  · rw [Written, hstage] at h
    refine (Batch.move_keeps generator h).imp (fun _ _ => id) fun acts result hfinished => ?_
    rcases result with failure | sent
    · simpa [Concludes, Batch.Finished] using hfinished
    · exact hfinished
  · rw [Written, hstage] at h
    exact close_keeps_text delivery generator h

theorem poll_keeps_text (timer : Timer) (now : Nat) {size : Nat} (acts : List Act)
    (delivery : Delivery) (generator : Generator) (h : Written size acts delivery) :
    (poll timer now delivery generator).Keeps (Written size) (Batch.Finished size) acts :=
  Turn.poll_keeps (move_keeps_text timer now) _ acts delivery generator h

/-- Wherever a delivery stands, the text taken is that of its orders, cut in the last line at
the most. -/
theorem cut_of_written {size : Nat} {acts : List Act} {delivery : Delivery}
    (h : Written size acts delivery) :
    ∃ sent, Order.Cut (Act.drawn acts) (Act.received acts) sent := by
  have hwhole : Act.received acts = Order.lines (Act.drawn acts) →
      ∃ sent, Order.Cut (Act.drawn acts) (Act.received acts) sent := by
    intro hreceived
    rw [hreceived]
    exact ⟨_, .whole _⟩
  unfold Written at h
  split at h
  · exact hwhole (by simp [h.2.1, h.2.2])
  · exact hwhole (by simp [h.2.1, h.2.2])
  · rename_i batch _
    obtain ⟨_, hstage⟩ := h
    split at hstage
    · obtain ⟨before, last, taken, hdrawn, _, _, hline, hrest, hreceived⟩ := hstage
      rw [hdrawn, hreceived]
      exact ⟨_, .within before last taken _ hline hrest⟩
    · exact hwhole hstage.2
  · exact hwhole h.2.2

@[simp] theorem drawn_drop (delivery : Delivery) : Act.drawn delivery.drop = [] := by
  unfold drop
  split <;> rfl

@[simp] theorem received_drop (delivery : Delivery) : Act.received delivery.drop = [] := by
  unfold drop
  split <;> rfl

@[simp] theorem drawn_conclude (result : Batch.Result) :
    Act.drawn (conclude result).1 = [] := by
  cases result <;> rfl

@[simp] theorem received_conclude (result : Batch.Result) :
    Act.received (conclude result).1 = [] := by
  cases result <;> rfl

end Delivery

end OrderFlow
