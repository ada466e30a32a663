import OrderFlow.Proofs.Delivery.Connection
import OrderFlow.Proofs.Delivery.Sending

/-!
# What a delivery does once

A delivery attempts to connect once, in its first move.  It closes its connection in good order
once its batch is out and flushed, and never otherwise.  What becomes of the closing shows in
the log, at a level that is read when something is looked into, and nowhere else.
-/

namespace OrderFlow

namespace Act

/-- How closing a connection in good order came out, if the act is that. -/
def closing? : Act → Option (Option Failure)
  | .closed failure => some failure
  | _ => none

/-- How closings in good order came out. -/
def closings (acts : List Act) : List (Option Failure) :=
  acts.filterMap closing?

attribute [simp] closing?

@[simp] theorem closings_nil : closings [] = [] := rfl

@[simp] theorem closings_append (xs ys : List Act) :
    closings (xs ++ ys) = closings xs ++ closings ys :=
  List.filterMap_append

@[simp] theorem closings_cons (act : Act) (acts : List Act) :
    closings (act :: acts) = act.closing?.toList ++ closings acts := by
  cases act <;> rfl

/-- The connection was closed in good order, and what is logged after that is of no more than
debugging level. -/
def ClosedQuietly (acts : List Act) : Prop :=
  ∃ before failure after, acts = before ++ .closed failure :: after ∧ closings before = [] ∧
    closings after = [] ∧ ∀ event ∈ events after, event.level = .debug

theorem ClosedQuietly.closings_eq {acts : List Act} (h : ClosedQuietly acts) :
    ∃ failure, closings acts = [failure] := by
  obtain ⟨before, failure, after, rfl, hbefore, hafter, -⟩ := h
  exact ⟨failure, by simp [hbefore, hafter]⟩

end Act

namespace Batch

variable {acts : List Act}

theorem closings_openLine (size sent : Nat) (generator : Generator) :
    Act.closings (openLine size sent generator).2.1 = [] :=
  filterMap_openLine (fun _ => rfl) size sent generator

/-- No call of a batch closes the connection. -/
theorem move_keeps_unclosed (batch : Batch) (generator : Generator)
    (h : Act.closings acts = []) :
    (batch.move generator).Keeps (fun acts _ => Act.closings acts = [])
      (fun acts _ => Act.closings acts = []) acts := by
  refine move_keeps_of_calls (fun count _ => ?_) (fun _ _ => by simpa using h)
    (fun _ _ => by simpa using h) (fun _ => by simpa using h) (fun _ => by simpa using h)
    (fun _ => by simpa using h)
  exact accept_keeps_of_counts (fun _ => by simpa using h)
    (fun _ _ => by simp [h, closings_openLine]) (fun _ _ => by simpa using h)

end Batch

namespace Delivery

variable {timer : Timer} {acts : List Act} {delivery : Delivery}

/-! ## Attempts to connect -/

/-- How often a delivery has attempted to connect. -/
def attempts (delivery : Delivery) : Nat :=
  match delivery.stage with
  | .unstarted => 0
  | _ => 1

/-- The attempts to connect so far are those of the stage at which a delivery stands. -/
def Attempted (acts : List Act) (delivery : Delivery) : Prop :=
  acts.count .attempted = delivery.attempts

/-- What is done while the connection is held is no attempt to connect. -/
theorem count_attempted_append {more : List Act} {link : Link}
    (h : Link.held.after? more = some link) :
    (acts ++ more).count .attempted = acts.count .attempted := by
  have hheld : Link.held ≠ .unopened := by decide
  rw [List.count_append, List.count_eq_zero.mpr (Link.attempted_not_mem hheld h), Nat.add_zero]

/-- The first move of a delivery attempts to connect, and no other move does. -/
theorem move_keeps_attempted (now : Nat) (acts : List Act) (delivery : Delivery)
    (generator : Generator) (h : Attempted acts delivery) :
    (move timer now delivery generator).Keeps Attempted
      (fun acts _ => acts.count .attempted = 1) acts := by
  have hcount : ∀ {stage}, delivery.stage = stage →
      acts.count .attempted = attempts { delivery with stage } := by
    rintro stage rfl
    exact h
  refine move_keeps_of_stages (fun hstage => ?_) (fun since hstage => ?_)
    (fun batch hstage => ?_) fun sent hstage => ?_
  · have hnone : acts.count .attempted = 0 := hcount hstage
    simp [Attempted, attempts, hnone]
  · have hone : acts.count .attempted = 1 := hcount hstage
    refine connect_keeps_of_attempt (fun _ => h) (fun _ _ => hone) fun _ => ?_
    have hdrawn := Batch.after?_openLine delivery.plan.batchSize 0 generator
    rw [Attempted, count_attempted_append hdrawn]
    simpa [attempts] using hone
  · have hone : acts.count .attempted = 1 := hcount hstage
    have hmoved := (@count_attempted_append acts _ _ (Batch.after?_move batch generator)).trans
      hone
    unfold Turn.Keeps
    split
    · exact hmoved
    · exact hmoved
    · rename_i result _
      cases result with
      | ok sent => exact hmoved
      | error failure => simpa [Concludes] using hmoved
  · have hone : acts.count .attempted = 1 := hcount hstage
    unfold close
    dsimp only
    split
    · simpa [Turn.Keeps] using hone
    · split
      · simpa [Turn.Keeps] using hone
      · simpa [Turn.Keeps] using hone

theorem poll_keeps_attempted (now : Nat) (acts : List Act) (delivery : Delivery)
    (generator : Generator) (h : Attempted acts delivery) :
    (poll timer now delivery generator).Keeps Attempted (fun acts _ => acts.count .attempted = 1)
      acts :=
  Turn.poll_keeps (move_keeps_attempted now) _ acts delivery generator h

/-! ## Closing in good order -/

/-- A delivery on its way has not closed its connection, and its batch was flushed if it is about
to. -/
def Unclosed (acts : List Act) (delivery : Delivery) : Prop :=
  Act.closings acts = [] ∧
    match delivery.stage with
    | .closing _ => Act.endings acts = [.flushed]
    | _ => Act.endings acts = []

/-- A delivery that ended has closed its connection just if its batch was flushed. -/
def ClosedIfFlushed (acts : List Act) : Batch.Result → Prop
  | .ok _ => Act.endings acts = [.flushed] ∧ Act.ClosedQuietly acts
  | .error _ => .flushed ∉ Act.endings acts ∧ Act.closings acts = []

theorem connect_keeps_unclosed {since : Nat} (now : Nat) (generator : Generator)
    (hstage : delivery.stage = .connecting since) (h : Unclosed acts delivery) :
    (connect timer now delivery since generator).Keeps Unclosed ClosedIfFlushed acts := by
  have hnothing := h
  rw [Unclosed, hstage] at hnothing
  obtain ⟨hunclosed, hunended⟩ := hnothing
  refine connect_keeps_of_attempt (fun _ => h) (fun _ _ => ?_) fun _ => ?_
  · exact ⟨by simp [hunended], hunclosed⟩
  · exact ⟨by simp [hunclosed, Batch.closings_openLine],
      by simp [hunended, Batch.endings_openLine]⟩

theorem close_keeps_unclosed {sent : Nat} (generator : Generator)
    (hstage : delivery.stage = .closing sent) (h : Unclosed acts delivery) :
    (close delivery sent generator).Keeps Unclosed ClosedIfFlushed acts := by
  rw [Unclosed, hstage] at h
  obtain ⟨hunclosed, hflushed⟩ := h
  unfold close
  dsimp only
  split
  · exact ⟨by simp [hflushed], acts, _, _, rfl, hunclosed, rfl, by simp⟩
  · split
    · exact ⟨by simp [hflushed], acts, _, _, rfl, hunclosed, rfl, by simp⟩
    · exact ⟨by simp [hflushed], acts, _, _, rfl, hunclosed, rfl, by simp [Event.level]⟩

/-- The connection is closed by the move after the batch is flushed, and by no other. -/
theorem move_keeps_unclosed (now : Nat) (acts : List Act) (delivery : Delivery)
    (generator : Generator) (h : Unclosed acts delivery) :
    (move timer now delivery generator).Keeps Unclosed ClosedIfFlushed acts := by
  refine move_keeps_of_stages (fun hstage => ?_)
    (fun since hstage => connect_keeps_unclosed now generator hstage h)
    (fun batch hstage => ?_) fun sent hstage => close_keeps_unclosed generator hstage h
  · rw [Unclosed, hstage] at h
    simpa [Unclosed] using h
  · rw [Unclosed, hstage] at h
    refine ((Batch.move_keeps_unclosed batch generator h.1).and
      (Batch.move_keeps_unended generator h.2)).imp (fun _ _ => id) fun acts result hended => ?_
    obtain ⟨hunclosed, ending, hlast, hbrings⟩ := hended
    cases result with
    | ok sent =>
        cases ending with
        | flushed => exact ⟨hunclosed, hlast.endings_eq⟩
        | failed call cause => exact hbrings.elim
    | error failure =>
        cases ending with
        | flushed => exact hbrings.elim
        | failed call cause =>
            exact ⟨by simp [hlast.endings_eq], by simpa using hunclosed⟩

theorem poll_keeps_unclosed (now : Nat) (acts : List Act) (delivery : Delivery)
    (generator : Generator) (h : Unclosed acts delivery) :
    (poll timer now delivery generator).Keeps Unclosed ClosedIfFlushed acts :=
  Turn.poll_keeps (move_keeps_unclosed now) _ acts delivery generator h

end Delivery

end OrderFlow
