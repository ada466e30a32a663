import OrderFlow.Proofs.Delivery.Reports
import OrderFlow.Proofs.Scheduler.Logged

/-!
# What a delivery may say

All that a delivery logs is of its own connection and its own lines.
-/

namespace OrderFlow

namespace Act

/-- Nothing is logged but what ticks have to say. -/
def SpeakOfTicks (acts : List Act) : Prop :=
  ∀ event ∈ events acts, event.isTicks = true

theorem speakOfTicks_nil : SpeakOfTicks [] := fun _ hevent => by cases hevent

theorem SpeakOfTicks.append {xs ys : List Act} (hxs : SpeakOfTicks xs)
    (hys : SpeakOfTicks ys) : SpeakOfTicks (xs ++ ys) := by
  intro event hevent
  rw [events_append, List.mem_append] at hevent
  exact hevent.elim (hxs event) (hys event)

/-- A turn whose acts speak of ticks adds nothing else. -/
theorem SpeakOfTicks.keeps {τ ρ : Type} {acts : List Act} {turn : Turn τ ρ}
    (h : SpeakOfTicks acts) (hturn : SpeakOfTicks turn.acts) :
    turn.Keeps (fun acts _ => SpeakOfTicks acts) (fun acts _ => SpeakOfTicks acts) acts := by
  unfold Turn.Keeps
  split
  · exact h.append hturn
  · exact h.append hturn
  · exact h.append hturn

end Act

namespace Batch

theorem events_openLine (size sent : Nat) (generator : Generator) :
    Act.events (openLine size sent generator).2.1 = [] :=
  filterMap_openLine (fun _ => rfl) size sent generator

theorem speakOfTicks_accept (batch : Batch) (sent : Nat) (rest : List Char) (count : Nat)
    (generator : Generator) :
    Act.SpeakOfTicks (batch.accept sent rest count generator).acts := by
  unfold accept Act.SpeakOfTicks
  split
  · simp
  · split
    · simp [events_openLine, Event.isTicks]
    · simp

theorem speakOfTicks_move (batch : Batch) (generator : Generator) :
    Act.SpeakOfTicks (batch.move generator).acts := by
  have hsilent : ∀ acts : List Act, Act.events acts = [] → Act.SpeakOfTicks acts := by
    intro acts hacts event hevent
    rw [hacts] at hevent
    cases hevent
  unfold move
  split
  · dsimp only
    split
    · exact speakOfTicks_accept _ _ _ _ _
    · exact speakOfTicks_accept _ _ _ _ _
    · exact hsilent _ rfl
    · exact hsilent _ rfl
    · split
      · exact hsilent _ rfl
      · exact hsilent _ rfl
  · dsimp only
    split <;> exact hsilent _ rfl

end Batch

namespace Delivery

theorem speakOfTicks_connect (timer : Timer) (now : Nat) (delivery : Delivery) (since : Nat)
    (generator : Generator) :
    Act.SpeakOfTicks (connect timer now delivery since generator).acts := by
  unfold connect
  dsimp only
  split
  · exact Act.speakOfTicks_nil
  · exact Act.speakOfTicks_nil
  · intro event hevent
    simp only [Batch.start, Act.events_cons, Batch.events_openLine, Act.event?,
      Option.toList_none, Option.toList_some, List.nil_append, List.append_nil,
      List.mem_singleton] at hevent
    rw [hevent]
    rfl

theorem speakOfTicks_close (delivery : Delivery) (sent : Nat) (generator : Generator) :
    Act.SpeakOfTicks (close delivery sent generator).acts := by
  unfold close Act.SpeakOfTicks
  dsimp only
  split
  · simp
  · split
    · simp
    · simp [Event.isTicks]

theorem speakOfTicks_move (timer : Timer) (now : Nat) (delivery : Delivery)
    (generator : Generator) :
    Act.SpeakOfTicks (move timer now delivery generator).acts := by
  unfold move
  split
  · intro event hevent
    cases hevent
  · exact speakOfTicks_connect _ _ _ _ _
  · rename_i batch _
    have hbatch := Batch.speakOfTicks_move batch generator
    have hreleased : Act.SpeakOfTicks [.released] := fun event hevent => by cases hevent
    dsimp only
    split
    · exact hbatch
    · exact hbatch
    · exact hbatch
    · exact hbatch.append hreleased
  · exact speakOfTicks_close _ _ _

theorem poll_speaks_of_ticks (timer : Timer) (now : Nat) (acts : List Act)
    (delivery : Delivery) (generator : Generator) (h : Act.SpeakOfTicks acts) :
    (poll timer now delivery generator).Keeps (fun acts _ => Act.SpeakOfTicks acts)
      (fun acts _ => Act.SpeakOfTicks acts) acts :=
  Turn.poll_keeps
    (fun _ delivery generator hbefore =>
      hbefore.keeps (speakOfTicks_move timer now delivery generator))
    _ acts delivery generator h

theorem speakOfTicks_conclude (result : Batch.Result) :
    Act.SpeakOfTicks (conclude result).1 := by
  unfold Act.SpeakOfTicks
  cases result with
  | ok sent => simp [conclude]
  | error failure => simp [conclude, Event.isTicks]

theorem speakOfTicks_drop (delivery : Delivery) : Act.SpeakOfTicks delivery.drop := by
  intro event hevent
  unfold drop at hevent
  split at hevent <;> cases hevent

end Delivery

end OrderFlow
