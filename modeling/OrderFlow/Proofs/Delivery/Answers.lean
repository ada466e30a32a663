import OrderFlow.Proofs.Delivery.Breakdown
import OrderFlow.Proofs.Delivery.Verdict

/-!
# Calls answered by a script

Every call of a batch is answered with the reply that the script for calls of its sort has at
its place, and the batch goes on with what is left of the script.
-/

namespace OrderFlow

/-- The reply of a script to the call at a position. -/
def Script.replyAt (script : Script) (n : Nat) : Reply :=
  script.replies[n]?.getD .takesAll

/-- The answer to a call that offers some text, by the reply to it. -/
def Reply.answer (offered : List Char) : Reply → Answer
  | .takesAll => .took offered.length
  | .takes count => .took (min count offered.length)
  | .notReady => .notReady
  | .stalls => .notReady
  | .fails cause => .failed cause

namespace Act

/-- The text offered and the answer, if the act is a call of some sort.  A flush offers
nothing. -/
def call? : Call → Act → Option (List Char × Answer)
  | .write, .wrote offered answer => some (offered, answer)
  | .flush, .flushed answer => some ([], answer)
  | _, _ => none

/-- The calls of some sort, in order. -/
def calls (call : Call) (acts : List Act) : List (List Char × Answer) :=
  acts.filterMap (call? call)

/-- Calls of some sort are answered as a script has it. -/
def Heeds (script : Script) (call : Call) (acts : List Act) : Prop :=
  ∀ n offered answer, (calls call acts)[n]? = some (offered, answer) →
    answer = (script.replyAt n).answer offered

attribute [simp] call?

@[simp] theorem calls_nil (call : Call) : calls call [] = [] := rfl

@[simp] theorem calls_append (call : Call) (xs ys : List Act) :
    calls call (xs ++ ys) = calls call xs ++ calls call ys :=
  List.filterMap_append

@[simp] theorem calls_cons (call : Call) (act : Act) (acts : List Act) :
    calls call (act :: acts) = (act.call? call).toList ++ calls call acts := by
  simp only [calls, List.filterMap_eq_flatMap_toList, List.flatMap_cons]

/-- Calls of some sort have been answered as a script has it, and so much is left of it. -/
structure Follows (script : Script) (call : Call) (acts : List Act) (left : Script) : Prop where
  heeds : Heeds script call acts
  left : left.replies = script.replies.drop (calls call acts).length

theorem Follows.start (script : Script) {call : Call} {acts : List Act}
    (h : calls call acts = []) : Follows script call acts script := by
  refine ⟨fun n offered answer hcall => ?_, by rw [h]; rfl⟩
  rw [h] at hcall
  cases hcall

section Follows

variable {script left : Script} {call : Call} {acts more : List Act}

theorem Follows.same (h : Follows script call acts left) (hmore : calls call more = []) :
    Follows script call (acts ++ more) left := by
  have hcalls : calls call (acts ++ more) = calls call acts := by
    simp [hmore]
  refine ⟨?_, ?_⟩
  · rw [Heeds, hcalls]
    exact h.heeds
  · rw [hcalls]
    exact h.left

theorem Follows.next_eq (h : Follows script call acts left) :
    left.next.1 = script.replyAt (calls call acts).length := by
  rw [Script.next_reply, h.left, Script.replyAt, List.head?_drop]

/-- One more call is answered with the next reply, which it uses up. -/
theorem Follows.next (h : Follows script call acts left) (hstalls : .stalls ∉ script.replies)
    (offered : List Char)
    (hmore : calls call more = [(offered, left.next.1.answer offered)]) :
    Follows script call (acts ++ more) left.next.2 := by
  have hnext := h.next_eq
  have hready : left.next.1 ≠ .stalls := by
    intro hreply
    have hcons := Batch.replies_eq_cons (left.next_reply.symm.trans hreply) (by simp)
    have hmem : Reply.stalls ∈ left.replies := by
      rw [hcons]
      exact List.mem_cons_self
    rw [h.left] at hmem
    exact hstalls (List.mem_of_mem_drop hmem)
  constructor
  · intro n text answer hcall
    rw [calls_append, hmore, List.getElem?_append] at hcall
    split at hcall
    · exact h.heeds n text answer hcall
    · rename_i hlater
      obtain ⟨hn, hmade⟩ := List.getElem?_eq_some_iff.mp hcall
      have hlast : n = (calls call acts).length := by
        have hone : n - (calls call acts).length < 1 := hn
        omega
      subst hlast
      simp only [Nat.sub_self, List.getElem_cons_zero, Prod.mk.injEq] at hmade
      obtain ⟨rfl, rfl⟩ := hmade
      rw [hnext]
  · rw [Script.next_replies, if_neg hready, h.left, List.tail_drop, calls_append, hmore,
      List.length_append]
    rfl

end Follows

end Act

namespace Batch

section Following

variable {writes flushes : Script} {acts : List Act} {batch : Batch}

/-- The calls of a batch on its way have been answered as its scripts have it. -/
def Following (writes flushes : Script) (acts : List Act) (batch : Batch) : Prop :=
  Act.Follows writes .write acts batch.writes ∧ Act.Follows flushes .flush acts batch.flushes

/-- The calls of a batch that is over were answered as its scripts had it. -/
def Followed (writes flushes : Script) (acts : List Act) (_ : Result) : Prop :=
  Act.Heeds writes .write acts ∧ Act.Heeds flushes .flush acts

theorem calls_openLine (call : Call) (size sent : Nat) (generator : Generator) :
    Act.calls call (openLine size sent generator).2.1 = [] :=
  filterMap_openLine (fun _ => by cases call <;> rfl) size sent generator

/-- A write uses up a reply of the script for writes. -/
theorem follows_write {left leftFlushes : Script} {rest : List Char} {more : List Act}
    (hwrites : .stalls ∉ writes.replies) (h : Act.Follows writes .write acts left)
    (hflushes : Act.Follows flushes .flush acts leftFlushes)
    (hwrote : Act.calls .write more = []) (hflushed : Act.calls .flush more = []) :
    Act.Follows writes .write (acts ++ .wrote rest (left.next.1.answer rest) :: more)
        left.next.2 ∧
      Act.Follows flushes .flush (acts ++ .wrote rest (left.next.1.answer rest) :: more)
        leftFlushes := by
  refine ⟨h.next hwrites rest ?_, hflushes.same ?_⟩
  · rw [Act.calls_cons, hwrote]
    rfl
  · rw [Act.calls_cons, hflushed]
    rfl

theorem accept_keeps_following {sent count : Nat} {rest : List Char} (generator : Generator)
    (h : ∀ more, Act.calls .write more = [] → Act.calls .flush more = [] →
      Following writes flushes (acts ++ .wrote rest (.took count) :: more) batch) :
    (batch.accept sent rest count generator).Keeps (Following writes flushes)
      (Followed writes flushes) acts := by
  refine accept_keeps_of_counts (fun hzero => ?_) (fun _ _ => ?_) fun _ _ => ?_
  · subst hzero
    obtain ⟨hwrites, hflushes⟩ := h [] rfl rfl
    exact ⟨hwrites.heeds, hflushes.heeds⟩
  · have hopened := h (.logged .sent :: (openLine batch.size (sent + 1) generator).2.1)
      (by simp [calls_openLine]) (by simp [calls_openLine])
    simpa [Following] using hopened
  · exact h [] rfl rfl

/-- Every call is answered with the next reply of its script. -/
theorem move_keeps_following (generator : Generator) (hwrites : .stalls ∉ writes.replies)
    (hflushes : .stalls ∉ flushes.replies) (h : Following writes flushes acts batch) :
    (batch.move generator).Keeps (Following writes flushes) (Followed writes flushes) acts := by
  rcases batch with ⟨size, ⟨sent, rest⟩ | -, left, leftFlushes⟩
  · have hwrite : ∀ answer, left.next.1.answer rest = answer → ∀ stage more,
        Act.calls .write more = [] → Act.calls .flush more = [] →
        Following writes flushes (acts ++ .wrote rest answer :: more)
          ⟨size, stage, left.next.2, leftFlushes⟩ := by
      rintro answer rfl stage more hwrote hflushed
      exact follows_write hwrites h.1 h.2 hwrote hflushed
    rw [move]
    dsimp only
    split
    · rename_i hreply
      exact accept_keeps_following generator (hwrite _ (by rw [hreply]; rfl) _)
    · rename_i count hreply
      exact accept_keeps_following generator (hwrite _ (by rw [hreply]; rfl) _)
    · rename_i hreply
      exact hwrite .notReady (by rw [hreply]; rfl) _ [] rfl rfl
    · rename_i hreply
      exact hwrite .notReady (by rw [hreply]; rfl) _ [] rfl rfl
    · rename_i cause hreply
      have hfailed := hwrite (.failed cause) (by rw [hreply]; rfl) (.writing sent rest) [] rfl rfl
      split
      · exact hfailed
      · exact ⟨hfailed.1.heeds, hfailed.2.heeds⟩
  · have hflush : ∀ answer, leftFlushes.next.1.answer [] = answer →
        Following writes flushes (acts ++ [.flushed answer])
          ⟨size, .flushing, left, leftFlushes.next.2⟩ := by
      rintro answer rfl
      exact ⟨h.1.same rfl, h.2.next hflushes [] rfl⟩
    have hlast : ∀ answer, leftFlushes.next.1.answer [] = answer → ∀ result,
        Followed writes flushes (acts ++ [.flushed answer]) result := fun answer hanswer _ =>
      ⟨(hflush answer hanswer).1.heeds, (hflush answer hanswer).2.heeds⟩
    rw [move]
    dsimp only
    split
    · rename_i hreply
      exact hlast (.took 0) (by rw [hreply]; rfl) (.ok size)
    · rename_i count hreply
      exact hlast (.took 0) (by rw [hreply]; simp [Reply.answer]) (.ok size)
    · rename_i hreply
      exact hflush _ (by rw [hreply]; rfl)
    · rename_i hreply
      exact hflush _ (by rw [hreply]; rfl)
    · rename_i cause hreply
      exact hlast (.failed cause) (by rw [hreply]; rfl) (.error ⟨size, cause⟩)

end Following

end Batch

end OrderFlow
