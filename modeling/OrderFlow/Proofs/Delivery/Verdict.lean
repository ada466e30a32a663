import OrderFlow.Proofs.Delivery.Attempts
import OrderFlow.Proofs.Delivery.Text
import OrderFlow.Proofs.Generator.Values

/-!
# What a peer alone decides

All generated lines are equally long, so how far a write gets does not depend on the orders
in it.  `Peer.verdict` tells from the peer, the size of the batch and how the attempt to
connect came out what becomes of a delivery and how many characters are taken, and every move
of a delivery bears it out, whatever the generator gives and however often and whenever the
delivery is polled.
-/

namespace OrderFlow

/-- The number of lines that an outcome reports. -/
def Outcome.sent : Outcome → Nat
  | .completed sent => sent
  | .failed sent => sent
  | .cancelled => 0

/-! ## Replies one by one -/

namespace Script

/-- The replies of a script, one for each call. -/
def replies : Script → List Reply
  | [] => []
  | (n, reply) :: rest => List.replicate n reply ++ replies rest

/-- The next reply is the first, or everything is taken once there is none left. -/
theorem next_reply (script : Script) :
    script.next.1 = script.replies.head?.getD .takesAll := by
  induction script with
  | nil => rfl
  | cons entry rest ih =>
      obtain ⟨n, reply⟩ := entry
      rcases n with - | n
      · exact ih
      · by_cases hstalls : reply = .stalls
        · subst hstalls
          simp [next, replies, List.replicate_succ]
        · rw [next]
          · simp [replies, List.replicate_succ]
          · exact hstalls

/-- A call uses up one reply, unless nothing is ever taken again. -/
theorem next_replies (script : Script) :
    script.next.2.replies =
      if script.next.1 = .stalls then script.replies else script.replies.tail := by
  induction script with
  | nil => rfl
  | cons entry rest ih =>
      obtain ⟨n, reply⟩ := entry
      rcases n with - | n
      · exact ih
      · by_cases hstalls : reply = .stalls
        · subst hstalls
          simp [next]
        · rw [next]
          · simp [hstalls, replies, List.replicate_succ]
          · exact hstalls

end Script

/-! ## The outlook of a batch -/

/-- What is still to come of a delivery: its outcome, and how many characters will be taken
before it; `none` if it never ends. -/
abbrev Outlook := Option (Outcome × Nat)

namespace Outlook

/-- An outlook before which some characters are taken. -/
def plus (count : Nat) (outlook : Outlook) : Outlook :=
  outlook.map fun (outcome, taken) => (outcome, count + taken)

@[simp] theorem plus_zero (outlook : Outlook) : outlook.plus 0 = outlook := by
  cases outlook <;> simp [plus]

@[simp] theorem plus_plus (m n : Nat) (outlook : Outlook) :
    (outlook.plus n).plus m = outlook.plus (m + n) := by
  cases outlook <;> simp [plus, Nat.add_assoc]

@[simp] theorem plus_some (count taken : Nat) (outcome : Outcome) :
    plus count (some (outcome, taken)) = some (outcome, count + taken) := rfl

end Outlook

namespace Batch

/-- What comes of a flush of a batch of some size, by the replies to come. -/
def flushOutlook (size : Nat) : List Reply → Outlook
  | [] => some (.completed size, 0)
  | .takesAll :: _ => some (.completed size, 0)
  | .takes _ :: _ => some (.completed size, 0)
  | .notReady :: rest => flushOutlook size rest
  | .stalls :: _ => none
  | .fails _ :: _ => some (.failed size, 0)

/-- What comes of writing, by the replies to come, when so many lines are out and so many
characters are left of the next line.  `flush` is what comes after the last line. -/
def writeOutlook (size : Nat) (flush : Outlook) : List Reply → (sent left : Nat) → Outlook
  | [], sent, left => flush.plus (left + (size - (sent + 1)) * Generator.lineWidth)
  | .takesAll :: rest, sent, left =>
      if sent + 1 < size then
        (writeOutlook size flush rest (sent + 1) Generator.lineWidth).plus left
      else flush.plus left
  | .takes count :: rest, sent, left =>
      if min count left = 0 then some (.failed sent, 0)
      else if left ≤ count then
        if sent + 1 < size then
          (writeOutlook size flush rest (sent + 1) Generator.lineWidth).plus left
        else flush.plus left
      else (writeOutlook size flush rest sent (left - count)).plus count
  | .notReady :: rest, sent, left => writeOutlook size flush rest sent left
  | .stalls :: _, _, _ => none
  | .fails cause :: rest, sent, left =>
      if cause.kind = .interrupted then writeOutlook size flush rest sent left
      else some (.failed sent, 0)

/-- What comes of a batch of which so many lines are out, the next one not yet begun. -/
def lineOutlook (size : Nat) (flush : Outlook) (writes : List Reply) (sent : Nat) : Outlook :=
  if sent < size then writeOutlook size flush writes sent Generator.lineWidth else flush

/-- What comes of a batch where it stands. -/
def outlook (batch : Batch) : Outlook :=
  let flush := flushOutlook batch.size batch.flushes.replies
  match batch.stage with
  | .writing sent rest => writeOutlook batch.size flush batch.writes.replies sent rest.length
  | .flushing => flush

/-! ### One call -/

section Calls

variable {size sent left : Nat} {flush : Outlook} {replies : List Reply}

/-- A write that is taken whole ends the line. -/
theorem writeOutlook_of_takesAll (h : replies.head?.getD .takesAll = .takesAll) :
    writeOutlook size flush replies sent left =
      (lineOutlook size flush replies.tail (sent + 1)).plus left := by
  rcases replies with - | ⟨reply, rest⟩
  · by_cases hlast : sent + 1 < size
    · have hlines : size - (sent + 1) = size - (sent + 1 + 1) + 1 := by omega
      rw [lineOutlook, List.tail_nil, if_pos hlast, writeOutlook, writeOutlook,
        Outlook.plus_plus, hlines, Nat.succ_mul, Nat.add_comm Generator.lineWidth]
    · have hlines : size - (sent + 1) = 0 := by omega
      rw [lineOutlook, if_neg hlast, writeOutlook, hlines, Nat.zero_mul, Nat.add_zero]
  · obtain rfl : reply = .takesAll := h
    by_cases hlast : sent + 1 < size
    · simp [writeOutlook, lineOutlook, hlast]
    · simp [writeOutlook, lineOutlook, hlast]

/-- A write that is taken of at most so many characters takes nothing, ends the line or leaves
some of it. -/
theorem writeOutlook_of_takes {count : Nat} (h : replies.head?.getD .takesAll = .takes count) :
    writeOutlook size flush replies sent left =
      if min count left = 0 then some (.failed sent, 0)
      else if left ≤ min count left then
        (lineOutlook size flush replies.tail (sent + 1)).plus left
      else (writeOutlook size flush replies.tail sent (left - min count left)).plus
        (min count left) := by
  rcases replies with - | ⟨reply, rest⟩
  · cases h
  · obtain rfl : reply = .takes count := h
    rw [writeOutlook, List.tail_cons]
    by_cases hzero : min count left = 0
    · rw [if_pos hzero, if_pos hzero]
    · rw [if_neg hzero, if_neg hzero]
      by_cases hall : left ≤ count
      · rw [if_pos hall, if_pos (Nat.le_min.mpr ⟨hall, Nat.le_refl left⟩), lineOutlook]
        by_cases hlast : sent + 1 < size
        · rw [if_pos hlast, if_pos hlast]
        · rw [if_neg hlast, if_neg hlast]
      · have hmin : min count left = count := Nat.min_eq_left (Nat.le_of_not_le hall)
        rw [if_neg hall, hmin, if_neg hall]

/-- A reply other than the one that is given when none is left is still in the script. -/
theorem replies_eq_cons {reply : Reply} (h : replies.head?.getD .takesAll = reply)
    (hscripted : reply ≠ .takesAll) : replies = reply :: replies.tail := by
  rcases replies with - | ⟨first, rest⟩
  · exact absurd h.symm hscripted
  · obtain rfl : first = reply := h
    rfl

end Calls

/-! ### Every call bears the outlook out -/

/-- After the acts so far a batch has a line to write, if it is writing, and its outlook is
what is left of a verdict. -/
def Foreseen (verdict : Outlook) (acts : List Act) (batch : Batch) : Prop :=
  (∀ sent rest, batch.stage = .writing sent rest → sent < batch.size ∧ rest ≠ []) ∧
    verdict = batch.outlook.plus (Act.received acts).length

/-- A result bears out a verdict on all the acts before it. -/
def Decided (verdict : Outlook) (acts : List Act) (result : Result) : Prop :=
  verdict = some ((Delivery.conclude result).2, (Act.received acts).length)

@[simp] theorem received_openLine (size sent : Nat) (generator : Generator) :
    Act.received (openLine size sent generator).2.1 = [] :=
  congrArg List.flatten (filterMap_openLine (fun _ => rfl) size sent generator)

theorem outlook_openLine (size sent : Nat) (writes flushes : Script) (generator : Generator) :
    outlook ⟨size, (openLine size sent generator).2.2, writes, flushes⟩ =
      lineOutlook size (flushOutlook size flushes.replies) writes.replies sent := by
  unfold openLine lineOutlook
  by_cases hlt : sent < size
  · rw [if_pos hlt, if_pos hlt, ← Generator.length_line_next generator]
    rfl
  · rw [if_neg hlt, if_neg hlt, outlook]

theorem foreseen_openLine {verdict : Outlook} {acts : List Act} (size sent : Nat)
    (writes flushes : Script) (generator : Generator)
    (h : verdict = (lineOutlook size (flushOutlook size flushes.replies) writes.replies sent).plus
      (Act.received acts).length) :
    Foreseen verdict (acts ++ (openLine size sent generator).2.1)
      ⟨size, (openLine size sent generator).2.2, writes, flushes⟩ := by
  constructor
  · intro n rest hstage
    unfold openLine at hstage
    split at hstage
    · rename_i hlt
      obtain ⟨rfl, rfl⟩ := Stage.writing.inj hstage
      exact ⟨hlt, Order.line_ne_nil _⟩
    · cases hstage
  · rw [outlook_openLine, Act.received_append, received_openLine, List.append_nil]
    exact h

/-- A write that takes something ends the line or leaves what it did not take. -/
theorem accept_keeps_outlook {verdict : Outlook} {acts : List Act} {batch : Batch}
    {sent count : Nat} {rest : List Char} (generator : Generator)
    (hlt : sent < batch.size) (hcount : count ≤ rest.length)
    (h : verdict = Outlook.plus (Act.received acts).length
      (let flush := flushOutlook batch.size batch.flushes.replies
       if count = 0 then some (.failed sent, 0)
       else if rest.length ≤ count then
         (lineOutlook batch.size flush batch.writes.replies (sent + 1)).plus rest.length
       else (writeOutlook batch.size flush batch.writes.replies sent (rest.length - count)).plus
         count)) :
    (batch.accept sent rest count generator).Keeps (Foreseen verdict) (Decided verdict)
      acts := by
  dsimp only at h
  unfold accept
  by_cases hzero : count = 0
  · rw [if_pos hzero] at h
    rw [if_pos hzero]
    simpa [Turn.Keeps, Decided, Delivery.conclude, hzero] using h
  · rw [if_neg hzero] at h
    rw [if_neg hzero]
    by_cases hall : rest.length ≤ count
    · rw [if_pos hall, Outlook.plus_plus] at h
      rw [if_pos hall]
      let written := acts ++ [.wrote rest (.took count), .logged .sent]
      have hwritten : (Act.received written).length =
          (Act.received acts).length + rest.length := by
        simp [written, List.take_of_length_le hall]
      rw [← hwritten] at h
      have hopen := foreseen_openLine batch.size (sent + 1) batch.writes batch.flushes
        generator h
      simpa [Turn.Keeps, written] using hopen
    · rw [if_neg hall, Outlook.plus_plus] at h
      rw [if_neg hall]
      constructor
      · intro n left hleft
        obtain ⟨rfl, rfl⟩ := Stage.writing.inj hleft
        exact ⟨hlt, fun hnil => hall (List.drop_eq_nil_iff.mp hnil)⟩
      · simpa [outlook, Nat.min_eq_left hcount] using h

theorem foreseen_writing {verdict : Outlook} {acts : List Act} {size sent : Nat}
    {rest : List Char} {writes flushes : Script} :
    Foreseen verdict acts ⟨size, .writing sent rest, writes, flushes⟩ ↔
      sent < size ∧ rest ≠ [] ∧ verdict =
        (writeOutlook size (flushOutlook size flushes.replies) writes.replies sent
          rest.length).plus (Act.received acts).length := by
  constructor
  · exact fun h => ⟨(h.1 sent rest rfl).1, (h.1 sent rest rfl).2, h.2⟩
  · rintro ⟨hlt, hrest, hverdict⟩
    refine ⟨?_, hverdict⟩
    intro n left hleft
    obtain ⟨rfl, rfl⟩ := Stage.writing.inj hleft
    exact ⟨hlt, hrest⟩

theorem foreseen_flushing {verdict : Outlook} {acts : List Act} {size : Nat}
    {writes flushes : Script} :
    Foreseen verdict acts ⟨size, .flushing, writes, flushes⟩ ↔
      verdict = (flushOutlook size flushes.replies).plus (Act.received acts).length :=
  ⟨fun h => h.2, fun h => ⟨fun _ _ hstage => Stage.noConfusion hstage, h⟩⟩

/-- A call while writing bears out what was foreseen. -/
theorem move_keeps_writeOutlook {verdict : Outlook} {acts : List Act} {size sent : Nat}
    {rest : List Char} {writes flushes : Script} (generator : Generator)
    (h : Foreseen verdict acts ⟨size, .writing sent rest, writes, flushes⟩) :
    (move ⟨size, .writing sent rest, writes, flushes⟩ generator).Keeps (Foreseen verdict)
      (Decided verdict) acts := by
  obtain ⟨hlt, hrest, hverdict⟩ := foreseen_writing.mp h
  have hlength : rest.length ≠ 0 := fun hzero => hrest (List.length_eq_zero_iff.mp hzero)
  have hfirst := writes.next_reply
  have hlater := writes.next_replies
  -- A call that takes nothing leaves the batch as it was but for the reply that it used up.
  have hagain : ∀ answer : Answer, (∀ count, answer ≠ .took count) →
      writeOutlook size (flushOutlook size flushes.replies) writes.replies sent rest.length =
        writeOutlook size (flushOutlook size flushes.replies) writes.next.2.replies sent
          rest.length →
      Foreseen verdict (acts ++ [.wrote rest answer])
        ⟨size, .writing sent rest, writes.next.2, flushes⟩ := by
    intro answer hanswer hsame
    refine foreseen_writing.mpr ⟨hlt, hrest, ?_⟩
    rw [hverdict, hsame]
    cases answer with
    | took count => exact absurd rfl (hanswer count)
    | _ => simp
  rw [move]
  dsimp only
  split
  · rename_i hreply
    rw [hreply] at hfirst hlater
    rw [if_neg (by simp)] at hlater
    apply accept_keeps_outlook generator hlt (Nat.le_refl _)
    dsimp only
    rw [hverdict, writeOutlook_of_takesAll hfirst.symm, if_neg hlength, hlater,
      if_pos (Nat.le_refl _)]
  · rename_i count hreply
    rw [hreply] at hfirst hlater
    rw [if_neg (by simp)] at hlater
    apply accept_keeps_outlook generator hlt (Nat.min_le_right _ _)
    dsimp only
    rw [hverdict, writeOutlook_of_takes hfirst.symm, hlater]
  · rename_i hreply
    rw [hreply] at hfirst hlater
    rw [if_neg (by simp)] at hlater
    refine hagain .notReady (by simp) ?_
    rw [hlater, replies_eq_cons hfirst.symm (by simp), writeOutlook, List.tail_cons]
  · rename_i hreply
    rw [hreply, if_pos rfl] at hlater
    refine hagain .notReady (by simp) ?_
    rw [hlater]
  · rename_i cause hreply
    rw [hreply] at hfirst hlater
    rw [if_neg (by simp)] at hlater
    by_cases hinterrupted : cause.kind = .interrupted
    · rw [if_pos hinterrupted]
      refine hagain (.failed cause) (by simp) ?_
      rw [hlater, replies_eq_cons hfirst.symm (by simp), writeOutlook, if_pos hinterrupted,
        List.tail_cons]
    · rw [if_neg hinterrupted]
      rw [replies_eq_cons hfirst.symm (by simp), writeOutlook, if_neg hinterrupted] at hverdict
      simpa [Turn.Keeps, Decided, Delivery.conclude] using hverdict

/-- A flush bears out what was foreseen. -/
theorem move_keeps_flushOutlook {verdict : Outlook} {acts : List Act} {size : Nat}
    {writes flushes : Script} (generator : Generator)
    (h : Foreseen verdict acts ⟨size, .flushing, writes, flushes⟩) :
    (move ⟨size, .flushing, writes, flushes⟩ generator).Keeps (Foreseen verdict)
      (Decided verdict) acts := by
  have hverdict := foreseen_flushing.mp h
  have hfirst := flushes.next_reply
  have hlater := flushes.next_replies
  have hagain : flushOutlook size flushes.replies = flushOutlook size flushes.next.2.replies →
      Foreseen verdict (acts ++ [.flushed .notReady])
        ⟨size, .flushing, writes, flushes.next.2⟩ := by
    intro hsame
    rw [foreseen_flushing, hverdict, hsame]
    simp
  rw [move]
  dsimp only
  split
  · rename_i hreply
    rw [hreply] at hfirst
    have hflush : flushOutlook size flushes.replies = some (.completed size, 0) := by
      rcases hreplies : flushes.replies with - | ⟨first, rest⟩
      · rfl
      · rw [hreplies] at hfirst
        obtain rfl : Reply.takesAll = first := hfirst
        rfl
    rw [hflush] at hverdict
    simpa [Turn.Keeps, Decided, Delivery.conclude] using hverdict
  · rename_i count hreply
    rw [hreply] at hfirst
    rw [replies_eq_cons hfirst.symm (by simp), flushOutlook] at hverdict
    simpa [Turn.Keeps, Decided, Delivery.conclude] using hverdict
  · rename_i hreply
    rw [hreply] at hfirst hlater
    rw [if_neg (by simp)] at hlater
    apply hagain
    rw [hlater, replies_eq_cons hfirst.symm (by simp), flushOutlook, List.tail_cons]
  · rename_i hreply
    rw [hreply, if_pos rfl] at hlater
    apply hagain
    rw [hlater]
  · rename_i cause hreply
    rw [hreply] at hfirst
    rw [replies_eq_cons hfirst.symm (by simp), flushOutlook] at hverdict
    simpa [Turn.Keeps, Decided, Delivery.conclude] using hverdict

/-- Every call on the connection bears out what was foreseen. -/
theorem move_keeps_outlook {verdict : Outlook} {acts : List Act} {batch : Batch}
    (generator : Generator) (h : Foreseen verdict acts batch) :
    (batch.move generator).Keeps (Foreseen verdict) (Decided verdict) acts := by
  rcases batch with ⟨size, ⟨sent, rest⟩ | -, writes, flushes⟩
  · exact move_keeps_writeOutlook generator h
  · exact move_keeps_flushOutlook generator h

end Batch

/-! ## The verdict of a peer -/

/-- What a peer alone makes of a batch of some size, by how the attempt to connect came out: the
outcome, and how many characters are taken; `none` if the delivery never ends. -/
def Peer.verdict (peer : Peer) (size : Nat) : Except Failure Unit → Outlook
  | .error _ => some (.failed 0, 0)
  | .ok () =>
      Batch.lineOutlook size (Batch.flushOutlook size peer.flushes.replies)
        peer.writes.replies 0

namespace Delivery

/-- After the acts so far a delivery is not connected and nothing was taken, or what is still to
come of it is what is left of the verdict of its peer. -/
def Foreseen (timer : Timer) (plan : Plan) (peer : Peer) (acts : List Act)
    (delivery : Delivery) : Prop :=
  match delivery.stage with
  | .unstarted => (delivery.plan = plan ∧ delivery.peer = peer) ∧ Act.established ∉ acts ∧
      Act.received acts = []
  | .connecting _ => (delivery.plan = plan ∧ delivery.peer = peer) ∧ Act.established ∉ acts ∧
      Act.received acts = []
  | .sending batch => Act.established ∈ acts ∧ CanSettle timer plan peer (.ok ()) ∧
      batch.Foreseen (peer.verdict plan.batchSize (.ok ())) acts
  | .closing sent => Act.established ∈ acts ∧ CanSettle timer plan peer (.ok ()) ∧
      Batch.Decided (peer.verdict plan.batchSize (.ok ())) acts (.ok sent)

/-- A delivery that ended bears out the verdict of its peer on one of the ways in which the
attempt to connect can come out: that it is connected just if it was. -/
def Borne (timer : Timer) (plan : Plan) (peer : Peer) (acts : List Act)
    (result : Batch.Result) : Prop :=
  ∃ answer, CanSettle timer plan peer answer ∧
    (Act.established ∈ acts ↔ answer = .ok ()) ∧
    Batch.Decided (peer.verdict plan.batchSize answer) acts result

variable {timer : Timer} {plan : Plan} {peer : Peer} {acts : List Act}

theorem connect_keeps_verdict {since : Nat} {delivery : Delivery} (now : Nat)
    (generator : Generator) (hstage : delivery.stage = .connecting since)
    (h : Foreseen timer plan peer acts delivery) :
    (connect timer now delivery since generator).Keeps (Foreseen timer plan peer)
      (Borne timer plan peer) acts := by
  have hnothing := h
  rw [Foreseen, hstage] at hnothing
  obtain ⟨⟨rfl, rfl⟩, hestablished, hreceived⟩ := hnothing
  refine connect_keeps_of_attempt (fun _ => h) (fun cause hattempt => ?_) fun hattempt => ?_
  · refine ⟨.error cause, canSettle_of_attempt hattempt, by simpa using hestablished, ?_⟩
    simp [Batch.Decided, Peer.verdict, conclude, hreceived]
  · let opened := acts ++ [.established, .logged (.connected delivery.plan.target)]
    have hopened : (Act.received opened).length = 0 := by
      simp [opened, hreceived]
    refine ⟨by simp, canSettle_of_attempt hattempt, ?_⟩
    exact @Batch.foreseen_openLine _ opened delivery.plan.batchSize 0 delivery.peer.writes
      delivery.peer.flushes generator (by rw [hopened, Outlook.plus_zero]; rfl)

theorem Borne.of_connected {result : Batch.Result} (hestablished : Act.established ∈ acts)
    (hcan : CanSettle timer plan peer (.ok ()))
    (h : Batch.Decided (peer.verdict plan.batchSize (.ok ())) acts result) :
    Borne timer plan peer acts result :=
  ⟨.ok (), hcan, by simpa using hestablished, h⟩

theorem close_keeps_verdict {sent : Nat} {verdict : Outlook} (delivery : Delivery)
    (generator : Generator) (h : Batch.Decided verdict acts (.ok sent)) :
    (close delivery sent generator).Keeps (Foreseen timer plan peer) (Batch.Decided verdict)
      acts := by
  unfold close
  dsimp only
  split
  · simpa [Turn.Keeps, Batch.Decided] using h
  · split
    · simpa [Turn.Keeps, Batch.Decided] using h
    · simpa [Turn.Keeps, Batch.Decided] using h

/-- Every move of a delivery bears out what was foreseen. -/
theorem move_keeps_verdict (now : Nat) (acts : List Act) (delivery : Delivery)
    (generator : Generator) (h : Foreseen timer plan peer acts delivery) :
    (move timer now delivery generator).Keeps (Foreseen timer plan peer)
      (Borne timer plan peer) acts := by
  refine move_keeps_of_stages (fun hstage => ?_)
    (fun since hstage => connect_keeps_verdict now generator hstage h)
    (fun batch hstage => ?_) fun sent hstage => ?_
  · rw [Foreseen, hstage] at h
    simpa [Foreseen] using h
  · rw [Foreseen, hstage] at h
    obtain ⟨hestablished, hcan, hbatch⟩ := h
    refine ((Turn.keeps_mem hestablished _).and
      (Batch.move_keeps_outlook generator hbatch)).imp
      (fun _ _ hnext => ⟨hnext.1, hcan, hnext.2⟩) fun acts result hended => ?_
    obtain ⟨hestablished, hdecided⟩ := hended
    rcases result with failure | sent
    · refine Borne.of_connected (by simpa using hestablished) hcan ?_
      simpa [Batch.Decided] using hdecided
    · exact ⟨hestablished, hcan, hdecided⟩
  · rw [Foreseen, hstage] at h
    obtain ⟨hestablished, hcan, hdecided⟩ := h
    exact ((Turn.keeps_mem hestablished _).and
      (close_keeps_verdict delivery generator hdecided)).imp (fun _ _ hnext => hnext.2)
      fun _ _ hended => Borne.of_connected hended.1 hcan hended.2

theorem poll_keeps_verdict (now : Nat) (acts : List Act) (delivery : Delivery)
    (generator : Generator) (h : Foreseen timer plan peer acts delivery) :
    (poll timer now delivery generator).Keeps (Foreseen timer plan peer)
      (Borne timer plan peer) acts :=
  Turn.poll_keeps (move_keeps_verdict now) _ acts delivery generator h

end Delivery

/-! ## What verdicts depend on -/

/-- Peers that meet connecting, writing and flushing in the same way. -/
structure Peer.Alike (peer peer' : Peer) : Prop where
  connecting : peer'.connecting = peer.connecting
  writes : peer'.writes.replies = peer.writes.replies
  flushes : peer'.flushes.replies = peer.flushes.replies

/-- Peers that are met alike have one verdict, but for the way in which connecting came out. -/
theorem Peer.Alike.verdict_eq {peer peer' : Peer} (h : peer.Alike peer') (size : Nat)
    (answer : Except Failure Unit) : peer'.verdict size answer = peer.verdict size answer := by
  cases answer with
  | error cause => rfl
  | ok _ => rw [verdict, verdict, h.writes, h.flushes]

/-- What becomes of a delivery that is not connected does not depend on the cause. -/
theorem Peer.verdict_congr {peer : Peer} {answer answer' : Except Failure Unit}
    (hsame : answer = .ok () ↔ answer' = .ok ()) (size : Nat) :
    peer.verdict size answer = peer.verdict size answer' := by
  cases answer with
  | error cause =>
      cases answer' with
      | error cause' => rfl
      | ok _ => cases hsame.mpr rfl
  | ok _ =>
      obtain rfl := hsame.mp rfl
      rfl

namespace Reply

/-- Whether a write that gets this reply is taken whole or not at all. -/
def IsWhole : Reply → Prop
  | .takes count => count = 0 ∨ Generator.lineWidth ≤ count
  | _ => True

/-- Whether this reply to a write ends the batch. -/
def IsFinal : Reply → Prop
  | .takes count => count = 0
  | .fails cause => cause.kind ≠ .interrupted
  | _ => False

end Reply

namespace Batch

variable {size sent taken : Nat} {flush : Outlook} {outcome : Outcome}

theorem sent_of_flushOutlook {replies : List Reply}
    (h : flushOutlook size replies = some (outcome, taken)) : outcome.sent = size ∧ taken = 0 := by
  induction replies with
  | nil =>
      cases h
      exact ⟨rfl, rfl⟩
  | cons reply rest ih =>
      cases reply with
      | notReady => exact ih h
      | stalls => cases h
      | _ =>
          cases h
          exact ⟨rfl, rfl⟩

theorem eq_some_of_plus {count : Nat} {outlook : Outlook}
    (h : outlook.plus count = some (outcome, taken)) :
    ∃ later, outlook = some (outcome, later) ∧ taken = count + later := by
  obtain ⟨⟨outcome', later⟩, houtlook, heq⟩ := Option.map_eq_some_iff.mp h
  obtain ⟨rfl, rfl⟩ := Prod.mk.inj heq
  exact ⟨later, houtlook, rfl⟩

/-- If every write is taken whole or not at all, what is taken are the lines that the outcome
reports. -/
theorem taken_of_writeOutlook {replies : List Reply} (hwhole : ∀ reply ∈ replies, reply.IsWhole)
    (hflush : ∀ {outcome taken}, flush = some (outcome, taken) →
      outcome.sent = size ∧ taken = 0)
    (hlt : sent < size)
    (h : writeOutlook size flush replies sent Generator.lineWidth = some (outcome, taken)) :
    sent * Generator.lineWidth + taken = outcome.sent * Generator.lineWidth := by
  induction replies generalizing sent taken with
  | nil =>
      obtain ⟨later, hlater, rfl⟩ := eq_some_of_plus h
      obtain ⟨hsent, rfl⟩ := hflush hlater
      have hlines : size = sent + 1 + (size - (sent + 1)) := by omega
      rw [hsent, hlines]
      simp only [Nat.add_mul, Nat.add_sub_cancel_left]
      omega
  | cons reply rest ih =>
      have hrest : ∀ reply ∈ rest, reply.IsWhole := fun reply hreply =>
        hwhole reply (List.mem_cons_of_mem _ hreply)
      -- The line is taken whole: either there is another one or the batch is flushed.
      have hline : (if sent + 1 < size then
            (writeOutlook size flush rest (sent + 1) Generator.lineWidth).plus Generator.lineWidth
          else flush.plus Generator.lineWidth) = some (outcome, taken) →
          sent * Generator.lineWidth + taken = outcome.sent * Generator.lineWidth := by
        intro hopened
        split at hopened
        · rename_i hmore
          obtain ⟨later, hlater, rfl⟩ := eq_some_of_plus hopened
          rw [← ih hrest hmore hlater, Nat.succ_mul, Nat.add_assoc]
        · rename_i hlast
          obtain ⟨later, hlater, rfl⟩ := eq_some_of_plus hopened
          obtain ⟨hsent, rfl⟩ := hflush hlater
          have hlines : size = sent + 1 := by omega
          rw [hsent, hlines, Nat.succ_mul, Nat.add_zero]
      cases reply with
      | takesAll => exact hline h
      | takes count =>
          rw [writeOutlook] at h
          rcases hwhole _ List.mem_cons_self with rfl | hall
          · rw [Nat.zero_min, if_pos rfl] at h
            cases h
            rfl
          · have hmin : min count Generator.lineWidth ≠ 0 := by
              rw [Nat.min_eq_right hall]
              decide
            rw [if_neg hmin, if_pos hall] at h
            exact hline h
      | notReady => exact ih hrest hlt h
      | stalls => cases h
      | fails cause =>
          rw [writeOutlook] at h
          split at h
          · exact ih hrest hlt h
          · cases h
            rfl

/-- What comes of a batch if so many more writes are taken whole and the one after them ends
the batch. -/
theorem writeOutlook_replicate {last : Reply} (hlast : last.IsFinal) (rest : List Reply)
    (hlt : sent < size) (hflush : flush = some (.completed size, 0)) (count : Nat) :
    writeOutlook size flush (List.replicate count .takesAll ++ last :: rest) sent
        Generator.lineWidth =
      if size ≤ sent + count then
        some (.completed size, (size - sent) * Generator.lineWidth)
      else some (.failed (sent + count), count * Generator.lineWidth) := by
  induction count generalizing sent with
  | zero =>
      rw [if_neg (by omega), List.replicate_zero, List.nil_append, Nat.zero_mul]
      cases last with
      | takes n =>
          obtain rfl : n = 0 := hlast
          rw [writeOutlook, Nat.zero_min, if_pos rfl, Nat.add_zero]
      | fails cause => rw [writeOutlook, if_neg hlast, Nat.add_zero]
      | _ => exact absurd hlast id
  | succ count ih =>
      rw [List.replicate_succ, List.cons_append, writeOutlook]
      by_cases hmore : sent + 1 < size
      · rw [if_pos hmore, ih hmore, Nat.succ_add_eq_add_succ]
        have hlines : size - sent = size - (sent + 1) + 1 := by omega
        split
        · rw [Outlook.plus_some, hlines, Nat.succ_mul, Nat.add_comm Generator.lineWidth]
        · rw [Outlook.plus_some, Nat.succ_mul, Nat.add_comm Generator.lineWidth]
      · have hlines : size - sent = 1 := by omega
        rw [if_neg hmore, if_pos (by omega), hflush, Outlook.plus_some, hlines, Nat.one_mul,
          Nat.add_zero]

end Batch

namespace Peer

/-- A peer that takes each write whole or not at all. -/
def TakesWhole (peer : Peer) : Prop :=
  ∀ reply ∈ peer.writes.replies, reply.IsWhole

/-- A peer that connects at once, takes so many lines whole and no line after them, and has
nothing against a flush. -/
structure TakesLines (peer : Peer) (lines : Nat) : Prop where
  connects : peer.connecting = .accepts 0
  writes : ∃ last rest, peer.writes.replies = List.replicate lines .takesAll ++ last :: rest ∧
    last.IsFinal
  flushes : peer.flushes.replies = []

theorem takesLines_engineFailingAfter (lines : Nat) {cause : Failure}
    (h : cause.kind ≠ .interrupted) : (engineFailingAfter lines cause).TakesLines lines :=
  ⟨rfl, ⟨.fails cause, [], rfl, h⟩, rfl⟩

/-- A peer that accepts at once is connected to, however short the bound. -/
theorem not_canSettle_error {timer : Timer} {plan : Plan} {peer : Peer} {cause : Failure}
    (h : peer.connecting = .accepts 0) :
    ¬ Delivery.CanSettle timer plan peer (.error cause) := by
  intro hcan
  obtain ⟨limit, -, hlate⟩ := hcan.late_of_accepts h
  exact Nat.not_lt_zero _ hlate

/-- A peer that takes so many lines has a batch that is not larger completed, and any other
fail after that many. -/
theorem TakesLines.verdict {peer : Peer} {lines : Nat} (h : peer.TakesLines lines)
    (size : Nat) :
    peer.verdict size (.ok ()) =
      some (if size ≤ lines then .completed size else .failed lines,
        min lines size * Generator.lineWidth) := by
  obtain ⟨last, rest, hreplies, hlast⟩ := h.writes
  rw [Peer.verdict, Batch.lineOutlook, h.flushes, hreplies]
  have hflush : Batch.flushOutlook size [] = some (.completed size, 0) := rfl
  by_cases hsome : 0 < size
  · rw [if_pos hsome, Batch.writeOutlook_replicate hlast rest hsome hflush, Nat.zero_add]
    by_cases hall : size ≤ lines
    · rw [if_pos hall, if_pos hall, Nat.min_eq_right hall, Nat.sub_zero]
    · rw [if_neg hall, if_neg hall, Nat.min_eq_left (Nat.le_of_not_le hall)]
  · have hnone : size = 0 := Nat.eq_zero_of_not_pos hsome
    rw [if_neg hsome, hnone, if_pos (Nat.zero_le _), Nat.min_zero, Nat.zero_mul]
    rfl

/-- If every write is taken whole or not at all, what is taken are the lines that the outcome
reports. -/
theorem TakesWhole.taken {size : Nat} {peer : Peer} {answer : Except Failure Unit}
    {outcome : Outcome} {taken : Nat} (hwhole : peer.TakesWhole)
    (h : peer.verdict size answer = some (outcome, taken)) :
    taken = outcome.sent * Generator.lineWidth := by
  cases answer with
  | error cause =>
      cases h
      rfl
  | ok _ =>
      rw [verdict, Batch.lineOutlook] at h
      split at h
      · rename_i hsome
        have htaken := Batch.taken_of_writeOutlook hwhole Batch.sent_of_flushOutlook hsome h
        rwa [Nat.zero_mul, Nat.zero_add] at htaken
      · rename_i hnone
        obtain ⟨hsent, rfl⟩ := Batch.sent_of_flushOutlook h
        rw [hsent, Nat.eq_zero_of_not_pos hnone, Nat.zero_mul]

end Peer

end OrderFlow
