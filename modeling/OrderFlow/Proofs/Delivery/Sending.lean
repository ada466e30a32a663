import OrderFlow.Proofs.Delivery.Answers
import OrderFlow.Proofs.Delivery.Ending
import OrderFlow.Proofs.Delivery.Reports

/-!
# How the sending of a batch ends

A batch that is sent makes calls until one ends it: a flush, or a write that fails.  A call
that is not ready and a write that is interrupted are made again.  So all that comes of a
batch can be told from how much of its text was taken and from the call that ended it.
-/

namespace OrderFlow

namespace Batch

/-- How the last call ends a batch: it is a flush, or fails. -/
inductive Ending where
  | flushed
  | failed (call : Call) (cause : Failure)

namespace Ending

/-- The call in which a batch breaks down, if it does. -/
def call? : Ending → Option Call
  | .flushed => none
  | .failed call _ => some call

/-- The result of a batch of some size of which so many lines were taken. -/
def result (size lines : Nat) : Ending → Result
  | .flushed => .ok size
  | .failed _ cause => .error ⟨lines, cause⟩

/-- How many orders a batch of some size has drawn of which so many lines were taken. -/
def drawn (size lines : Nat) : Ending → Nat
  | .failed .write _ => lines + 1
  | _ => size

theorem drawn_le {size lines : Nat} {ending : Ending}
    (h : ending.call? = some .write → lines < size) : ending.drawn size lines ≤ size := by
  cases ending with
  | flushed => exact Nat.le_refl size
  | failed call cause =>
      cases call with
      | write => exact h rfl
      | flush => exact Nat.le_refl size

/-- A result is that of a batch that ended in this way. -/
def Brings : Ending → Result → Prop
  | .flushed, .ok _ => True
  | .failed _ cause, .error failure => failure.cause = cause
  | _, _ => False

end Ending

end Batch

namespace Act

/-- How an act ends the batch it is done for, if it does. -/
def ending? : Act → Option Batch.Ending
  | .wrote _ (.took count) => if count = 0 then some (.failed .write .writeZero) else none
  | .wrote _ (.failed cause) =>
      if cause.kind = .interrupted then none else some (.failed .write cause)
  | .flushed (.took _) => some .flushed
  | .flushed (.failed cause) => some (.failed .flush cause)
  | _ => none

/-- The ways in which acts end a batch. -/
def endings (acts : List Act) : List Batch.Ending :=
  acts.filterMap ending?

attribute [simp] ending?

@[simp] theorem endings_nil : endings [] = [] := rfl

@[simp] theorem endings_append (xs ys : List Act) :
    endings (xs ++ ys) = endings xs ++ endings ys :=
  List.filterMap_append

@[simp] theorem endings_cons (act : Act) (acts : List Act) :
    endings (act :: acts) = act.ending?.toList ++ endings acts := by
  simp only [endings, List.filterMap_eq_flatMap_toList, List.flatMap_cons]

/-- Some flush went through. -/
def Flushed (acts : List Act) : Prop :=
  ∃ count, .flushed (.took count) ∈ acts

/-- A flush that goes through is an ending. -/
theorem flushed_iff {acts : List Act} : Flushed acts ↔ .flushed ∈ endings acts := by
  rw [endings, List.mem_filterMap]
  constructor
  · rintro ⟨count, hmem⟩
    exact ⟨_, hmem, rfl⟩
  · rintro ⟨act, hmem, hending⟩
    cases act with
    | flushed answer =>
        cases answer with
        | took count => exact ⟨count, hmem⟩
        | notReady => cases hending
        | failed cause => cases hending
    | wrote offered answer =>
        cases answer with
        | took count => by_cases hzero : count = 0 <;> simp [hzero] at hending
        | notReady => cases hending
        | failed cause => by_cases hkind : cause.kind = .interrupted <;> simp [hkind] at hending
    | _ => cases hending

/-- The last act ends a batch, and no act before it does. -/
def EndsIn (acts : List Act) (ending : Batch.Ending) : Prop :=
  ∃ before last, acts = before ++ [last] ∧ endings before = [] ∧ last.ending? = some ending

theorem EndsIn.endings_eq {acts : List Act} {ending : Batch.Ending} (h : EndsIn acts ending) :
    endings acts = [ending] := by
  obtain ⟨before, last, rfl, hbefore, hlast⟩ := h
  rw [endings_append, hbefore, endings_cons, hlast]
  rfl

theorem EndsIn.unique {acts : List Act} {ending ending' : Batch.Ending} (h : EndsIn acts ending)
    (h' : EndsIn acts ending') : ending = ending' :=
  List.singleton_inj.mp (h.endings_eq.symm.trans h'.endings_eq)

/-- A batch breaks down in the call that ends it. -/
theorem breakdown?_eq (act : Act) : act.breakdown? = act.ending?.bind Batch.Ending.call? := by
  cases act with
  | wrote offered answer =>
      cases answer with
      | took count => by_cases hzero : count = 0 <;> simp [hzero, Batch.Ending.call?]
      | notReady => rfl
      | failed cause =>
          by_cases hkind : cause.kind = .interrupted <;> simp [hkind, Batch.Ending.call?]
  | flushed answer => cases answer <;> rfl
  | _ => rfl

theorem breakdowns_eq (acts : List Act) :
    breakdowns acts = (endings acts).filterMap Batch.Ending.call? := by
  rw [breakdowns, funext breakdown?_eq, endings, List.filterMap_filterMap]

end Act

namespace Batch

/-- A batch on its way was not ended by a call. -/
def Unended (acts : List Act) (_ : Batch) : Prop :=
  Act.endings acts = []

/-- A batch was ended by the last call, which brings its result. -/
def EndedBy (acts : List Act) (result : Result) : Prop :=
  ∃ ending, Act.EndsIn acts ending ∧ ending.Brings result

theorem endings_openLine (size sent : Nat) (generator : Generator) :
    Act.endings (openLine size sent generator).2.1 = [] :=
  filterMap_openLine (fun _ => rfl) size sent generator

variable {acts : List Act} {batch : Batch}

theorem endedBy_concat {act : Act} {ending : Ending} {result : Result}
    (h : Act.endings acts = []) (hact : act.ending? = some ending)
    (hresult : ending.Brings result) : EndedBy (acts ++ [act]) result :=
  ⟨ending, ⟨acts, act, rfl, h, hact⟩, hresult⟩

/-- Every call on the connection goes on with the batch or ends it. -/
theorem move_keeps_unended (generator : Generator) (h : Unended acts batch) :
    (batch.move generator).Keeps Unended EndedBy acts := by
  have hunended : Act.endings acts = [] := h
  refine move_keeps_of_calls (fun {sent rest} count hstage => ?_)
    (fun {sent rest answer} hstage hvain => ?_) (fun {sent rest cause} hstage hbroken => ?_)
    (fun hstage => ?_) (fun hstage => ?_) fun {cause} hstage => ?_
  · refine accept_keeps_of_counts (fun _ => ?_) (fun hsome _ => ?_) fun hsome _ => ?_
    · exact endedBy_concat hunended rfl rfl
    · simp [Unended, hunended, hsome, endings_openLine]
    · simp [Unended, hunended, hsome]
  · cases answer with
    | took count => cases hvain
    | notReady => simpa [Unended] using hunended
    | failed cause =>
        have hkind : cause.kind = .interrupted := hvain
        simpa [Unended, hkind] using hunended
  · exact endedBy_concat hunended (if_neg hbroken) rfl
  · exact endedBy_concat hunended rfl trivial
  · simpa [Unended] using hunended
  · exact endedBy_concat hunended rfl rfl

/-! ## Sending to the end -/

theorem isSome_plus {count : Nat} {outlook : Outlook} (h : outlook.isSome) :
    (outlook.plus count).isSome := by
  simpa [Outlook.plus] using h

theorem flushOutlook_isSome {replies : List Reply} (size : Nat) (h : .stalls ∉ replies) :
    (flushOutlook size replies).isSome := by
  induction replies with
  | nil => rfl
  | cons reply rest ih =>
      obtain ⟨hreply, hrest⟩ := List.ne_and_not_mem_of_not_mem_cons h
      cases reply with
      | notReady => exact ih hrest
      | stalls => exact absurd rfl hreply
      | _ => rfl

/-- Writing comes to something if nothing stalls and flushing does. -/
theorem writeOutlook_isSome {size : Nat} {flush : Outlook} {replies : List Reply}
    (h : .stalls ∉ replies) (hflush : flush.isSome) (sent left : Nat) :
    (writeOutlook size flush replies sent left).isSome := by
  induction replies generalizing sent left with
  | nil => exact isSome_plus hflush
  | cons reply rest ih =>
      obtain ⟨hreply, hrest⟩ := List.ne_and_not_mem_of_not_mem_cons h
      have hline : (if sent + 1 < size then
          (writeOutlook size flush rest (sent + 1) Generator.lineWidth).plus left
        else flush.plus left).isSome := by
        split
        · exact isSome_plus (ih hrest _ _)
        · exact isSome_plus hflush
      cases reply with
      | takesAll => exact hline
      | takes count =>
          rw [writeOutlook]
          split
          · rfl
          · split
            · exact hline
            · exact isSome_plus (ih hrest _ _)
      | notReady => exact ih hrest _ _
      | stalls => exact absurd rfl hreply
      | fails cause =>
          rw [writeOutlook]
          split
          · exact ih hrest _ _
          · rfl

/-- What comes of a batch of some size before it begins. -/
def sendOutlook (size : Nat) (writes flushes : Script) : Outlook :=
  lineOutlook size (flushOutlook size flushes.replies) writes.replies 0

theorem sendOutlook_isSome (size : Nat) {writes flushes : Script}
    (hwrites : .stalls ∉ writes.replies) (hflushes : .stalls ∉ flushes.replies) :
    (sendOutlook size writes flushes).isSome := by
  have hflush := flushOutlook_isSome size hflushes
  unfold sendOutlook lineOutlook
  split
  · exact writeOutlook_isSome hwrites hflush _ _
  · exact hflush

/-- Where a batch on its way stands, seen from its acts. -/
structure Underway (size : Nat) (writes flushes : Script) (acts : List Act) (batch : Batch) :
    Prop where
  written : Written size acts batch
  reported : Reported size acts batch
  unbroken : Unbroken size acts batch
  unended : Unended acts batch
  following : Following writes flushes acts batch
  foreseen : Foreseen (sendOutlook size writes flushes) acts batch

/-- Where a batch ended, seen from its acts. -/
structure Over (size : Nat) (writes flushes : Script) (acts : List Act) (result : Result) :
    Prop where
  finished : Finished size acts result
  summed : Summed size acts result
  reckoned : Reckoned size acts result
  ended : EndedBy acts result
  followed : Followed writes flushes acts result

section Send

variable {size : Nat} {writes flushes : Script}

theorem underway_start (size : Nat) (writes flushes : Script) (generator : Generator) :
    Underway size writes flushes (start size writes flushes generator).2.1
      (start size writes flushes generator).2.2 where
  written := @written_start size [] writes flushes generator rfl rfl
  reported := @reported_openLine size [] writes flushes generator (Nat.zero_le size) rfl
  unbroken := @unbroken_openLine size [] writes flushes generator rfl (Nat.zero_le size)
  unended := endings_openLine size 0 generator
  following := ⟨.start writes (calls_openLine .write size 0 generator),
    .start flushes (calls_openLine .flush size 0 generator)⟩
  foreseen := @foreseen_openLine (sendOutlook size writes flushes) [] size 0 writes flushes
    generator (Outlook.plus_zero _).symm

/-- Every call leaves the batch underway with less to do, or over. -/
theorem move_keeps_underway (generator : Generator) (hwrites : .stalls ∉ writes.replies)
    (hflushes : .stalls ∉ flushes.replies) (h : Underway size writes flushes acts batch) :
    (batch.move generator).Keeps
      (fun acts next => Underway size writes flushes acts next ∧ next.load < batch.load)
      (Over size writes flushes) acts := by
  have hsome := sendOutlook_isSome size hwrites hflushes
  have hkept := (move_keeps generator h.written).and
    ((move_keeps_reports generator h.reported).and
      ((move_keeps_unbroken generator h.unbroken).and
        ((move_keeps_unended generator h.unended).and
          ((move_keeps_following generator hwrites hflushes h.following).and
            ((move_keeps_outlook generator h.foreseen).and
              (move_load generator h.foreseen hsome))))))
  -- Each part is kept for a reason of its own; the outlook also makes the load less.
  apply hkept.imp
  · rintro acts next ⟨hwritten, hreported, hunbroken, hunended, hfollowing, hforeseen, hload⟩
    exact ⟨⟨hwritten, hreported, hunbroken, hunended, hfollowing, hforeseen⟩, hload⟩
  · rintro acts result ⟨hfinished, hsummed, hreckoned, hended, hfollowed, -⟩
    exact ⟨hfinished, hsummed, hreckoned, hended, hfollowed⟩

/-- A batch that meets no stall is sent until it is over. -/
theorem over_of_send (size : Nat) (generator : Generator) (hwrites : .stalls ∉ writes.replies)
    (hflushes : .stalls ∉ flushes.replies) :
    ∃ result, (send size writes flushes generator).progress = .ended result ∧
      Over size writes flushes (send size writes flushes generator).acts result :=
  Turn.finish_done load_pos
    (fun _ _ generator h => move_keeps_underway generator hwrites hflushes h) _ _ _
    (start size writes flushes generator).1 (underway_start size writes flushes generator)
    (Nat.le_refl _)

theorem send_draws (size : Nat) (writes flushes : Script) (generator : Generator) :
    (send size writes flushes generator).Draws generator := by
  have hstart := start_draws size writes flushes generator
  have hfinish := Turn.finish_draws move_draws (start size writes flushes generator).2.2.load
    (start size writes flushes generator).2.2 (start size writes flushes generator).1
  simpa [Turn.Draws, send, Turn.after] using hstart.append hfinish

end Send

end Batch

namespace Order.Cut

variable {orders : List Order} {text : List Char} {sent : Nat}

/-- A cut text is where the text of its orders begins. -/
theorem begins (h : Cut orders text sent) : text <+: lines orders := by
  cases h with
  | whole => exact List.prefix_refl _
  | within before last taken rest line missing =>
      refine ⟨rest, ?_⟩
      rw [lines_append, lines_cons, lines_nil, List.append_nil, line, List.append_assoc]

/-- A text that has as many whole lines as there are orders is theirs. -/
theorem eq_lines_of_all (h : Cut orders text sent) (hall : sent = orders.length) :
    text = lines orders := by
  cases h with
  | whole => rfl
  | within before last taken rest line missing => simp at hall

end Order.Cut

namespace Batch

/-- What a batch of some size came to that was sent, by the text that was taken and the call
that ended it. -/
structure Account (size : Nat) (generator : Generator) (turn : Turn Batch Result)
    (ending : Ending) : Prop where
  text : Act.received turn.acts <+: Order.lines (generator.firstOrders size)
  last : Act.EndsIn turn.acts ending
  result : turn.progress =
    .ended (ending.result size (Order.completeLines (Act.received turn.acts)))
  drawn : turn.generator =
    generator.after (ending.drawn size (Order.completeLines (Act.received turn.acts)))
  reported : Act.linesReported turn.acts = Order.completeLines (Act.received turn.acts)
  short : ending.call? = some .write → Order.completeLines (Act.received turn.acts) < size
  whole : ending.call? ≠ some .write →
    Act.received turn.acts = Order.lines (generator.firstOrders size) ∧
      Order.completeLines (Act.received turn.acts) = size

/-- A batch that is over, by the call that ended it: its result, how many orders it drew, and
whether all of its lines were taken. -/
theorem Over.of_ending {size : Nat} {writes flushes : Script} {acts : List Act} {result : Result}
    {ending : Ending} (h : Over size writes flushes acts result) (hlast : Act.EndsIn acts ending)
    (hbrings : ending.Brings result) :
    result = ending.result size (Order.completeLines (Act.received acts)) ∧
      (Act.drawn acts).length =
        ending.drawn size (Order.completeLines (Act.received acts)) ∧
      (ending.call? = some .write → Order.completeLines (Act.received acts) < size) ∧
      (ending.call? ≠ some .write → (Act.drawn acts).length = size ∧
        Act.received acts = Order.lines (Act.drawn acts)) := by
  have hbroken : Act.breakdowns acts = [ending].filterMap Ending.call? := by
    rw [Act.breakdowns_eq, hlast.endings_eq]
  have hreckoned := h.reckoned
  cases ending with
  | flushed =>
      cases result with
      | error failure => exact hbrings.elim
      | ok sent =>
          obtain ⟨rfl, hlength, hreceived⟩ := h.finished
          exact ⟨rfl, hlength, nofun, fun _ => ⟨hlength, hreceived⟩⟩
  | failed call cause =>
      cases result with
      | ok sent => exact hbrings.elim
      | error failure =>
          obtain rfl : failure.cause = cause := hbrings
          have hcut : Order.Cut (Act.drawn acts) (Act.received acts) failure.sent := h.finished
          rw [hcut.completeLines_eq]
          rcases hreckoned with ⟨hwrite, hlt, hlength⟩ | ⟨hflush, hall, hlength⟩
          · rw [hbroken] at hwrite
            obtain rfl : call = .write := List.singleton_inj.mp hwrite
            exact ⟨rfl, hlength, fun _ => hlt, fun hother => absurd rfl hother⟩
          · rw [hbroken] at hflush
            obtain rfl : call = .flush := List.singleton_inj.mp hflush
            exact ⟨rfl, hlength, nofun, fun _ =>
              ⟨hlength, hcut.eq_lines_of_all (hall.trans hlength.symm)⟩⟩

theorem account_of_send (size : Nat) {writes flushes : Script} (generator : Generator)
    (hwrites : .stalls ∉ writes.replies) (hflushes : .stalls ∉ flushes.replies) :
    ∃ ending, Account size generator (send size writes flushes generator) ending := by
  obtain ⟨result, hprogress, hover⟩ := over_of_send size generator hwrites hflushes
  have hyields := send_draws size writes flushes generator
  generalize send size writes flushes generator = turn at hprogress hover hyields
  obtain ⟨ending, hlast, hbrings⟩ := hover.ended
  obtain ⟨rfl, hdrawn, hshort, hwhole⟩ := hover.of_ending hlast hbrings
  have hlines := linesReported_eq hover.finished hover.summed
  have hinOrder : Act.drawn turn.acts = generator.firstOrders (Act.drawn turn.acts).length :=
    hyields.inOrder
  refine ⟨ending, ?_, hlast, hprogress, ?_, hlines, hshort, fun hother => ?_⟩
  · -- No more than the whole batch was drawn, and what was taken begins the text of its orders.
    have hbegins := (Delivery.cut_of_finished hover.finished).begins
    obtain ⟨rest, hrest⟩ := Nat.exists_eq_add_of_le (hdrawn ▸ Ending.drawn_le hshort)
    refine hbegins.trans ?_
    rw [hrest, Generator.firstOrders_add, ← hinOrder, Order.lines_append]
    exact List.prefix_append _ _
  · rw [← hdrawn]
    exact hyields.moved
  · obtain ⟨hlength, hreceived⟩ := hwhole hother
    have hcomplete : Order.completeLines (Act.received turn.acts) = size := by
      rw [hreceived, (Order.Cut.whole _).completeLines_eq, hlength]
    refine ⟨?_, hcomplete⟩
    rw [hreceived, ← hlength, ← hinOrder]

/-- A batch is completed exactly if all of its text was taken and a flush went through. -/
theorem Account.ok_iff {size n : Nat} {generator : Generator} {turn : Turn Batch Result}
    {ending : Ending} (h : Account size generator turn ending) :
    turn.progress = .ended (.ok n) ↔ n = size ∧
      Act.received turn.acts = Order.lines (generator.firstOrders size) ∧
        Act.Flushed turn.acts := by
  rw [Act.flushed_iff, h.last.endings_eq, List.mem_singleton, h.result, Progress.ended.injEq]
  have hwhole := h.whole
  cases ending with
  | flushed =>
      rw [Ending.result, Except.ok.injEq]
      exact ⟨fun hn => ⟨hn.symm, (hwhole nofun).1, rfl⟩, fun hn => hn.1.symm⟩
  | failed call cause => simp [Ending.result]

/-- What comes of a batch does not depend on how its text was taken, only on how much of it was
and on the call that ended it. -/
theorem Account.unique {size : Nat} {generator : Generator} {turn turn' : Turn Batch Result}
    {ending : Ending} (h : Account size generator turn ending)
    (h' : Account size generator turn' ending)
    (hlength : (Act.received turn.acts).length = (Act.received turn'.acts).length) :
    turn.progress = turn'.progress ∧ turn.generator = turn'.generator ∧
      Act.linesReported turn.acts = Act.linesReported turn'.acts := by
  have hreceived : Act.received turn.acts = Act.received turn'.acts :=
    (List.prefix_of_prefix_length_le h.text h'.text (Nat.le_of_eq hlength)).eq_of_length hlength
  refine ⟨?_, ?_, ?_⟩
  · rw [h.result, h'.result, hreceived]
  · rw [h.drawn, h'.drawn, hreceived]
  · rw [h.reported, h'.reported, hreceived]

/-- A batch that meets no stall is sent to its end, whatever its calls are answered.  What is
taken begins the text of its orders, and is all of it exactly if the batch is completed or only
a flush fails.  A batch that breaks down reports the cause and the whole lines taken before it,
logs these lines, and has drawn the next order if the call was a write.  The call that ends it
is the last, and the first that fails other than by being interrupted while writing. -/
theorem send_comes_to_account (size : Nat) {writes flushes : Script} (generator : Generator)
    (hwrites : .stalls ∉ writes.replies) (hflushes : .stalls ∉ flushes.replies) :
    (∃ ending, Account size generator (send size writes flushes generator) ending) ∧
    (Act.Heeds writes .write (send size writes flushes generator).acts ∧
      Act.Heeds flushes .flush (send size writes flushes generator).acts) ∧
    (∀ n, (send size writes flushes generator).progress = .ended (.ok n) ↔ n = size ∧
      Act.received (send size writes flushes generator).acts =
        Order.lines (generator.firstOrders size) ∧
      Act.Flushed (send size writes flushes generator).acts) ∧
    ∀ writes' flushes' ending, .stalls ∉ Script.replies writes' →
      .stalls ∉ Script.replies flushes' →
      Act.EndsIn (send size writes flushes generator).acts ending →
      Act.EndsIn (send size writes' flushes' generator).acts ending →
      (Act.received (send size writes flushes generator).acts).length =
        (Act.received (send size writes' flushes' generator).acts).length →
      (send size writes flushes generator).progress =
          (send size writes' flushes' generator).progress ∧
        (send size writes flushes generator).generator =
          (send size writes' flushes' generator).generator ∧
        Act.linesReported (send size writes flushes generator).acts =
          Act.linesReported (send size writes' flushes' generator).acts := by
  obtain ⟨ending, haccount⟩ := account_of_send size generator hwrites hflushes
  obtain ⟨result, -, hover⟩ := over_of_send size generator hwrites hflushes
  refine ⟨⟨ending, haccount⟩, hover.followed, fun n => haccount.ok_iff, ?_⟩
  intro writes' flushes' last hwrites' hflushes' hlast hlast' hlength
  obtain ⟨ending', haccount'⟩ := account_of_send size generator hwrites' hflushes'
  obtain rfl := haccount.last.unique hlast
  obtain rfl := haccount'.last.unique hlast'
  exact haccount.unique haccount' hlength

theorem account_of_broken_pipe :
    Reply.stalls ∉ Script.replies [(2, .notReady), (1, .fails (.os .brokenPipe))] ∧
      Account 2 (.seeded 10)
        (send 2 [(2, .notReady), (1, .fails (.os .brokenPipe))] [] (.seeded 10))
        (.failed .write (.os .brokenPipe)) := by
  have hwrites : Reply.stalls ∉
      Script.replies [(2, .notReady), (1, .fails (.os .brokenPipe))] := by decide
  have hflushes : Reply.stalls ∉ Script.replies [] := List.not_mem_nil
  obtain ⟨ending, haccount⟩ := (send_comes_to_account 2 (.seeded 10) hwrites hflushes).1
  have hlast : Act.EndsIn
      (send 2 [(2, .notReady), (1, .fails (.os .brokenPipe))] [] (.seeded 10)).acts
      (.failed .write (.os .brokenPipe)) :=
    ⟨[.drew _, .wrote _ .notReady, .wrote _ .notReady], .wrote _ (.failed (.os .brokenPipe)),
      rfl, rfl, rfl⟩
  obtain rfl := haccount.last.unique hlast
  exact ⟨hwrites, haccount⟩

/-- A write that is interrupted is made again, and the batch may still be completed. -/
theorem interrupted_write_is_made_again :
    ∃ offered,
      (send 1 [(1, .fails (.ofKind .interrupted none))] [] (.seeded 10)).acts =
        [.drew (Generator.seeded 10).next.1,
          .wrote offered (.failed (.ofKind .interrupted none)),
          .wrote offered (.took offered.length), .logged .sent, .flushed (.took 0)] ∧
      (send 1 [(1, .fails (.ofKind .interrupted none))] [] (.seeded 10)).progress =
        .ended (.ok 1) := by
  generalize Generator.seeded 10 = generator
  have hline : generator.next.1.line ≠ [] := Order.line_ne_nil _
  refine ⟨generator.next.1.line, ?_, ?_⟩
  · simp [send, start, openLine, load, Script.calls, Turn.finish, Turn.after, move, Script.next,
      accept, Failure.kind, hline]
  · simp [send, start, openLine, load, Script.calls, Turn.finish, Turn.after, move, Script.next,
      accept, Failure.kind, hline]

end Batch

end OrderFlow
