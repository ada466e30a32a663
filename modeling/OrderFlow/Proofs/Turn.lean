import OrderFlow.Delivery

/-!
# What moves keep

A turn of many moves does the acts of its moves one after the other.  So what every
single move keeps, of the acts done so far and the state reached, is kept by the
whole turn, whether it ends the work or not.  What a single move does, of a batch or
of a delivery, is said here once for all that it may have to keep.
-/

namespace OrderFlow

namespace Turn

variable {τ ρ : Type}

/-- After the acts done so far and those of the turn the work is alive in its new state, or done
with its result. -/
def Keeps (alive : List Act → τ → Prop) (done : List Act → ρ → Prop) (acts : List Act)
    (turn : Turn τ ρ) : Prop :=
  match turn.progress with
  | .again state => alive (acts ++ turn.acts) state
  | .waiting state => alive (acts ++ turn.acts) state
  | .ended result => done (acts ++ turn.acts) result

variable {alive : List Act → τ → Prop} {done : List Act → ρ → Prop}

theorem Keeps.after {acts earlier : List Act} {turn : Turn τ ρ}
    (h : turn.Keeps alive done (acts ++ earlier)) :
    (turn.after earlier).Keeps alive done acts := by
  simpa [Keeps, Turn.after] using h

theorem Keeps.and {alive' : List Act → τ → Prop} {done' : List Act → ρ → Prop}
    {acts : List Act} {turn : Turn τ ρ} (h : turn.Keeps alive done acts)
    (h' : turn.Keeps alive' done' acts) :
    turn.Keeps (fun acts state => alive acts state ∧ alive' acts state)
      (fun acts result => done acts result ∧ done' acts result) acts := by
  unfold Keeps at h h' ⊢
  split <;> simp_all

/-- Acts are not undone. -/
theorem keeps_mem {act : Act} {acts : List Act} (hmem : act ∈ acts) (turn : Turn τ ρ) :
    turn.Keeps (fun acts _ => act ∈ acts) (fun acts _ => act ∈ acts) acts := by
  unfold Keeps
  split
  · exact List.mem_append_left _ hmem
  · exact List.mem_append_left _ hmem
  · exact List.mem_append_left _ hmem

theorem Keeps.imp {alive' : List Act → τ → Prop} {done' : List Act → ρ → Prop}
    {acts : List Act} {turn : Turn τ ρ} (h : turn.Keeps alive done acts)
    (halive : ∀ acts state, alive acts state → alive' acts state)
    (hdone : ∀ acts result, done acts result → done' acts result) :
    turn.Keeps alive' done' acts := by
  unfold Keeps at h ⊢
  split
  · rename_i state hprogress
    rw [hprogress] at h
    exact halive _ state h
  · rename_i state hprogress
    rw [hprogress] at h
    exact halive _ state h
  · rename_i result hprogress
    rw [hprogress] at h
    exact hdone _ result h

variable {move : τ → Generator → Turn τ ρ}

theorem poll_keeps
    (hmove : ∀ acts state generator, alive acts state →
      (move state generator).Keeps alive done acts) :
    ∀ fuel acts state generator, alive acts state →
      (poll move fuel state generator).Keeps alive done acts := by
  intro fuel
  induction fuel with
  | zero =>
      intro acts state generator halive
      simpa [poll, Keeps] using halive
  | succ fuel ih =>
      intro acts state generator halive
      have hturn := hmove acts state generator halive
      rw [poll]
      split
      · rename_i next hprogress
        rw [Keeps, hprogress] at hturn
        exact (ih _ next _ hturn).after
      · exact hturn
      · exact hturn

theorem poll_ne_again (move : τ → Generator → Turn τ ρ) :
    ∀ fuel state generator next, (poll move fuel state generator).progress ≠ .again next := by
  intro fuel
  induction fuel with
  | zero => exact fun _ _ _ => nofun
  | succ fuel ih =>
      intro state generator next
      rw [poll]
      split
      · exact ih _ _ next
      · rename_i hprogress
        rw [hprogress]
        exact nofun
      · rename_i hprogress
        rw [hprogress]
        exact nofun

/-- A poll stops at a move that has to wait, if every move that does not wait leaves less to
do. -/
theorem exists_move_of_waiting {load : τ → Nat} (hpos : ∀ state, 0 < load state)
    (hagain : ∀ acts state generator next, alive acts state →
      (move state generator).progress = .again next →
        alive (acts ++ (move state generator).acts) next ∧ load next < load state) :
    ∀ fuel acts state generator next, alive acts state → load state ≤ fuel →
      (poll move fuel state generator).progress = .waiting next →
        ∃ last later, (move last later).progress = .waiting next := by
  intro fuel
  induction fuel with
  | zero =>
      intro _ state _ _ _ hfuel
      exact absurd (hpos state) (Nat.not_lt_of_le hfuel)
  | succ fuel ih =>
      intro acts state generator next halive hfuel hwaiting
      rw [poll] at hwaiting
      split at hwaiting
      · rename_i state' hprogress
        obtain ⟨hnext, hless⟩ := hagain acts state generator state' halive hprogress
        exact ih _ state' _ next hnext (Nat.le_of_lt_succ (Nat.lt_of_lt_of_le hless hfuel))
          hwaiting
      · exact ⟨state, generator, hwaiting⟩
      · rename_i hprogress
        rw [hprogress] at hwaiting
        cases hwaiting

/-- Work of which every move leaves less to do is done by as many moves as there is to do. -/
theorem finish_done {load : τ → Nat} (hpos : ∀ state, 0 < load state)
    (hmove : ∀ acts state generator, alive acts state →
      (move state generator).Keeps (fun acts next => alive acts next ∧ load next < load state)
        done acts) :
    ∀ fuel acts state generator, alive acts state → load state ≤ fuel →
      ∃ result, (finish move fuel state generator).progress = .ended result ∧
        done (acts ++ (finish move fuel state generator).acts) result := by
  intro fuel
  induction fuel with
  | zero =>
      intro _ state _ _ hfuel
      exact absurd (hpos state) (Nat.not_lt_of_le hfuel)
  | succ fuel ih =>
      intro acts state generator halive hfuel
      have hturn := hmove acts state generator halive
      have hrest : ∀ next, alive (acts ++ (move state generator).acts) next ∧
          load next < load state → ∃ result,
          (finish move fuel next (move state generator).generator).progress = .ended result ∧
          done (acts ++ ((move state generator).acts ++
            (finish move fuel next (move state generator).generator).acts)) result := by
        rintro next ⟨hnext, hless⟩
        rw [← List.append_assoc]
        exact ih _ next _ hnext (Nat.le_of_lt_succ (Nat.lt_of_lt_of_le hless hfuel))
      rw [finish]
      split
      · rename_i next hprogress
        rw [Keeps, hprogress] at hturn
        exact hrest next hturn
      · rename_i next hprogress
        rw [Keeps, hprogress] at hturn
        exact hrest next hturn
      · rename_i result hprogress
        rw [Keeps, hprogress] at hturn
        exact ⟨result, hprogress, hturn⟩

end Turn

/-- An answer after which a write is made again. -/
def Answer.IsVain : Answer → Prop
  | .took _ => False
  | .notReady => True
  | .failed cause => cause.kind = .interrupted

namespace Batch

variable {alive : List Act → Batch → Prop} {done : List Act → Result → Prop} {acts : List Act}
  {batch : Batch} {generator : Generator}

/-- A line is opened by drawing its order, and by nothing else. -/
theorem filterMap_openLine {α : Type} {view : Act → Option α}
    (h : ∀ order, view (.drew order) = none) (size sent : Nat) (generator : Generator) :
    (openLine size sent generator).2.1.filterMap view = [] := by
  unfold openLine
  split
  · exact List.filterMap_cons_none (h _)
  · rfl

/-- A write that takes something ends its line and has the next one opened, or leaves some of
it. -/
theorem accept_keeps_of_counts {sent count : Nat} {rest : List Char}
    (hnothing : count = 0 → done (acts ++ [.wrote rest (.took 0)]) (.error ⟨sent, .writeZero⟩))
    (hline : count ≠ 0 → rest.length ≤ count →
      alive (acts ++ [.wrote rest (.took count), .logged .sent] ++
          (openLine batch.size (sent + 1) generator).2.1)
        { batch with stage := (openLine batch.size (sent + 1) generator).2.2 })
    (hpart : count ≠ 0 → ¬ rest.length ≤ count →
      alive (acts ++ [.wrote rest (.took count)])
        { batch with stage := .writing sent (rest.drop count) }) :
    (batch.accept sent rest count generator).Keeps alive done acts := by
  unfold accept
  by_cases hzero : count = 0
  · rw [if_pos hzero]
    subst hzero
    exact hnothing rfl
  · rw [if_neg hzero]
    by_cases hall : rest.length ≤ count
    · rw [if_pos hall]
      have hopened := hline hzero hall
      rw [List.append_assoc] at hopened
      exact hopened
    · rw [if_neg hall]
      exact hpart hzero hall

theorem move_keeps_of_calls
    (hwrite : ∀ {sent rest} count, batch.stage = .writing sent rest →
      ({ batch with writes := batch.writes.next.2 }.accept sent rest count generator).Keeps
        alive done acts)
    (hvain : ∀ {sent rest answer}, batch.stage = .writing sent rest → answer.IsVain →
      alive (acts ++ [.wrote rest answer]) { batch with writes := batch.writes.next.2 })
    (hbroken : ∀ {sent rest cause}, batch.stage = .writing sent rest →
      cause.kind ≠ .interrupted →
      done (acts ++ [.wrote rest (.failed cause)]) (.error ⟨sent, cause⟩))
    (hflushed : batch.stage = .flushing →
      done (acts ++ [.flushed (.took 0)]) (.ok batch.size))
    (hunready : batch.stage = .flushing →
      alive (acts ++ [.flushed .notReady]) { batch with flushes := batch.flushes.next.2 })
    (hunflushed : ∀ {cause}, batch.stage = .flushing →
      done (acts ++ [.flushed (.failed cause)]) (.error ⟨batch.size, cause⟩)) :
    (batch.move generator).Keeps alive done acts := by
  unfold move
  split
  · rename_i sent rest hstage
    dsimp only
    split
    · exact hwrite _ hstage
    · exact hwrite _ hstage
    · exact hvain hstage trivial
    · exact hvain hstage trivial
    · rename_i cause _
      by_cases hinterrupted : cause.kind = .interrupted
      · rw [if_pos hinterrupted]
        exact hvain hstage hinterrupted
      · rw [if_neg hinterrupted]
        exact hbroken hstage hinterrupted
  · rename_i hstage
    dsimp only
    split
    · exact hflushed hstage
    · exact hflushed hstage
    · exact hunready hstage
    · exact hunready hstage
    · exact hunflushed hstage

end Batch

namespace Delivery

variable {alive : List Act → Delivery → Prop} {done : List Act → Batch.Result → Prop}

/-- What is to hold once the batch of a delivery has ended: its connection is to be closed, or it
is released at once. -/
def Concludes (alive : List Act → Delivery → Prop) (done : List Act → Batch.Result → Prop)
    (delivery : Delivery) (acts : List Act) : Batch.Result → Prop
  | .ok sent => alive acts { delivery with stage := .closing sent }
  | .error failure => done (acts ++ [.released]) (.error failure)

/-- A look at an attempt to connect leaves it as it is, ends the delivery, or has the batch begun
on the connection. -/
theorem connect_keeps_of_attempt {timer : Timer} {now since : Nat} {acts : List Act}
    {delivery : Delivery} {generator : Generator}
    (hwaiting : attempt? timer now since delivery.plan delivery.peer = none →
      alive acts delivery)
    (hfailed : ∀ cause,
      attempt? timer now since delivery.plan delivery.peer = some (.error cause) →
        done acts (.error ⟨0, cause⟩))
    (hopened : attempt? timer now since delivery.plan delivery.peer = some (.ok ()) →
      alive (acts ++ [.established, .logged (.connected delivery.plan.target)] ++
          (Batch.openLine delivery.plan.batchSize 0 generator).2.1)
        { delivery with
          stage := .sending ⟨delivery.plan.batchSize,
            (Batch.openLine delivery.plan.batchSize 0 generator).2.2, delivery.peer.writes,
            delivery.peer.flushes⟩ }) :
    (connect timer now delivery since generator).Keeps alive done acts := by
  unfold connect
  dsimp only
  split
  · rename_i hattempt
    simpa [Turn.Keeps] using hwaiting hattempt
  · rename_i cause hattempt
    simpa [Turn.Keeps] using hfailed cause hattempt
  · rename_i hattempt
    have hbegun := hopened hattempt
    rw [List.append_assoc] at hbegun
    exact hbegun

theorem move_keeps_of_stages {timer : Timer} {now : Nat} {acts : List Act} {delivery : Delivery}
    {generator : Generator}
    (hattempt : delivery.stage = .unstarted →
      alive (acts ++ [.attempted]) { delivery with stage := .connecting now })
    (hconnect : ∀ since, delivery.stage = .connecting since →
      (connect timer now delivery since generator).Keeps alive done acts)
    (hsend : ∀ batch, delivery.stage = .sending batch →
      (batch.move generator).Keeps
        (fun acts next => alive acts { delivery with stage := .sending next })
        (Concludes alive done delivery) acts)
    (hclose : ∀ sent, delivery.stage = .closing sent →
      (close delivery sent generator).Keeps alive done acts) :
    (move timer now delivery generator).Keeps alive done acts := by
  unfold move
  split
  · rename_i hstage
    exact hattempt hstage
  · rename_i since hstage
    exact hconnect since hstage
  · rename_i batch hstage
    have hbatch := hsend batch hstage
    unfold Turn.Keeps at hbatch
    dsimp only
    split
    · rename_i next hprogress
      rw [hprogress] at hbatch
      exact hbatch
    · rename_i next hprogress
      rw [hprogress] at hbatch
      exact hbatch
    · rename_i sent hprogress
      rw [hprogress] at hbatch
      exact hbatch
    · rename_i failure hprogress
      rw [hprogress] at hbatch
      have hdone : done (acts ++ (batch.move generator).acts ++ [.released]) (.error failure) :=
        hbatch
      rwa [List.append_assoc] at hdone
  · rename_i sent hstage
    exact hclose sent hstage

end Delivery

end OrderFlow
