import OrderFlow.Proofs.Scheduler.Ledger

/-!
# What single ticks do

A run interleaves its ticks, but the acts of one tick are those of its work alone:
its call, its polls and, if it is dropped, the drop.  A property of a tick's acts
that its work keeps, `Work.Keeps`, therefore holds of every tick in every
reachable run.  Once a tick has ended it does nothing any more.
-/

namespace OrderFlow

variable {σ τ ε : Type}

/-- A work keeps two properties: one of the acts of a tick in flight and its state, and one of
the acts of a tick that ended and its ending. -/
structure Work.Keeps (work : Work σ τ ε) (alive : Nat → List ε → τ → Prop)
    (done : Nat → List ε → Ending → Prop) : Prop where
  call : ∀ {tick now shared effect state},
    work.call tick now shared = (effect, .ok state) → alive tick effect.acts state
  pending : ∀ {tick now shared effect state next acts},
    alive tick acts state → work.poll tick now shared state = (effect, .pending next) →
      alive tick (acts ++ effect.acts) next
  ending : ∀ {tick now shared effect state status how acts},
    alive tick acts state → work.poll tick now shared state = (effect, status) →
      status.ending? = some how → done tick (acts ++ effect.acts) how
  drop : ∀ {tick state acts},
    alive tick acts state → done tick (acts ++ work.drop state) .dropped

namespace Entry

/-- Nothing is done later by a tick that ended earlier. -/
def QuietAfter (earlier later : Entry ε) : Prop :=
  ∀ tick how, earlier.ended? = some (tick, how) → later.actOf? tick = none

theorem pairwise_quietAfter_append {entries notes : List (Entry ε)}
    (h : entries.Pairwise QuietAfter) (hnotes : notes.Pairwise QuietAfter)
    (hsilent : ∀ tick ∈ (endedIn entries).map Prod.fst, actsIn tick notes = []) :
    (entries ++ notes).Pairwise QuietAfter := by
  refine List.pairwise_append.mpr ⟨h, hnotes, ?_⟩
  intro earlier hearlier later hlater tick how hended
  have hmem : tick ∈ (endedIn entries).map Prod.fst :=
    List.mem_map.mpr ⟨(tick, how), mem_seen_iff.mpr ⟨earlier, hearlier, hended⟩, rfl⟩
  exact List.filterMap_eq_nil_iff.mp (hsilent tick hmem) later hlater

theorem pairwise_quietAfter_of_endedIn {notes : List (Entry ε)}
    (h : endedIn notes = []) : notes.Pairwise QuietAfter := by
  apply List.pairwise_iff_forall_sublist.mpr
  intro earlier later hsublist tick how hended
  have hearlier : earlier ∈ notes := hsublist.subset (by simp)
  rw [List.filterMap_eq_nil_iff.mp h earlier hearlier] at hended
  cases hended

theorem pairwise_quietAfter_did_concat (tick : Nat) (acts : List ε) (last : Entry ε) :
    (acts.map (Entry.did tick) ++ [last]).Pairwise QuietAfter := by
  refine List.pairwise_append.mpr
    ⟨pairwise_quietAfter_of_endedIn (by simp), by simp, ?_⟩
  intro earlier hearlier later _ n how hended
  obtain ⟨act, _, rfl⟩ := List.mem_map.mp hearlier
  cases hended

theorem actsIn_of_quietAfter {before after : List (Entry ε)} {tick now : Nat} {how : Ending}
    (h : (before ++ .ended tick now how :: after).Pairwise QuietAfter) :
    actsIn tick after = [] := by
  have hafter := (List.pairwise_append.mp h).2.1
  apply List.filterMap_eq_nil_iff.mpr
  intro later hlater
  exact List.rel_of_pairwise_cons hafter hlater tick how rfl

end Entry

namespace Run

variable {schedule : Schedule} {work : Work σ τ ε} {run next : Run σ τ ε}
  {alive : Nat → List ε → τ → Prop} {done : Nat → List ε → Ending → Prop}

/-! ## Ticks in flight have not ended -/

theorem mem_of_lookup {running : List (Nat × τ)} {tick : Nat} {state : τ}
    (h : running.lookup tick = some state) : (tick, state) ∈ running := by
  obtain ⟨before, after, hsplit, _⟩ := List.lookup_eq_some_iff.mp h
  simp [hsplit]

theorem Reachable.called_of_ended {tick : Nat} (h : run.Reachable schedule work)
    (haborted : run.phase.isAborted = false)
    (hended : tick ∈ (Entry.endedIn run.entries).map Prod.fst) :
    tick ∈ Entry.calledIn run.entries :=
  (h.settled.called haborted).mem_iff.mpr (List.mem_append_left _ hended)

theorem Reachable.called_of_running {tick : Nat} {state : τ}
    (h : run.Reachable schedule work) (hrunning : (tick, state) ∈ run.running)
    (haborted : run.phase.isAborted = false) : tick ∈ Entry.calledIn run.entries :=
  (h.settled.called haborted).mem_iff.mpr
    (List.mem_append_right _ (List.mem_map.mpr ⟨_, hrunning, rfl⟩))

theorem Reachable.not_ended_of_running {tick : Nat} {state : τ}
    (h : run.Reachable schedule work) (hrunning : (tick, state) ∈ run.running)
    (haborted : run.phase.isAborted = false) :
    tick ∉ (Entry.endedIn run.entries).map Prod.fst := by
  intro hended
  have hnodup := (h.settled.called haborted).nodup_iff.mp h.nodup_called
  exact (List.nodup_append.mp hnodup).2.2 tick hended tick
    (List.mem_map.mpr ⟨_, hrunning, rfl⟩) rfl

theorem Reachable.fresh_not_called (h : run.Reachable schedule work) :
    run.summary.ticks + 1 ∉ Entry.calledIn run.entries := by
  rw [h.called]
  intro hmem
  have hle := (List.mem_range'_1.mp hmem).2
  omega

/-- An aborted run never resumes. -/
theorem Transition.not_aborted {action : Action} (h : Transition schedule work run action next)
    (haborted : next.phase.isAborted = false) : run.phase.isAborted = false := by
  cases h with
  | advance move => exact move.not_aborted.1
  | takePermit phase uncancelled free => rw [phase]; rfl
  | call phase called => rw [phase]; rfl
  | callPanics phase called => cases haborted
  | _ => exact haborted

/-- Where no call panics no run is aborted. -/
theorem Reachable.not_aborted
    (hcall : ∀ tick now shared, ∃ effect state,
      work.call tick now shared = (effect, .ok state))
    (h : run.Reachable schedule work) : run.phase.isAborted = false := by
  refine h.induction (fun _ _ _ => rfl) ?_
  intro run action next _ htransition ih
  cases htransition with
  | advance move => exact move.not_aborted.2
  | takePermit phase uncancelled free => rfl
  | call phase called => rfl
  | callPanics phase called =>
      obtain ⟨effect, state, hok⟩ := hcall (run.summary.ticks + 1) run.now run.shared
      rw [hok] at called
      cases called
  | _ => exact ih

/-! ## Properties of single ticks -/

/-- Every tick has the property that its place calls for, and a tick not called has done
nothing. -/
structure Traced (alive : Nat → List ε → τ → Prop) (done : Nat → List ε → Ending → Prop)
    (run : Run σ τ ε) : Prop where
  running : ∀ tick state, (tick, state) ∈ run.running →
    alive tick (Entry.actsIn tick run.entries) state
  ended : ∀ tick how, (tick, how) ∈ Entry.endedIn run.entries →
    done tick (Entry.actsIn tick run.entries) how
  uncalled : ∀ tick, tick ∉ Entry.calledIn run.entries →
    Entry.actsIn tick run.entries = []
  quiet : run.entries.Pairwise Entry.QuietAfter

/-- What is written of one tick concerns no other: if it has the property that its new place
calls for, all ticks have theirs. -/
theorem Traced.turn {notes : List (Entry ε)} (h : Traced alive done run) (tick : Nat)
    (hentries : next.entries = run.entries ++ notes)
    (hnotes : ∀ n, n ≠ tick → Entry.actsIn n notes = [])
    (hpairwise : notes.Pairwise Entry.QuietAfter)
    (hcalled : tick ∈ Entry.calledIn next.entries)
    (hnot : tick ∉ (Entry.endedIn run.entries).map Prod.fst)
    (hrunning : ∀ n state, (n, state) ∈ next.running →
      (n ≠ tick ∧ (n, state) ∈ run.running) ∨
        (n = tick ∧ alive tick (Entry.actsIn tick next.entries) state))
    (hended : ∀ n how, (n, how) ∈ Entry.endedIn notes →
      n = tick ∧ done tick (Entry.actsIn tick next.entries) how) :
    Traced alive done next := by
  have hother : ∀ n, n ≠ tick →
      Entry.actsIn n next.entries = Entry.actsIn n run.entries := by
    intro n hn
    simp [hentries, hnotes n hn]
  have hbefore : ∀ n how, (n, how) ∈ Entry.endedIn run.entries → n ≠ tick := by
    rintro n how hmem rfl
    exact hnot (List.mem_map.mpr ⟨_, hmem, rfl⟩)
  refine ⟨?_, ?_, ?_, ?_⟩
  · intro n state hmem
    rcases hrunning n state hmem with ⟨hn, hsame⟩ | ⟨rfl, halive⟩
    · rw [hother n hn]
      exact h.running n state hsame
    · exact halive
  · intro n how hmem
    simp only [hentries, Entry.seen_append, List.mem_append] at hmem
    rcases hmem with hmem | hmem
    · rw [hother n (hbefore n how hmem)]
      exact h.ended n how hmem
    · obtain ⟨rfl, hdone⟩ := hended n how hmem
      exact hdone
  · intro n hmem
    have hn : n ≠ tick := by
      rintro rfl
      exact hmem hcalled
    rw [hother n hn]
    apply h.uncalled n
    intro hearlier
    exact hmem (by simp [hentries, hearlier])
  · rw [hentries]
    apply Entry.pairwise_quietAfter_append h.quiet hpairwise
    intro n hmem
    apply hnotes n
    rintro rfl
    exact hnot hmem

/-- A tick that leaves does its last acts and ends. -/
theorem Traced.leave {tick now : Nat} {state : τ} {how : Ending} {acts : List ε}
    (h : Traced alive done run) (hreachable : run.Reachable schedule work)
    (hlookup : run.running.lookup tick = some state)
    (hentries : next.entries =
      run.entries ++ (acts.map (Entry.did tick) ++ [.ended tick now how]))
    (hnext : next.running = run.running.filter fun entry => entry.1 != tick)
    (hdone : done tick (Entry.actsIn tick run.entries ++ acts) how) :
    Traced alive done next := by
  have haborted := hreachable.settled.not_aborted hlookup
  have hmem := mem_of_lookup hlookup
  apply h.turn tick hentries
  · intro n hn
    simp [Entry.actsIn_did_of_ne (Ne.symm hn)]
  · exact Entry.pairwise_quietAfter_did_concat tick acts (.ended tick now how)
  · simpa [hentries] using hreachable.called_of_running hmem haborted
  · exact hreachable.not_ended_of_running hmem haborted
  · intro n other hother
    rw [hnext, List.mem_filter] at hother
    exact Or.inl ⟨by simpa using hother.2, hother.1⟩
  · intro n other hother
    obtain ⟨rfl, rfl⟩ : n = tick ∧ other = how := by simpa using hother
    exact ⟨rfl, by simpa [hentries] using hdone⟩

/-- A poll that leaves a tick in flight adds to its acts. -/
theorem Traced.stay {tick : Nat} {state state' : τ} {acts : List ε}
    (h : Traced alive done run) (hreachable : run.Reachable schedule work)
    (hlookup : run.running.lookup tick = some state)
    (hentries : next.entries = run.entries ++ acts.map (Entry.did tick))
    (hnext : next.running =
      run.running.map fun entry => if entry.1 = tick then (tick, state') else entry)
    (halive : alive tick (Entry.actsIn tick run.entries ++ acts) state') :
    Traced alive done next := by
  have haborted := hreachable.settled.not_aborted hlookup
  have hmem := mem_of_lookup hlookup
  apply h.turn tick hentries
  · intro n hn
    exact Entry.actsIn_did_of_ne (Ne.symm hn) acts
  · exact Entry.pairwise_quietAfter_of_endedIn (by simp)
  · simpa [hentries] using hreachable.called_of_running hmem haborted
  · exact hreachable.not_ended_of_running hmem haborted
  · intro n other hother
    rw [hnext] at hother
    obtain ⟨⟨n', other'⟩, hbefore, heq⟩ := List.mem_map.mp hother
    by_cases hn : n' = tick
    · rw [if_pos hn] at heq
      cases heq
      exact Or.inr ⟨rfl, by simpa [hentries] using halive⟩
    · rw [if_neg hn] at heq
      cases heq
      exact Or.inl ⟨hn, hbefore⟩
  · intro n how hended
    simp at hended

/-- A tick that is called has done what its call did. -/
theorem Traced.join {now : Nat} {state : τ} {acts : List ε}
    (h : Traced alive done run) (hreachable : run.Reachable schedule work)
    (haborted : run.phase.isAborted = false)
    (hentries : next.entries = run.entries ++ (.called (run.summary.ticks + 1) now ::
      acts.map (Entry.did (run.summary.ticks + 1))))
    (hnext : next.running = run.running ++ [(run.summary.ticks + 1, state)])
    (halive : alive (run.summary.ticks + 1) acts state) :
    Traced alive done next := by
  have hfresh := hreachable.fresh_not_called
  apply h.turn (run.summary.ticks + 1) hentries
  · intro n hn
    simp [Entry.actsIn_did_of_ne (Ne.symm hn)]
  · exact Entry.pairwise_quietAfter_of_endedIn (by simp)
  · simp [hentries]
  · intro hended
    exact hfresh (hreachable.called_of_ended haborted hended)
  · intro n other hmem
    rw [hnext, List.mem_append, List.mem_singleton] at hmem
    rcases hmem with hbefore | heq
    · refine Or.inl ⟨?_, hbefore⟩
      rintro rfl
      exact hfresh (hreachable.called_of_running hbefore haborted)
    · cases heq
      exact Or.inr ⟨rfl, by simpa [hentries, h.uncalled _ hfresh] using halive⟩
  · intro n how hended
    simp at hended

/-- What writes no act and touches no tick in flight leaves every tick as it was. -/
theorem Traced.pass {notes : List (Entry ε)} (h : Traced alive done run)
    (hentries : next.entries = run.entries ++ notes) (hnext : next.running = run.running)
    (hcalled : Entry.calledIn notes = []) (hended : Entry.endedIn notes = [])
    (hacts : ∀ tick, Entry.actsIn tick notes = []) : Traced alive done next := by
  refine ⟨?_, ?_, ?_, ?_⟩
  · simpa [hentries, hnext, hacts] using h.running
  · simpa [hentries, hended, hacts] using h.ended
  · simpa [hentries, hcalled, hacts] using h.uncalled
  · rw [hentries]
    exact Entry.pairwise_quietAfter_append h.quiet
      (Entry.pairwise_quietAfter_of_endedIn hended) fun tick _ => hacts tick

theorem traced_start (now : Nat) (cancelled : Bool) (shared : σ) :
    Traced alive done (start schedule now cancelled shared : Run σ τ ε) where
  running := fun _ _ hmem => by cases hmem
  ended := fun _ _ hmem => by cases hmem
  uncalled := fun _ _ => rfl
  quiet := List.pairwise_singleton _ _

/-- What the work of a tick keeps in a step, from where the run stands, holds of the ticks after
it. -/
theorem Traced.step {action : Action} (h : Traced alive done run)
    (hreachable : run.Reachable schedule work)
    (htransition : Transition schedule work run action next)
    (haborted : next.phase.isAborted = false)
    (hcall : ∀ {tick effect state}, work.call tick run.now run.shared = (effect, .ok state) →
      alive tick effect.acts state)
    (hpending : ∀ {tick state acts effect later}, (tick, state) ∈ run.running →
      alive tick acts state → work.poll tick run.now run.shared state = (effect, .pending later) →
        alive tick (acts ++ effect.acts) later)
    (hending : ∀ {tick state acts effect status how}, (tick, state) ∈ run.running →
      alive tick acts state → work.poll tick run.now run.shared state = (effect, status) →
        status.ending? = some how → done tick (acts ++ effect.acts) how)
    (hdrop : ∀ {tick state acts}, alive tick acts state →
      done tick (acts ++ work.drop state) .dropped) :
    Traced alive done next := by
  cases htransition with
  | advance move => exact h.pass (entries_mk_journalWith ..) rfl (by simp) (by simp) (by simp)
  | takePermit phase uncancelled free =>
      exact h.pass (List.append_nil _).symm rfl rfl rfl fun _ => rfl
  | call phase called =>
      exact h.join hreachable (by rw [phase]; rfl) (entries_mk_journalWith ..) rfl (hcall called)
  | callPanics phase called => cases haborted
  | collect phase found =>
      exact h.pass (entries_mk_journalWith ..) rfl (by simp) (by simp) (by simp)
  | finish running polled ending =>
      have hmem := mem_of_lookup running
      exact h.leave hreachable running (entries_mk_journalWith ..) rfl
        (hending hmem (h.running _ _ hmem) polled ending)
  | drop running polled fired =>
      have hmem := mem_of_lookup running
      have hdone := hdrop (hpending hmem (h.running _ _ hmem) polled)
      rw [List.append_assoc] at hdone
      exact h.leave hreachable running (entries_mk_journalWith ..) rfl hdone
  | keep running polled unfired =>
      have hmem := mem_of_lookup running
      exact h.stay hreachable running (entries_mk_journalWith ..) rfl
        (hpending hmem (h.running _ _ hmem) polled)
  | cancel => exact h.pass (entries_mk_journalWith ..) rfl (by simp) (by simp) (by simp)
  | wait later => exact h.pass (List.append_nil _).symm rfl rfl rfl fun _ => rfl

/-- What the work of single ticks keeps holds of the ticks of every run in which no call
panicked. -/
theorem Reachable.traced (hkeeps : work.Keeps alive done) (h : run.Reachable schedule work) :
    run.phase.isAborted = false → Traced alive done run := by
  refine h.induction (fun now cancelled shared _ => traced_start now cancelled shared) ?_
  intro run action next hreachable htransition ih haborted
  exact (ih (htransition.not_aborted haborted)).step hreachable htransition haborted hkeeps.call
    (fun _ => hkeeps.pending) (fun _ => hkeeps.ending) hkeeps.drop

/-- A tick is in flight, has ended, or has done nothing. -/
theorem Traced.places (h : Traced alive done run) (hreachable : run.Reachable schedule work)
    (haborted : run.phase.isAborted = false) (tick : Nat) :
    (∃ state, (tick, state) ∈ run.running ∧
      alive tick (Entry.actsIn tick run.entries) state) ∨
    (∃ how, (tick, how) ∈ Entry.endedIn run.entries ∧
      done tick (Entry.actsIn tick run.entries) how) ∨
    Entry.actsIn tick run.entries = [] := by
  by_cases hcalled : tick ∈ Entry.calledIn run.entries
  · have hplaces := (hreachable.settled.called haborted).mem_iff.mp hcalled
    rcases List.mem_append.mp hplaces with hended | hrunning
    · obtain ⟨⟨n, how⟩, hmem, rfl⟩ := List.mem_map.mp hended
      exact Or.inr (Or.inl ⟨how, hmem, h.ended n how hmem⟩)
    · obtain ⟨⟨n, state⟩, hmem, rfl⟩ := List.mem_map.mp hrunning
      exact Or.inl ⟨state, hmem, h.running n state hmem⟩
  · exact Or.inr (Or.inr (h.uncalled tick hcalled))

/-- Where a tick ended in the journal it had done all it ever does. -/
theorem Traced.at_end {before after : List (Entry ε)} {tick now : Nat} {how : Ending}
    (h : Traced alive done run)
    (hsplit : run.entries = before ++ .ended tick now how :: after) :
    done tick (Entry.actsIn tick before) how ∧ Entry.actsIn tick after = [] := by
  have hquiet := h.quiet
  rw [hsplit] at hquiet
  have hafter := Entry.actsIn_of_quietAfter hquiet
  have hdone := h.ended tick how (by simp [hsplit])
  refine ⟨?_, hafter⟩
  simpa [hsplit, hafter] using hdone

end Run

end OrderFlow
