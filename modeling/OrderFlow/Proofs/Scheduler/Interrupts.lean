import OrderFlow.Proofs.Scheduler.Uncancelled

/-!
# What a run notes of its token

A run takes note when its token is fired from outside: once at most, and only while it lasts.
Where no tick fires the token, and the token has not fired at the start, the note stands for
the token as long as the run lasts.  So a run that returned without such a note is, but for the
clock and the token, a run that returned before its token fired.
-/

namespace OrderFlow

variable {σ τ ε : Type}

/-- No tick fires the token. -/
structure Work.SparesToken (work : Work σ τ ε) : Prop where
  call : ∀ tick now shared, (work.call tick now shared).1.cancels = false
  poll : ∀ tick now shared state, (work.poll tick now shared state).1.cancels = false

/-- Whether an entry says that the token was fired from outside. -/
def Entry.cancelled? : Entry ε → Option Unit
  | .cancelled => some ()
  | _ => none

attribute [simp] Entry.cancelled?

/-- The firings of the token that are noted. -/
abbrev Entry.cancelledIn (entries : List (Entry ε)) : List Unit :=
  seen cancelled? entries

namespace Run

variable {schedule : Schedule} {work : Work σ τ ε} {first run next last : Run σ τ ε}
  {action : Action}

theorem Transition.phase_of_isOver (h : Transition schedule work run action next)
    (hover : run.phase.isOver = true) : next.phase = run.phase := by
  cases h with
  | advance move => cases move <;> simp_all [Phase.isOver]
  | takePermit phase uncancelled free => simp [phase, Phase.isOver] at hover
  | call phase called => simp [phase, Phase.isOver] at hover
  | callPanics phase called => simp [phase, Phase.isOver] at hover
  | _ => rfl

/-- Where no tick fires the token only the token itself does. -/
theorem Transition.cancelled_eq (hspares : work.SparesToken)
    (h : Transition schedule work run action next) :
    next.cancelled = (run.cancelled || action = .cancel) := by
  have hcall : ∀ {tick now shared effect reply}, work.call tick now shared = (effect, reply) →
      effect.cancels = false := by
    intro tick now shared effect reply hcalled
    simpa [hcalled] using hspares.call tick now shared
  have hpoll : ∀ {tick now shared state effect status},
      work.poll tick now shared state = (effect, status) → effect.cancels = false := by
    intro tick now shared state effect status hpolled
    simpa [hpolled] using hspares.poll tick now shared state
  cases h with
  | call phase called => simp [hcall called]
  | callPanics phase called => simp [hcall called]
  | finish running polled ending => simp [hpoll polled]
  | drop running polled fired => simpa [hpoll polled] using fired.symm
  | _ => simp

theorem Transition.cancelledIn_eq (h : Transition schedule work run action next) :
    Entry.cancelledIn next.entries = Entry.cancelledIn run.entries ++
      if action = .cancel ∧ run.cancelled = false ∧ run.phase.isOver = false then [()] else [] := by
  cases h with
  | cancel => cases hcancelled : run.cancelled <;> cases hover : run.phase.isOver <;> simp [*]
  | _ => simp

/-- There is one note of the token at the most, and only of a token that fired; while the run
lasts there is one if it fired. -/
structure TokenNoted (run : Run σ τ ε) : Prop where
  once : Entry.cancelledIn run.entries = [] ∨
    run.cancelled = true ∧ Entry.cancelledIn run.entries = [()]
  told : run.cancelled = true → run.phase.isOver = false → Entry.cancelledIn run.entries = [()]

theorem TokenNoted.step (hspares : work.SparesToken) (h : TokenNoted run)
    (htransition : Transition schedule work run action next) : TokenNoted next := by
  have hentries := htransition.cancelledIn_eq
  have hcancelled := htransition.cancelled_eq hspares
  by_cases hnews : action = .cancel ∧ run.cancelled = false ∧ run.phase.isOver = false
  · have hnone : Entry.cancelledIn run.entries = [] := by
      rcases h.once with hnone | ⟨hfired, -⟩
      · exact hnone
      · rw [hnews.2.1] at hfired
        cases hfired
    have hone : Entry.cancelledIn next.entries = [()] := by
      rw [hentries, hnone, if_pos hnews]
      rfl
    exact ⟨Or.inr ⟨by simp [hcancelled, hnews.1], hone⟩, fun _ _ => hone⟩
  · rw [if_neg hnews, List.append_nil] at hentries
    refine ⟨?_, fun hfired hover => ?_⟩
    · rw [hentries]
      refine h.once.imp_right fun hone => ⟨?_, hone.2⟩
      rw [hcancelled, hone.1, Bool.true_or]
    · have hbefore : run.phase.isOver = false := by
        by_contra hended
        rw [Bool.not_eq_false] at hended
        rw [htransition.phase_of_isOver hended, hended] at hover
        cases hover
      rw [hentries]
      refine h.told ?_ hbefore
      simp only [hcancelled, Bool.or_eq_true, decide_eq_true_eq] at hfired
      rcases hfired with hfired | hfired
      · exact hfired
      · by_contra hnot
        exact hnews ⟨hfired, Bool.eq_false_iff.mpr hnot, hbefore⟩

theorem Leads.tokenNoted (hspares : work.SparesToken) (h : first.Leads schedule work run)
    (hfirst : TokenNoted first) : TokenNoted run :=
  h.induction hfirst fun _ htransition ih => ih.step hspares htransition

/-- A run that began with a token not fired has noted nothing of it. -/
theorem tokenNoted_start (now : Nat) (shared : σ) :
    TokenNoted (start schedule now false shared : Run σ τ ε) :=
  ⟨Or.inl rfl, fun hfired => by cases hfired⟩

/-- A run that returned is, but for the clock and the token, the run as it returned, which notes
whether its token had fired. -/
theorem Leads.as_it_returned (hspares : work.SparesToken) {now : Nat} {shared : σ}
    (h : (start schedule now false shared).Leads schedule work last) :
    last.phase = .returned →
      ∃ ended, (start schedule now false shared).Leads schedule work ended ∧
        ended.phase = .returned ∧
        (ended.cancelled = true → Entry.cancelledIn ended.entries = [()]) ∧
        last = { ended with cancelled := last.cancelled, now := last.now } := by
  refine h.induction_step (fun hphase => by cases hphase) ?_
  intro run action next hleads hstep ih hphase
  have hreachable : run.Reachable schedule work := ⟨now, false, shared, hleads⟩
  have htransition := transition_of_step hstep
  by_cases hreturned : run.phase = .returned
  · obtain ⟨ended, hended, hendedPhase, hnoted, hsame⟩ := ih hreturned
    refine ⟨ended, hended, hendedPhase, hnoted, ?_⟩
    rw [htransition.after_return hreturned (hreachable.idle_of_returned hreturned).2, hsame]
  · refine ⟨next, hleads.step hstep, hphase, fun hfired => ?_, rfl⟩
    have hover : run.phase.isOver = false := by
      by_contra hended
      rw [Bool.not_eq_false] at hended
      rw [htransition.phase_of_isOver hended] at hphase
      exact hreturned hphase
    obtain hstays | ⟨-, -, rfl⟩ := htransition.stops_or_stays hphase
    · exact absurd hstays hreturned
    · have hnoted := (hleads.tokenNoted hspares (tokenNoted_start now shared)).told hfired hover
      simpa using hnoted

/-- A run that returned without noting its token is, but for the clock and the token, a run that
returned before its token fired. -/
theorem Leads.exists_uncancelled (hspares : work.SparesToken) {now : Nat} {shared : σ}
    (h : (start schedule now false shared).Leads schedule work last)
    (hphase : last.phase = .returned) (hnone : Entry.cancelledIn last.entries = []) :
    ∃ ended : Run σ τ ε, ended.Reachable schedule work ∧ ended.phase = .returned ∧
      ended.cancelled = false ∧
      last = { ended with cancelled := last.cancelled, now := last.now } := by
  obtain ⟨ended, hended, hendedPhase, hnoted, hsame⟩ := h.as_it_returned hspares hphase
  refine ⟨ended, ⟨now, false, shared, hended⟩, hendedPhase, ?_, hsame⟩
  by_contra hfired
  rw [Bool.not_eq_false] at hfired
  rw [hsame, entries_mk_journal, hnoted hfired] at hnone
  cases hnone

end Run

end OrderFlow
