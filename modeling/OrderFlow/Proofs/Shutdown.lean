import OrderFlow.Shutdown

/-!
# What becomes of tokens

A token listens until the first interrupt after it was made, and that interrupt fires it; it is
fired by hand at any time, which leaves it listening.  What is logged tells of every token that
stopped listening, once, and of nothing else.
-/

namespace OrderFlow.Token

/-- What some steps make of a token in some place. -/
def after (place : Nat) (steps : List Step) (token : Token) : Token :=
  ⟨token.cancelled || .cancel place ∈ steps || token.listening && .interrupt ∈ steps,
    token.listening && .interrupt ∉ steps⟩

theorem getElem?_step {tokens : List Token} {place : Nat} {token : Token} (next : Step)
    (h : tokens[place]? = some token) :
    (step tokens next).1[place]? = some (token.after place [next]) := by
  obtain ⟨cancelled, listening⟩ := token
  cases next with
  | issue =>
      have hplace : place < tokens.length := (List.getElem?_eq_some_iff.mp h).1
      simp [step, after, List.getElem?_append_left hplace, h]
  | interrupt => cases listening <;> simp [step, after, hear, h]
  | cancel index =>
      by_cases hindex : index = place
      · simp [step, after, h, hindex]
      · have hother : place ≠ index := Ne.symm hindex
        simp [step, after, h, hindex, hother]

theorem after_cons (place : Nat) (next : Step) (rest : List Step) (token : Token) :
    (token.after place [next]).after place rest = token.after place (next :: rest) := by
  obtain ⟨cancelled, listening⟩ := token
  by_cases hinterrupt : Step.interrupt = next
  · subst hinterrupt
    cases listening <;> simp [after, Bool.or_comm]
  · by_cases hcancel : Step.cancel place = next
    · cases listening <;> simp [after, hinterrupt, hcancel]
    · cases listening <;> simp [after, hinterrupt, hcancel]

/-- How many tokens have stopped listening. -/
def deafCount (tokens : List Token) : Nat :=
  (tokens.map Token.listening).count false

theorem listening_hear (token : Token) : token.hear.listening = false := by
  obtain ⟨cancelled, listening⟩ := token
  cases listening <;> rfl

theorem length_eq_deafCount_add (tokens : List Token) :
    tokens.length = deafCount tokens + (tokens.filter Token.listening).length := by
  induction tokens with
  | nil => rfl
  | cons token rest ih =>
      obtain ⟨cancelled, listening⟩ := token
      simp only [deafCount] at ih
      cases listening <;> simp [deafCount, ih] <;> omega

theorem step_logs (tokens : List Token) (next : Step) :
    ∃ count, (step tokens next).2 = List.replicate count .interrupted ∧
      deafCount (step tokens next).1 = deafCount tokens + count := by
  cases next with
  | issue => exact ⟨0, rfl, by simp [step, deafCount, fresh]⟩
  | interrupt =>
      refine ⟨(tokens.filter Token.listening).length, List.map_const .., ?_⟩
      rw [← length_eq_deafCount_add]
      simp [step, deafCount, Function.comp_def, listening_hear, List.map_const']
  | cancel index =>
      have hlistening : (tokens.modify index fun token => { token with cancelled := true }).map
          Token.listening = tokens.map Token.listening := by
        apply List.ext_getElem?
        intro place
        rw [List.getElem?_map, List.getElem?_map, List.getElem?_modify]
        cases tokens[place]? with
        | none => rfl
        | some token => by_cases hindex : index = place <;> simp [hindex]
      exact ⟨0, rfl, by rw [deafCount, deafCount, step, hlistening, Nat.add_zero]⟩

/-- What becomes of tokens, whatever happens to them.

A token stays in its place.  It has fired in the end if it had fired before, was fired by hand,
or listened when an interrupt came; it listens in the end if it did before and none came.  All
that is logged are interrupts, one for each token that stopped listening. -/
theorem tokens_hear_one_interrupt (tokens : List Token) (given : List Step) :
    (∀ (place : Nat) (token : Token), tokens[place]? = some token →
      (steps tokens given).1[place]? = some (token.after place given)) ∧
    ∃ count, (steps tokens given).2 = List.replicate count .interrupted ∧
      deafCount (steps tokens given).1 = deafCount tokens + count := by
  induction given generalizing tokens with
  | nil => exact ⟨fun place token h => by simpa [steps, after] using h, 0, rfl, rfl⟩
  | cons next rest ih =>
      obtain ⟨hplaces, more, hmore, hdeaf⟩ := ih (step tokens next).1
      obtain ⟨count, hlogged, hstopped⟩ := step_logs tokens next
      refine ⟨fun place token h => ?_, count + more, ?_, ?_⟩
      · rw [← after_cons]
        exact hplaces place _ (getElem?_step next h)
      · simp only [steps, hlogged, hmore, List.replicate_append_replicate]
      · simp only [steps, hdeaf, hstopped, Nat.add_assoc]

end OrderFlow.Token
