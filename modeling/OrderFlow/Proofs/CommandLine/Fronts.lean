import Mathlib.Data.List.Induction
import OrderFlow.Proofs.CommandLine.Settings

/-!
# How far a command line is read

What reading gets through are segments that spell a command line of their own, an option at
the end whose value is not tested yet, if it has one, and perhaps `--`.  The option at the
end is at fault if it lacks a value, was given before, or has a value that means nothing to
it, and reading cannot tell before it comes to the next option, to a flag or to the end.
-/

namespace OrderFlow.CommandLine

open Grammar (Segment Means encode Yields)

theorem mapError_eq_error_iff {ε ε' α : Type} {f : ε → ε'} {result : Except ε α} {e : ε'} :
    result.mapError f = .error e ↔ ∃ cause, result = .error cause ∧ f cause = e := by
  cases result <;> simp [Except.mapError]

theorem map_eq_error_iff {ε α β : Type} {f : α → β} {result : Except ε α} {e : ε} :
    result.map f = .error e ↔ result = .error e := by
  cases result <;> simp [Except.map]

theorem bind_eq_error_iff {ε α β : Type} {result : Except ε α} {f : α → Except ε β} {e : ε} :
    result >>= f = .error e ↔ result = .error e ∨ ∃ x, result = .ok x ∧ f x = .error e := by
  cases result <;> simp [bind, Except.bind]

namespace Grammar

/-- The option at the end of what is read, whose value is not tested yet: there is none, or it
has no value, or it has one. -/
inductive Pending where
  | nothing
  | bare (option : Opt)
  | valued (option : Opt) (value : Bytes)

/-- The arguments of an option that is pending. -/
def Pending.arguments : Pending → List Bytes
  | .nothing => []
  | .bare option => [dash :: dash :: asciiBytes option.name]
  | .valued option value => (Segment.separate option value).arguments

/-- The value of an option that is pending could be an argument of its own. -/
def Pending.WellFormed : Pending → Prop
  | .nothing => True
  | .bare _ => True
  | .valued option value => (Segment.separate option value).WellFormed

/-- Arguments that are read through: segments that are accepted by themselves, and an option that
is pending. -/
structure Front (segments : List Segment) (pending : Pending) (arguments : List Bytes) :
    Prop where
  shape : arguments = segments.flatMap Segment.arguments ++ pending.arguments
  accepted : ∃ choices, Yields segments choices
  wellFormed : pending.WellFormed

/-- What is wrong with an option that is pending, when some options were given before it.  A
value that means nothing to its option is refused for the reason the option has. -/
inductive Pending.IsFaulty (given : List Opt) : Pending → Fault → Prop where
  | missing (option : Opt) : IsFaulty given (.bare option) (.missingValue option)
  | repeated {option : Opt} {value : Bytes} (before : option ∈ given) :
      IsFaulty given (.valued option value) (.repeated option)
  | notUtf8 {option : Opt} {value : Bytes} (fresh : option ∉ given)
      (spellsNothing : ∀ text, encode text ≠ value) :
      IsFaulty given (.valued option value) .notUtf8
  | meaningless {option : Opt} {value : Bytes} {text : List Char} {why : ValueFault}
      (fresh : option ∉ given) (spells : encode text = value)
      (meansNothing : ∀ meant, ¬ Means option text meant)
      (reason : Choices.empty.give option text = .error why) :
      IsFaulty given (.valued option value) (.badValue option text why)

end Grammar

open Grammar (Pending Front)

/-! ## Faults of values -/

/-- What is wrong with a text does not depend on the choices made before. -/
theorem Choices.give_eq_error_iff {choices : Choices} {option : Opt} {text : List Char}
    {why : ValueFault} :
    choices.give option text = .error why ↔ empty.give option text = .error why := by
  cases option <;> simp [give, map_eq_error_iff]

theorem Choices.not_means_of_give {choices : Choices} {option : Opt} {text : List Char}
    {why : ValueFault} (h : choices.give option text = .error why) (meant : option.Value) :
    ¬ Means option text meant := by
  intro hmeans
  rw [give_eq_ok_iff.mpr ⟨meant, hmeans, rfl⟩] at h
  cases h

theorem Grammar.Yields.mem_iff {segments : List Segment} {choices : Choices}
    (h : Yields segments choices) (option : Opt) :
    option ∈ segments.map Segment.option ↔ choices.has option = true := by
  rw [Choices.has_eq_isSome_get]
  constructor
  · intro hmem
    obtain ⟨segment, hsegment, rfl⟩ := List.mem_map.mp hmem
    obtain ⟨value, -, hget⟩ := h.given segment hsegment
    rw [hget]
    rfl
  · intro hsome
    by_contra hnone
    rw [h.absent option hnone] at hsome
    cases hsome

namespace Reading

theorem give_eq_error_iff {segments : List Segment} {choices : Choices}
    (h : Yields segments choices) {option : Opt} {value : Bytes} {fault : Fault} :
    give choices option (some value) = .error fault ↔
      (Pending.valued option value).IsFaulty (segments.map Segment.option) fault := by
  have hgiven := h.mem_iff option
  rw [give]
  by_cases hhas : choices.has option = true
  · rw [if_pos hhas]
    constructor
    · intro hfault
      cases hfault
      exact .repeated (hgiven.mpr hhas)
    · rintro (_ | _ | ⟨hfresh, _⟩ | ⟨hfresh, _⟩)
      · rfl
      · exact absurd (hgiven.mpr hhas) hfresh
      · exact absurd (hgiven.mpr hhas) hfresh
  · have hfresh : option ∉ segments.map Segment.option := fun hmem => hhas (hgiven.mp hmem)
    rw [if_neg hhas]
    cases hdecode : Utf8.decode? value with
    | none =>
        have hspells : ∀ text, encode text ≠ value := fun text hencode => by
          rw [Utf8.decode?_eq_some_iff.mpr hencode] at hdecode
          cases hdecode
        constructor
        · intro hfault
          cases hfault
          exact .notUtf8 hfresh hspells
        · rintro (_ | ⟨hbefore⟩ | _ | ⟨_, hencode, _, _⟩)
          · exact absurd hbefore hfresh
          · rfl
          · exact absurd hencode (hspells _)
    | some text =>
        have hencode : encode text = value := Utf8.decode?_eq_some_iff.mp hdecode
        dsimp only
        rw [mapError_eq_error_iff]
        constructor
        · rintro ⟨why, hwhy, rfl⟩
          exact .meaningless hfresh hencode (Choices.not_means_of_give hwhy)
            (Choices.give_eq_error_iff.mp hwhy)
        · rintro (_ | ⟨hbefore⟩ | ⟨_, hspells⟩ | ⟨_, hother, _, hwhy⟩)
          · exact absurd hbefore hfresh
          · exact absurd hencode (hspells text)
          · rw [Utf8.decode?_eq_some_iff.mpr hother] at hdecode
            cases hdecode
            exact ⟨_, Choices.give_eq_error_iff.mpr hwhy, rfl⟩

/-- The reading in which some choices are made and an option is pending. -/
def pendingAfter (choices : Choices) : Pending → Reading
  | .nothing => settled choices
  | .bare option => waiting choices option
  | .valued option value => owing choices option value

@[simp]
theorem terminated_pendingAfter (choices : Choices) (pending : Pending) :
    (pendingAfter choices pending).terminated = false := by
  cases pending <;> rfl

theorem resolve_eq_error_iff {segments : List Segment} {choices : Choices}
    (h : Yields segments choices) {pending : Pending} {fault : Fault} :
    (pendingAfter choices pending).resolve = .error fault ↔
      pending.IsFaulty (segments.map Segment.option) fault := by
  cases pending with
  | nothing =>
      constructor
      · exact fun hfault => by cases hfault
      · exact fun hfault => by cases hfault
  | bare option =>
      constructor
      · intro hfault
        cases hfault
        exact .missing option
      · rintro ⟨⟩
        rfl
  | valued option value => exact give_eq_error_iff h

/-! ## Reading on -/

theorem finish_cons {reading : Reading} (h : reading.terminated = false) (argument : Bytes)
    (rest : List Bytes) : reading.finish (argument :: rest) =
      (reading.readWord (.ofArgument argument) >>= fun next => next.finish rest) := by
  have hread : reading.readArgument argument = reading.readWord (.ofArgument argument) := by
    simp [readArgument, h]
  rw [finish, readAll, hread]
  cases reading.readWord (.ofArgument argument) <;> rfl

theorem finish_nil (reading : Reading) : reading.finish [] = reading.resolve.mapError .fault := rfl

/-- That `--` comes last changes nothing. -/
theorem finish_closing {reading : Reading} (h : reading.terminated = false) :
    reading.finish [[dash, dash]] = reading.finish [] := by
  rw [finish_cons h]
  rfl

/-- After `--` there may be nothing. -/
theorem finish_after_closing {reading : Reading} (h : reading.terminated = false)
    (argument : Bytes) (rest : List Bytes) :
    reading.finish ([dash, dash] :: argument :: rest) =
      .error (.fault (.unexpectedArgument (Utf8.decodeLossy argument))) := by
  rw [finish_cons h]
  rfl

theorem readWord_owing {choices result : Choices} {option : Opt} {value : Bytes}
    (h : give choices option (some value) = .ok result) {word : Word} (hword : word ≠ .terminator) :
    (owing choices option value).readWord word = (settled result).readWord word := by
  have hresolve : (owing choices option value).resolve = .ok result := h
  have hsettled : (settled result).resolve = .ok result := rfl
  cases word with
  | terminator => exact absurd rfl hword
  | flag flag => rw [readWord, readWord, hresolve, hsettled]
  | flagValue flag value => rfl
  | option other => rw [readWord, readWord, hresolve, hsettled]; rfl
  | optionValue other given => rw [readWord, readWord, hresolve, hsettled]; rfl
  | unknown shown => rfl
  | operand given => rfl

/-- A value that is pending and is accepted might as well be tested at once. -/
theorem finish_owing {choices result : Choices} {option : Opt} {value : Bytes}
    (h : give choices option (some value) = .ok result) (arguments : List Bytes) :
    (owing choices option value).finish arguments = (settled result).finish arguments := by
  have hend : (owing choices option value).finish [] = (settled result).finish [] :=
    congrArg (Except.mapError Stop.fault) h
  cases arguments with
  | nil => exact hend
  | cons argument rest =>
      by_cases hword : Word.ofArgument argument = .terminator
      · obtain rfl := Word.ofArgument_eq_terminator_iff.mp hword
        cases rest with
        | nil => rw [finish_closing rfl, finish_closing rfl, hend]
        | cons next rest => rw [finish_after_closing rfl, finish_after_closing rfl]
      · rw [finish_cons rfl, finish_cons rfl, readWord_owing h hword]

theorem finish_name (choices : Choices) (option : Opt) (rest : List Bytes) :
    (settled choices).finish ((dash :: dash :: asciiBytes option.name) :: rest) =
      (waiting choices option).finish rest := by
  rw [finish_cons rfl, Word.ofArgument_eq_option_iff.mpr rfl]
  rfl

theorem finish_operand (choices : Choices) (option : Opt) {value : Bytes}
    (h : Word.IsOperand value) (rest : List Bytes) :
    (waiting choices option).finish (value :: rest) = (owing choices option value).finish rest := by
  rw [finish_cons rfl, Word.ofArgument_eq_operand_iff.mpr ⟨rfl, h⟩]
  rfl

/-- Reading goes on after a segment as if its value were among the choices from the start. -/
theorem finish_segment {choices result : Choices} {segment : Segment}
    (hformed : segment.WellFormed)
    (h : give choices segment.option (some segment.value) = .ok result) (rest : List Bytes) :
    (settled choices).finish (segment.arguments ++ rest) = (settled result).finish rest := by
  cases segment with
  | joined option value =>
      have hword : Word.ofArgument (dash :: dash :: asciiBytes option.name ++ equals :: value) =
          .optionValue option value := Word.ofArgument_eq_optionValue_iff.mpr rfl
      have hgive : give choices option (some value) = .ok result := h
      rw [Segment.arguments, List.singleton_append, finish_cons rfl, hword, readWord]
      simp only [resolve, settled, Except.mapError, bind, Except.bind, hgive]
  | separate option value =>
      have hgive : give choices option (some value) = .ok result := h
      rw [Segment.arguments, List.cons_append, List.singleton_append, finish_name,
        finish_operand choices option hformed, finish_owing hgive]

theorem finish_fills {choices final : Choices} {segments : List Segment}
    (h : Fills choices segments final) (rest : List Bytes) :
    (settled choices).finish (segments.flatMap Segment.arguments ++ rest) =
      (settled final).finish rest := by
  induction h with
  | nil choices => rfl
  | cons wellFormed gives _ ih =>
      rw [List.flatMap_cons, List.append_assoc, finish_segment wellFormed gives, ih]

theorem finish_pending (choices : Choices) {pending : Pending} (h : pending.WellFormed)
    (rest : List Bytes) : (settled choices).finish (pending.arguments ++ rest) =
      (pendingAfter choices pending).finish rest := by
  cases pending with
  | nothing => rfl
  | bare option => exact finish_name choices option rest
  | valued option value =>
      rw [Pending.arguments, Segment.arguments, List.cons_append, List.singleton_append,
        finish_name, finish_operand choices option h]
      rfl

/-- Whatever follows what is read through is read with the choices made and the option pending
then. -/
theorem read_front {segments : List Segment} {pending : Pending} {front : List Bytes}
    (h : Front segments pending front) : ∃ choices, Yields segments choices ∧
      ∀ rest, read (front ++ rest) = (pendingAfter choices pending).finish rest := by
  obtain ⟨choices, hyields⟩ := h.accepted
  have hfills := fills_iff_adds.mpr (adds_empty_iff_yields.mpr hyields)
  refine ⟨choices, hyields, fun rest => ?_⟩
  have hread : read (front ++ rest) = (settled .empty).finish (front ++ rest) := rfl
  rw [hread, h.shape, List.append_assoc, finish_fills hfills, finish_pending choices h.wellFormed]

/-! ## What is reached -/

theorem readAll_append (reading : Reading) (front rest : List Bytes) :
    reading.readAll (front ++ rest) =
      (reading.readAll front >>= fun next => next.readAll rest) := by
  induction front generalizing reading with
  | nil => rfl
  | cons argument front ih =>
      rw [List.cons_append, readAll, readAll]
      cases reading.readArgument argument with
      | error stop => rfl
      | ok next => exact ih next

/-- Reading that stops does so at an argument. -/
theorem exists_of_readAll_eq_error {reading : Reading} {arguments : List Bytes} {stop : Stop}
    (h : reading.readAll arguments = .error stop) :
    ∃ front argument after next, arguments = front ++ argument :: after ∧
      reading.readAll front = .ok next ∧ next.readArgument argument = .error stop := by
  induction arguments generalizing reading with
  | nil => cases h
  | cons argument rest ih =>
      rw [readAll, bind_eq_error_iff] at h
      rcases h with hstop | ⟨next, hnext, hstop⟩
      · exact ⟨[], argument, rest, reading, rfl, rfl, hstop⟩
      · obtain ⟨front, last, after, reached, rfl, hreached, hlast⟩ := ih hstop
        refine ⟨argument :: front, last, after, reached, rfl, ?_, hlast⟩
        rw [readAll, hnext]
        exact hreached

theorem Fills.concat {choices final result : Choices} {segments : List Segment}
    {segment : Segment} (h : Fills choices segments final) (wellFormed : segment.WellFormed)
    (gives : give final segment.option (some segment.value) = .ok result) :
    Fills choices (segments ++ [segment]) result := by
  induction h with
  | nil choices => exact .cons wellFormed gives (.nil _)
  | cons hformed hgives _ ih => exact .cons hformed hgives (ih gives)

theorem yields_nil : Yields [] .empty :=
  adds_empty_iff_yields.mp (adds_nil_iff.mpr rfl)

theorem yields_concat {final result : Choices} {segments : List Segment}
    (h : Yields segments final) (segment : Segment) (wellFormed : segment.WellFormed)
    (gives : give final segment.option (some segment.value) = .ok result) :
    Yields (segments ++ [segment]) result := by
  have hfills := fills_iff_adds.mpr (adds_empty_iff_yields.mpr h)
  exact adds_empty_iff_yields.mp (fills_iff_adds.mp (hfills.concat wellFormed gives))

/-- An option that is pending and at no fault is one more segment. -/
theorem front_of_resolve {segments : List Segment} {pending : Pending} {front : List Bytes}
    {choices result : Choices} (hfront : Front segments pending front)
    (hyields : Yields segments choices)
    (h : (pendingAfter choices pending).resolve = .ok result) :
    ∃ segments', Front segments' .nothing front ∧ Yields segments' result := by
  cases pending with
  | nothing =>
      cases h
      exact ⟨segments, hfront, hyields⟩
  | bare option => cases h
  | valued option value =>
      have hlonger := yields_concat hyields (.separate option value) hfront.wellFormed h
      refine ⟨_, ⟨?_, ⟨result, hlonger⟩, trivial⟩, hlonger⟩
      rw [hfront.shape]
      simp [Pending.arguments]

/-- What reading has got through: a front, and the choices its segments yield. -/
structure Reached (segments : List Segment) (pending : Pending) (front : List Bytes)
    (choices : Choices) : Prop where
  front : Front segments pending front
  yields : Yields segments choices

/-- An argument that is read is `--`, or makes what is read through longer. -/
theorem Reached.readWord {segments : List Segment} {pending : Pending} {front : List Bytes}
    {choices : Choices} (hreached : Reached segments pending front choices) {argument : Bytes}
    {next : Reading}
    (h : (pendingAfter choices pending).readWord (.ofArgument argument) = .ok next) :
    (argument = [dash, dash] ∧
        { pendingAfter choices pending with terminated := true } = next) ∨
      ∃ segments' pending' choices',
        Reached segments' pending' (front ++ [argument]) choices' ∧
          pendingAfter choices' pending' = next := by
  obtain ⟨hfront, hyields⟩ := hreached
  obtain ⟨hword, hnext⟩ | ⟨option, result, hword, hresolve, hnext⟩ |
    ⟨option, value, result, final, hword, hresolve, hgive, hnext⟩ |
    ⟨option, value, hword, hpending, hnext⟩ := readWord_eq_ok_iff.mp h
  · exact Or.inl ⟨Word.ofArgument_eq_terminator_iff.mp hword, hnext⟩
  · obtain rfl := Word.ofArgument_eq_option_iff.mp hword
    obtain ⟨segments', hfront', hyields'⟩ := front_of_resolve hfront hyields hresolve
    refine Or.inr ⟨segments', .bare option, result, ⟨⟨?_, ⟨result, hyields'⟩, trivial⟩, hyields'⟩,
      ?_⟩
    · rw [hfront'.shape]
      simp [Pending.arguments]
    · rw [← hnext, terminated_pendingAfter]
      rfl
  · obtain rfl := Word.ofArgument_eq_optionValue_iff.mp hword
    obtain ⟨segments', hfront', hyields'⟩ := front_of_resolve hfront hyields hresolve
    have hlonger := yields_concat hyields' (.joined option value) trivial hgive
    refine Or.inr ⟨_, .nothing, final, ⟨⟨?_, ⟨final, hlonger⟩, trivial⟩, hlonger⟩, ?_⟩
    · rw [hfront'.shape]
      simp [Pending.arguments, Segment.arguments]
    · rw [← hnext, terminated_pendingAfter]
      rfl
  · obtain ⟨rfl, hoperand⟩ := Word.ofArgument_eq_operand_iff.mp hword
    cases pending with
    | nothing => cases hpending
    | valued other given => cases hpending
    | bare other =>
        cases hpending
        refine Or.inr ⟨segments, .valued option argument, choices,
          ⟨⟨?_, hfront.accepted, hoperand⟩, hyields⟩, hnext⟩
        rw [hfront.shape]
        simp [Pending.arguments, Segment.arguments]

/-- What reading gets through is a front, and perhaps `--`. -/
theorem reached_of_readAll {arguments : List Bytes} {reading : Reading}
    (h : start.readAll arguments = .ok reading) :
    ∃ segments pending front choices, Reached segments pending front choices ∧
      ((arguments = front ∧ pendingAfter choices pending = reading) ∨
        (arguments = front ++ [[dash, dash]] ∧
          { pendingAfter choices pending with terminated := true } = reading)) := by
  -- The induction takes off the last argument, as that is the one read last.
  induction arguments using List.reverseRecOn generalizing reading with
  | nil =>
      cases h
      exact ⟨[], .nothing, [], .empty, ⟨⟨rfl, ⟨_, yields_nil⟩, trivial⟩, yields_nil⟩,
        Or.inl ⟨rfl, rfl⟩⟩
  | append_singleton arguments argument ih =>
      rw [readAll_append] at h
      obtain ⟨before, hbefore, hlast⟩ := bind_eq_ok_iff.mp h
      obtain ⟨next, hread, hnext⟩ := bind_eq_ok_iff.mp hlast
      cases hnext
      obtain ⟨segments, pending, front, choices, hreached, ⟨rfl, rfl⟩ | ⟨rfl, rfl⟩⟩ := ih hbefore
      · rw [readArgument, terminated_pendingAfter] at hread
        obtain ⟨rfl, hreading⟩ | ⟨segments', pending', choices', hreached', hreading⟩ :=
          hreached.readWord hread
        · exact ⟨segments, pending, arguments, choices, hreached, Or.inr ⟨rfl, hreading⟩⟩
        · exact ⟨segments', pending', _, choices', hreached', Or.inl ⟨rfl, hreading⟩⟩
      · cases hread

end Reading

end OrderFlow.CommandLine
