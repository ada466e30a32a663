import OrderFlow.Proofs.CommandLine.Flags
import OrderFlow.Proofs.CommandLine.Fronts

/-!
# Which answer a command line gets

Help and the version are answered when the arguments before the flag are accepted by
themselves, whatever follows.  Of several mistakes it is not the first that is reported: an
unknown name, an argument that belongs to nothing and a flag with a value are faults at once,
and go before the fault of an option that is pending, which is only found at the next option
or flag, or at the end.
-/

namespace OrderFlow.CommandLine

open Grammar (Segment Yields Pending Front)

namespace Grammar

/-- An argument at which an option that is pending is tested: it names an option, with a value
or without one, or asks for what a flag stands for. -/
inductive Tests : Bytes → Prop where
  | option (option : Opt) : Tests (dash :: dash :: asciiBytes option.name)
  | optionValue (option : Opt) (value : Bytes) :
      Tests (dash :: dash :: asciiBytes option.name ++ equals :: value)
  | flag {argument : Bytes} (flag : Flag) (asks : Asks flag argument) : Tests argument

/-- An argument belongs to no option that is pending before it. -/
def Pending.IsStray : Pending → Bytes → Prop
  | .bare _, _ => False
  | _, argument => Word.IsOperand argument

/-- A command line is rejected for a fault. -/
inductive Rejects : List Bytes → Fault → Prop where
  | unknown {segments : List Segment} {pending : Pending} {front after : List Bytes}
      {argument : Bytes} {shown : List Char} (reached : Front segments pending front)
      (unknown : IsUnknown argument shown) :
      Rejects (front ++ argument :: after) (.unexpectedArgument shown)
  | stray {segments : List Segment} {pending : Pending} {front after : List Bytes}
      {argument : Bytes} (reached : Front segments pending front)
      (stray : pending.IsStray argument) :
      Rejects (front ++ argument :: after) (.unexpectedArgument (Utf8.decodeLossy argument))
  | afterClosing {segments : List Segment} {pending : Pending} {front after : List Bytes}
      {argument : Bytes} (reached : Front segments pending front) :
      Rejects (front ++ [dash, dash] :: argument :: after)
        (.unexpectedArgument (Utf8.decodeLossy argument))
  | flagValue {segments : List Segment} {pending : Pending} {front after : List Bytes}
      {flag : Flag} {value : Bytes} (reached : Front segments pending front) :
      Rejects (front ++ (dash :: dash :: asciiBytes flag.name ++ equals :: value) :: after)
        (.unexpectedValue flag (Utf8.decodeLossy value))
  | overdue {segments : List Segment} {pending : Pending} {front after : List Bytes}
      {argument : Bytes} {fault : Fault} (reached : Front segments pending front)
      (faulty : pending.IsFaulty (segments.map Segment.option) fault)
      (tests : Tests argument) : Rejects (front ++ argument :: after) fault
  | joined {segments : List Segment} {front after : List Bytes} {option : Opt} {value : Bytes}
      {fault : Fault} (reached : Front segments .nothing front)
      (faulty : (Pending.valued option value).IsFaulty (segments.map Segment.option) fault) :
      Rejects (front ++ (dash :: dash :: asciiBytes option.name ++ equals :: value) :: after)
        fault
  | atEnd {segments : List Segment} {pending : Pending} {front closing : List Bytes}
      {fault : Fault} (reached : Front segments pending front)
      (faulty : pending.IsFaulty (segments.map Segment.option) fault)
      (ends : closing = [] ∨ closing = [[dash, dash]]) : Rejects (front ++ closing) fault

/-! ## Arguments that are not `--` -/

theorem Segment.closing_not_mem_arguments {segment : Segment} (h : segment.WellFormed) :
    [dash, dash] ∉ segment.arguments := by
  cases segment with
  | joined option value => simp [arguments]
  | separate option value =>
      have hvalue : value ≠ [dash, dash] := fun heq => Word.not_isOperand_long [] (heq ▸ h)
      simp [arguments, (asciiBytes_name_ne_nil option).symm, hvalue.symm]

theorem Pending.closing_not_mem_arguments {pending : Pending} (h : pending.WellFormed) :
    [dash, dash] ∉ pending.arguments := by
  cases pending with
  | nothing => exact List.not_mem_nil
  | bare option => simp [arguments, (asciiBytes_name_ne_nil option).symm]
  | valued option value =>
      have hformed : (Segment.separate option value).WellFormed := h
      exact Segment.closing_not_mem_arguments hformed

theorem Front.closing_not_mem {segments : List Segment} {pending : Pending}
    {arguments : List Bytes} (h : Front segments pending arguments) :
    [dash, dash] ∉ arguments := by
  obtain ⟨_, hyields⟩ := h.accepted
  rw [h.shape, List.mem_append, List.mem_flatMap]
  rintro (⟨segment, hmem, hclosing⟩ | hclosing)
  · exact Segment.closing_not_mem_arguments (hyields.wellFormed segment hmem) hclosing
  · exact Pending.closing_not_mem_arguments h.wellFormed hclosing

/-- What is accepted without `--` is read through with nothing pending. -/
theorem front_of_read {arguments : List Bytes} {choices : Choices}
    (hclosing : [dash, dash] ∉ arguments) (h : read arguments = .ok choices) :
    ∃ segments, Front segments .nothing arguments ∧ Yields segments choices := by
  obtain ⟨segments, closing, rfl | rfl, rfl, hyields⟩ := read_eq_ok_iff_accepts.mp h
  · exact ⟨segments, ⟨rfl, ⟨choices, hyields⟩, trivial⟩, hyields⟩
  · exact absurd (List.mem_append_right _ (List.mem_singleton.mpr rfl)) hclosing

end Grammar

open Grammar (Tests Rejects)

namespace Reading

/-! ## What one argument does -/

theorem finish_flag {reading : Reading} {choices : Choices} {flag : Flag} {argument : Bytes}
    (hterminated : reading.terminated = false) (hresolve : reading.resolve = .ok choices)
    (h : Asks flag argument) (rest : List Bytes) :
    reading.finish (argument :: rest) = .error (.flag flag) := by
  rw [finish_cons hterminated, Word.ofArgument_eq_flag_iff.mpr h, readWord, hresolve]
  rfl

/-- An option that is pending is at fault before the argument that tests it is looked into. -/
theorem finish_of_tests {reading : Reading} {fault : Fault} {argument : Bytes}
    (hterminated : reading.terminated = false) (hresolve : reading.resolve = .error fault)
    (h : Tests argument) (rest : List Bytes) :
    reading.finish (argument :: rest) = .error (.fault fault) := by
  cases h with
  | option option =>
      rw [finish_cons hterminated, Word.ofArgument_eq_option_iff.mpr rfl, readWord, hresolve]
      rfl
  | optionValue option value =>
      rw [finish_cons hterminated, Word.ofArgument_eq_optionValue_iff.mpr rfl, readWord, hresolve]
      rfl
  | flag flag asks =>
      rw [finish_cons hterminated, Word.ofArgument_eq_flag_iff.mpr asks, readWord, hresolve]
      rfl

theorem finish_unknown {reading : Reading} {argument : Bytes} {shown : List Char}
    (hterminated : reading.terminated = false) (h : IsUnknown argument shown)
    (rest : List Bytes) :
    reading.finish (argument :: rest) = .error (.fault (.unexpectedArgument shown)) := by
  rw [finish_cons hterminated, Word.ofArgument_eq_unknown_iff.mpr h]
  rfl

theorem finish_flagValue {reading : Reading} (hterminated : reading.terminated = false)
    (flag : Flag) (value : Bytes) (rest : List Bytes) :
    reading.finish ((dash :: dash :: asciiBytes flag.name ++ equals :: value) :: rest) =
      .error (.fault (.unexpectedValue flag (Utf8.decodeLossy value))) := by
  rw [finish_cons hterminated, Word.ofArgument_eq_flagValue_iff.mpr rfl]
  rfl

theorem finish_stray {pending : Pending} {argument : Bytes} (h : pending.IsStray argument)
    (choices : Choices) (rest : List Bytes) :
    (pendingAfter choices pending).finish (argument :: rest) =
      .error (.fault (.unexpectedArgument (Utf8.decodeLossy argument))) := by
  have hterminated := terminated_pendingAfter choices pending
  cases pending with
  | bare option => exact absurd h id
  | nothing =>
      rw [finish_cons hterminated, Word.ofArgument_eq_operand_iff.mpr ⟨rfl, h⟩]
      rfl
  | valued option value =>
      rw [finish_cons hterminated, Word.ofArgument_eq_operand_iff.mpr ⟨rfl, h⟩]
      rfl

theorem finish_joined {choices : Choices} {option : Opt} {value : Bytes} {fault : Fault}
    (h : give choices option (some value) = .error fault) (rest : List Bytes) :
    (settled choices).finish
        ((dash :: dash :: asciiBytes option.name ++ equals :: value) :: rest) =
      .error (.fault fault) := by
  have hterminated : (settled choices).terminated = false := rfl
  have hresolve : (settled choices).resolve = .ok choices := rfl
  rw [finish_cons hterminated, Word.ofArgument_eq_optionValue_iff.mpr rfl, readWord, hresolve]
  simp only [Except.mapError, bind, Except.bind, h]

theorem finish_ends {reading : Reading} {fault : Fault} {closing : List Bytes}
    (hterminated : reading.terminated = false) (hresolve : reading.resolve = .error fault)
    (h : closing = [] ∨ closing = [[dash, dash]]) :
    reading.finish closing = .error (.fault fault) := by
  have hend : reading.finish [] = .error (.fault fault) := by
    rw [finish_nil, hresolve]
    rfl
  obtain rfl | rfl := h
  · exact hend
  · rw [finish_closing hterminated, hend]

/-- A value at fault stays at fault: what follows it can only bring another fault. -/
theorem exists_fault_of_owing {choices : Choices} {option : Opt} {value : Bytes} {fault : Fault}
    (h : give choices option (some value) = .error fault) (arguments : List Bytes) :
    ∃ later, (owing choices option value).finish arguments = .error (.fault later) := by
  have hresolve : (owing choices option value).resolve = .error fault := h
  have hterminated : (owing choices option value).terminated = false := rfl
  cases arguments with
  | nil => exact ⟨fault, finish_ends hterminated hresolve (Or.inl rfl)⟩
  | cons argument rest =>
      rw [finish_cons hterminated]
      cases hword : Word.ofArgument argument with
      | terminator =>
          obtain rfl := Word.ofArgument_eq_terminator_iff.mp hword
          rw [← hword, ← finish_cons hterminated]
          cases rest with
          | nil => exact ⟨fault, finish_ends hterminated hresolve (Or.inr rfl)⟩
          | cons next rest => exact ⟨_, finish_after_closing hterminated next rest⟩
      | flag flag => exact ⟨fault, by rw [readWord, hresolve]; rfl⟩
      | flagValue flag given => exact ⟨_, rfl⟩
      | option other => exact ⟨fault, by rw [readWord, hresolve]; rfl⟩
      | optionValue other given => exact ⟨fault, by rw [readWord, hresolve]; rfl⟩
      | unknown shown => exact ⟨_, rfl⟩
      | operand given => exact ⟨_, rfl⟩

/-! ## Where reading stops -/

theorem readWord_eq_flag_iff {reading : Reading} {word : Word} {flag : Flag} :
    reading.readWord word = .error (.flag flag) ↔
      word = .flag flag ∧ ∃ choices, reading.resolve = .ok choices := by
  have hfault : ∀ {α : Type} (result : Except Fault α),
      result.mapError Stop.fault ≠ .error (.flag flag) := fun result => by
    rw [ne_eq, mapError_eq_error_iff]
    rintro ⟨fault, -, h⟩
    cases h
  cases word with
  | flag other => simp [readWord, bind_eq_error_iff, mapError_eq_ok_iff, hfault, and_comm]
  | operand value =>
      rw [readWord]
      split <;> simp
  | _ => simp [readWord, bind_eq_error_iff, hfault]

/-- Help and the version are answered for what is read through with nothing at fault, and a
flag that asks for them. -/
theorem exists_of_read_eq_flag {arguments : List Bytes} {flag : Flag}
    (h : read arguments = .error (.flag flag)) :
    ∃ before asking after, arguments = before ++ asking :: after ∧ Asks flag asking ∧
      [dash, dash] ∉ before ∧ ∃ choices, read before = .ok choices := by
  rcases bind_eq_error_iff.mp h with hstop | ⟨reading, -, hend⟩
  · obtain ⟨before, asking, after, reading, rfl, hbefore, hasking⟩ :=
      exists_of_readAll_eq_error hstop
    obtain ⟨segments, pending, front, choices, hreached, ⟨rfl, rfl⟩ | ⟨-, rfl⟩⟩ :=
      reached_of_readAll hbefore
    · rw [readArgument, terminated_pendingAfter] at hasking
      obtain ⟨hword, result, hresolve⟩ := readWord_eq_flag_iff.mp hasking
      refine ⟨before, asking, after, rfl, Word.ofArgument_eq_flag_iff.mp hword,
        hreached.front.closing_not_mem, result, ?_⟩
      exact bind_eq_ok_iff.mpr ⟨_, hbefore, mapError_eq_ok_iff.mpr hresolve⟩
    · cases hasking
  · obtain ⟨fault, -, hfault⟩ := mapError_eq_error_iff.mp hend
    cases hfault

theorem read_eq_flag_of_asks {before after : List Bytes} {asking : Bytes} {choices : Choices}
    {flag : Flag} (hclosing : [dash, dash] ∉ before) (h : read before = .ok choices)
    (hasks : Asks flag asking) : read (before ++ asking :: after) = .error (.flag flag) := by
  obtain ⟨segments, hfront, -⟩ := Grammar.front_of_read hclosing h
  obtain ⟨_, _, hread⟩ := read_front hfront
  rw [hread]
  exact finish_flag rfl rfl hasks after

/-- The argument at which reading stops for a fault decides which of the rules applies. -/
theorem rejects_of_readWord {segments : List Segment} {pending : Pending} {front : List Bytes}
    {choices : Choices} (hreached : Reached segments pending front choices) {argument : Bytes}
    {fault : Fault}
    (h : (pendingAfter choices pending).readWord (.ofArgument argument) = .error (.fault fault))
    (after : List Bytes) : Rejects (front ++ argument :: after) fault := by
  obtain ⟨hfront, hyields⟩ := hreached
  have hoverdue : Tests argument →
      (pendingAfter choices pending).resolve.mapError Stop.fault = .error (.fault fault) →
      Rejects (front ++ argument :: after) fault := by
    intro htests hfault
    obtain ⟨_, hresolve, hsame⟩ := mapError_eq_error_iff.mp hfault
    cases hsame
    exact .overdue hfront ((resolve_eq_error_iff hyields).mp hresolve) htests
  cases hword : Word.ofArgument argument with
  | terminator =>
      rw [hword] at h
      cases h
  | flag flag =>
      rw [hword, readWord, bind_eq_error_iff] at h
      rcases h with hfault | ⟨_, -, hflag⟩
      · exact hoverdue (.flag flag (Word.ofArgument_eq_flag_iff.mp hword)) hfault
      · cases hflag
  | flagValue flag value =>
      rw [hword] at h
      cases h
      rw [Word.ofArgument_eq_flagValue_iff.mp hword]
      exact .flagValue hfront
  | option option =>
      have hargument := Word.ofArgument_eq_option_iff.mp hword
      rw [hword, readWord, bind_eq_error_iff] at h
      rcases h with hfault | ⟨_, -, hok⟩
      · exact hoverdue (hargument ▸ .option option) hfault
      · cases hok
  | optionValue option value =>
      have hargument := Word.ofArgument_eq_optionValue_iff.mp hword
      rw [hword, readWord, bind_eq_error_iff] at h
      rcases h with hfault | ⟨result, hresult, hvalue⟩
      · exact hoverdue (hargument ▸ .optionValue option value) hfault
      · -- The pending option is accepted, so the fault is that of the value after the sign.
        obtain ⟨segments', hfront', hyields'⟩ :=
          front_of_resolve hfront hyields (mapError_eq_ok_iff.mp hresult)
        rcases bind_eq_error_iff.mp hvalue with hfault | ⟨_, -, hok⟩
        · obtain ⟨_, hgive, hsame⟩ := mapError_eq_error_iff.mp hfault
          cases hsame
          rw [hargument]
          exact .joined hfront' ((give_eq_error_iff hyields').mp hgive)
        · cases hok
  | unknown shown =>
      rw [hword] at h
      cases h
      exact .unknown hfront (Word.ofArgument_eq_unknown_iff.mp hword)
  | operand value =>
      obtain ⟨rfl, hoperand⟩ := Word.ofArgument_eq_operand_iff.mp hword
      rw [hword] at h
      cases pending with
      | nothing =>
          cases h
          exact .stray hfront hoperand
      | bare option => cases h
      | valued option value =>
          cases h
          exact .stray hfront hoperand

theorem rejects_of_read {arguments : List Bytes} {fault : Fault}
    (h : read arguments = .error (.fault fault)) : Rejects arguments fault := by
  rcases bind_eq_error_iff.mp h with hstop | ⟨reading, hreading, hend⟩
  · obtain ⟨before, argument, after, reading, rfl, hbefore, hargument⟩ :=
      exists_of_readAll_eq_error hstop
    obtain ⟨segments, pending, front, choices, hreached, ⟨rfl, rfl⟩ | ⟨rfl, rfl⟩⟩ :=
      reached_of_readAll hbefore
    · rw [readArgument, terminated_pendingAfter] at hargument
      exact rejects_of_readWord hreached hargument after
    · cases hargument
      rw [List.append_assoc]
      exact .afterClosing hreached.front
  · obtain ⟨_, hresolve, hsame⟩ := mapError_eq_error_iff.mp hend
    cases hsame
    obtain ⟨segments, pending, front, choices, ⟨hfront, hyields⟩, ⟨rfl, rfl⟩ | ⟨rfl, rfl⟩⟩ :=
      reached_of_readAll hreading
    · rw [← List.append_nil arguments]
      exact .atEnd hfront ((resolve_eq_error_iff hyields).mp hresolve) (Or.inl rfl)
    · exact .atEnd hfront ((resolve_eq_error_iff hyields).mp hresolve) (Or.inr rfl)

theorem read_of_rejects {arguments : List Bytes} {fault : Fault} (h : Rejects arguments fault) :
    read arguments = .error (.fault fault) := by
  cases h with
  | unknown reached unknown =>
      obtain ⟨choices, -, hread⟩ := read_front reached
      rw [hread]
      exact finish_unknown (terminated_pendingAfter ..) unknown _
  | stray reached stray =>
      obtain ⟨choices, -, hread⟩ := read_front reached
      rw [hread]
      exact finish_stray stray choices _
  | afterClosing reached =>
      obtain ⟨choices, -, hread⟩ := read_front reached
      rw [hread]
      exact finish_after_closing (terminated_pendingAfter ..) _ _
  | flagValue reached =>
      obtain ⟨choices, -, hread⟩ := read_front reached
      rw [hread]
      exact finish_flagValue (terminated_pendingAfter ..) _ _ _
  | overdue reached faulty tests =>
      obtain ⟨choices, hyields, hread⟩ := read_front reached
      rw [hread]
      exact finish_of_tests (terminated_pendingAfter ..) ((resolve_eq_error_iff hyields).mpr faulty)
        tests _
  | joined reached faulty =>
      obtain ⟨choices, hyields, hread⟩ := read_front reached
      rw [hread]
      exact finish_joined ((give_eq_error_iff hyields).mpr faulty) _
  | atEnd reached faulty ends =>
      obtain ⟨choices, hyields, hread⟩ := read_front reached
      rw [hread]
      exact finish_ends (terminated_pendingAfter ..) ((resolve_eq_error_iff hyields).mpr faulty)
        ends

/-! ## Longer command lines -/

/-- A fault lasts: whatever follows, there is one, unless the last argument is an option that
waits for its value. -/
theorem exists_fault_of_append {arguments : List Bytes} {fault : Fault}
    (h : read arguments = .error (.fault fault))
    (hwaits : ¬ ∃ segments option, Front segments (.bare option) arguments)
    (more : List Bytes) : ∃ later, read (arguments ++ more) = .error (.fault later) := by
  have hmore : read (arguments ++ more) =
      (start.readAll arguments >>= fun reading => reading.finish more) := by
    rw [read, readAll_append]
    cases start.readAll arguments <;> rfl
  rw [hmore]
  rcases bind_eq_error_iff.mp h with hstop | ⟨reading, hreading, hend⟩
  · exact ⟨fault, bind_eq_error_iff.mpr (Or.inl hstop)⟩
  · obtain ⟨_, hresolve, hsame⟩ := mapError_eq_error_iff.mp hend
    cases hsame
    obtain ⟨segments, pending, front, choices, ⟨hfront, -⟩, ⟨rfl, rfl⟩ | ⟨-, rfl⟩⟩ :=
      reached_of_readAll hreading
    · cases pending with
      | nothing => cases hresolve
      | bare option => exact absurd ⟨segments, option, hfront⟩ hwaits
      | valued option value =>
          obtain ⟨later, hlater⟩ := exists_fault_of_owing hresolve more
          exact ⟨later, bind_eq_error_iff.mpr (Or.inr ⟨_, hreading, hlater⟩)⟩
    · cases more with
      | nil => exact ⟨fault, bind_eq_error_iff.mpr (Or.inr ⟨_, hreading, hend⟩)⟩
      | cons argument rest =>
          exact ⟨_, bind_eq_error_iff.mpr (Or.inr ⟨_, hreading, rfl⟩)⟩

end Reading

/-- Which answer a command line gets, if not settings.  It is help or the version exactly if
what comes before a flag that asks for them is accepted by itself and holds no `--`; what comes
after does not matter.  It is a fault exactly by the rules of what is found at once and what
late.  A command line with a fault keeps having one however it goes on, unless it ends with an
option that waits for its value. -/
theorem read_flag_and_fault (arguments : List Bytes) :
    (∀ flag, read arguments = .error (.flag flag) ↔
      ∃ before asking after, arguments = before ++ asking :: after ∧ Asks flag asking ∧
        [dash, dash] ∉ before ∧ ∃ choices, read before = .ok choices) ∧
    (∀ fault, read arguments = .error (.fault fault) ↔ Rejects arguments fault) ∧
    ∀ fault, read arguments = .error (.fault fault) →
      (¬ ∃ segments option, Front segments (.bare option) arguments) →
        ∀ more, ∃ later, read (arguments ++ more) = .error (.fault later) := by
  refine ⟨fun flag => ⟨Reading.exists_of_read_eq_flag, ?_⟩, fun fault =>
    ⟨Reading.rejects_of_read, Reading.read_of_rejects⟩, fun fault =>
    Reading.exists_fault_of_append⟩
  rintro ⟨before, asking, after, rfl, hasks, hclosing, choices, hread⟩
  exact Reading.read_eq_flag_of_asks hclosing hread hasks

/-- A port that is no number is a fault, an unknown name after it another, and help is answered
before the unknown name is seen. -/
theorem answers_of_port_and_unknown_name :
    read [asciiBytes "--port", asciiBytes "x"] =
        .error (.fault (.badValue .port ['x'] (.numeral .invalidDigit))) ∧
      (∃ later, read ([asciiBytes "--port", asciiBytes "x"] ++ [asciiBytes "-h"]) =
        .error (.fault later)) ∧
      read [asciiBytes "--port", asciiBytes "x", asciiBytes "--nope"] =
        .error (.fault (.unexpectedArgument "--nope".toList)) ∧
      read [asciiBytes "--port", asciiBytes "80", asciiBytes "-hx", asciiBytes "--nope"] =
        .error (.flag .help) := by
  have hport : read [asciiBytes "--port", asciiBytes "x"] =
      .error (.fault (.badValue .port ['x'] (.numeral .invalidDigit))) := rfl
  have hwaits : ¬ ∃ segments option,
      Front segments (.bare option) [asciiBytes "--port", asciiBytes "x"] := by
    rintro ⟨segments, option, hfront⟩
    have hlast : asciiBytes "x" = dash :: dash :: asciiBytes option.name := by
      simpa [Pending.arguments] using congrArg List.getLast? hfront.shape
    have hhead : (asciiBytes "x").head? = some dash := congrArg List.head? hlast
    exact absurd hhead (by decide)
  have hbroken : IsUnknown (asciiBytes "--nope") "--nope".toList :=
    Word.isUnknown_of_ofArgument rfl
  have hreached : Front [] (.valued .port (asciiBytes "x"))
      [asciiBytes "--port", asciiBytes "x"] :=
    ⟨rfl, ⟨.empty, Reading.yields_nil⟩, fun hdash => absurd hdash (by decide)⟩
  refine ⟨hport, (read_flag_and_fault _).2.2 _ hport hwaits _, ?_, ?_⟩
  · exact ((read_flag_and_fault _).2.1 _).mpr (.unknown hreached hbroken)
  · exact ((read_flag_and_fault _).1 .help).mpr
      ⟨[asciiBytes "--port", asciiBytes "80"], asciiBytes "-hx", [asciiBytes "--nope"], rfl,
        Or.inr ⟨[0x78], rfl⟩, by decide, _, rfl⟩

end OrderFlow.CommandLine
