import OrderFlow.Proofs.CommandLine.Words

/-!
# What the command line accepts

The reader keeps at most one option pending and tests its value late.  What it accepts does
not depend on that: a pending option with its value is as good as tested.  So a command line
is read segment by segment, each giving its option a value that it did not have, and the
segments that can be read one after another are those the grammar lets through.
-/

namespace OrderFlow.CommandLine

open Grammar (Segment Means encode Yields Accepts)

namespace Reading

/-! ## Words and the end -/

/-- Reads the rest of a command line. -/
def finish (reading : Reading) (arguments : List Bytes) : Except Stop Choices := do
  let reading ← reading.readAll arguments
  reading.resolve.mapError .fault

theorem finish_nil_iff {reading : Reading} {final : Choices} :
    reading.finish [] = .ok final ↔ reading.resolve = .ok final :=
  mapError_eq_ok_iff

theorem finish_cons_iff {reading : Reading} (h : reading.terminated = false) {argument : Bytes}
    {rest : List Bytes} {final : Choices} :
    reading.finish (argument :: rest) = .ok final ↔
      ∃ next, reading.readWord (.ofArgument argument) = .ok next ∧
        next.finish rest = .ok final := by
  have hread : reading.readArgument argument = reading.readWord (.ofArgument argument) := by
    simp [readArgument, h]
  simp only [finish, readAll, bind_eq_ok_iff, hread]
  constructor
  · rintro ⟨last, ⟨next, hnext, hlast⟩, hfinal⟩
    exact ⟨next, hnext, last, hlast, hfinal⟩
  · rintro ⟨next, hnext, last, hlast, hfinal⟩
    exact ⟨last, ⟨next, hnext, hlast⟩, hfinal⟩

theorem finish_terminator_iff {reading : Reading} (h : reading.terminated = false)
    {rest : List Bytes} {final : Choices} :
    reading.finish ([dash, dash] :: rest) = .ok final ↔
      rest = [] ∧ reading.resolve = .ok final := by
  have hword : Word.ofArgument [dash, dash] = .terminator := rfl
  rw [finish_cons_iff h, hword]
  cases rest with
  | nil => simp [readWord, finish_nil_iff, resolve]
  | cons argument rest => simp [readWord, finish, readAll, readArgument, bind_eq_ok_iff]

/-- What reading a word can do: end the options, keep an option pending, give an option its
value, or give the pending option one. -/
theorem readWord_eq_ok_iff {reading next : Reading} {word : Word} :
    reading.readWord word = .ok next ↔
      (word = .terminator ∧ { reading with terminated := true } = next) ∨
      (∃ option choices, word = .option option ∧ reading.resolve = .ok choices ∧
        { reading with choices, pending := some (option, none) } = next) ∨
      (∃ option value choices result, word = .optionValue option value ∧
        reading.resolve = .ok choices ∧ give choices option (some value) = .ok result ∧
        { reading with choices := result, pending := none } = next) ∨
      ∃ option value, word = .operand value ∧ reading.pending = some (option, none) ∧
        { reading with pending := some (option, some value) } = next := by
  cases word with
  | terminator => simp [readWord]
  | flag flag => simp [readWord, bind_eq_ok_iff]
  | flagValue flag value => simp [readWord]
  | option option => simp [readWord, bind_eq_ok_iff, mapError_eq_ok_iff]
  | optionValue option value => simp [readWord, bind_eq_ok_iff, mapError_eq_ok_iff, and_assoc]
  | unknown shown => simp [readWord]
  | operand value =>
      rw [readWord]
      split
      · rename_i option hpending
        simp [hpending]
      · rename_i hpending
        have hother : ∀ option, reading.pending ≠ some (option, none) := hpending
        simp [hother]

/-- The reading in which some choices are made and nothing is pending. -/
def settled (choices : Choices) : Reading := ⟨choices, none, false⟩

/-- The reading in which an option has its value, which is not tested yet. -/
def owing (choices : Choices) (option : Opt) (value : Bytes) : Reading :=
  ⟨choices, some (option, some value), false⟩

/-- The reading in which an option waits for its value. -/
def waiting (choices : Choices) (option : Opt) : Reading :=
  ⟨choices, some (option, none), false⟩

/-- A word is read after the pending value is tested, and it is tested if a word is read. -/
theorem readWord_owing_iff {choices : Choices} {option : Opt} {value : Bytes} {word : Word}
    {next : Reading} (h : word ≠ .terminator) :
    (owing choices option value).readWord word = .ok next ↔
      ∃ result, give choices option (some value) = .ok result ∧
        (settled result).readWord word = .ok next := by
  cases word with
  | terminator => exact absurd rfl h
  | _ => simp [readWord, resolve, owing, settled, bind_eq_ok_iff, mapError_eq_ok_iff]

/-- A value that is pending might as well be tested at once. -/
theorem finish_owing_iff {choices final : Choices} {option : Opt} {value : Bytes}
    {arguments : List Bytes} :
    (owing choices option value).finish arguments = .ok final ↔
      ∃ result, give choices option (some value) = .ok result ∧
        (settled result).finish arguments = .ok final := by
  have howing : (owing choices option value).terminated = false := rfl
  have hsettled : ∀ result, (settled result).terminated = false := fun _ => rfl
  cases arguments with
  | nil => simp [finish_nil_iff, resolve, owing, settled]
  | cons argument rest =>
      by_cases hword : Word.ofArgument argument = .terminator
      · rw [Word.ofArgument_eq_terminator_iff] at hword
        subst hword
        simp only [finish_terminator_iff, howing, hsettled]
        simp [resolve, owing, settled, and_comm, and_assoc]
      · simp only [finish_cons_iff, howing, hsettled, readWord_owing_iff hword]
        constructor
        · rintro ⟨next, ⟨result, hgive, hnext⟩, hfinal⟩
          exact ⟨result, hgive, next, hnext, hfinal⟩
        · rintro ⟨result, hgive, next, hnext, hfinal⟩
          exact ⟨next, ⟨result, hgive, hnext⟩, hfinal⟩

/-- An option that waits for its value takes the next argument, which has to be an operand. -/
theorem finish_waiting_iff {choices final : Choices} {option : Opt} {arguments : List Bytes} :
    (waiting choices option).finish arguments = .ok final ↔
      ∃ value rest, arguments = value :: rest ∧ Word.IsOperand value ∧
        (owing choices option value).finish rest = .ok final := by
  have hterminated : (waiting choices option).terminated = false := rfl
  have hresolve : (waiting choices option).resolve = .error (.missingValue option) := rfl
  constructor
  · intro h
    cases arguments with
    | nil =>
        rw [finish_nil_iff, hresolve] at h
        cases h
    | cons argument rest =>
        obtain ⟨next, hnext, hfinal⟩ := (finish_cons_iff hterminated).mp h
        rw [readWord_eq_ok_iff, hresolve] at hnext
        obtain ⟨hword, _⟩ | ⟨_, _, _, h, _⟩ | ⟨_, _, _, _, _, h, _⟩ |
          ⟨other, value, hword, hother, rfl⟩ := hnext
        · rw [Word.ofArgument_eq_terminator_iff.mp hword, finish_terminator_iff hterminated,
            hresolve] at h
          cases h.2
        · cases h
        · cases h
        · obtain ⟨rfl, hoperand⟩ := Word.ofArgument_eq_operand_iff.mp hword
          cases hother
          exact ⟨argument, rest, rfl, hoperand, hfinal⟩
  · rintro ⟨value, rest, rfl, hoperand, hfinal⟩
    have hword : Word.ofArgument value = .operand value :=
      Word.ofArgument_eq_operand_iff.mpr ⟨rfl, hoperand⟩
    rw [finish_cons_iff hterminated, hword]
    exact ⟨_, rfl, hfinal⟩

theorem finish_name_iff {choices final : Choices} {option : Opt} {rest : List Bytes} :
    (settled choices).finish ((dash :: dash :: asciiBytes option.name) :: rest) = .ok final ↔
      (waiting choices option).finish rest = .ok final := by
  have hterminated : (settled choices).terminated = false := rfl
  have hword : Word.ofArgument (dash :: dash :: asciiBytes option.name) = .option option :=
    Word.ofArgument_eq_option_iff.mpr rfl
  rw [finish_cons_iff hterminated, hword]
  simp [readWord, resolve, settled, waiting, bind_eq_ok_iff, mapError_eq_ok_iff]

theorem finish_name_value_iff {choices final : Choices} {option : Opt} {value : Bytes}
    {rest : List Bytes} :
    (settled choices).finish
        ((dash :: dash :: asciiBytes option.name ++ equals :: value) :: rest) = .ok final ↔
      ∃ result, give choices option (some value) = .ok result ∧
        (settled result).finish rest = .ok final := by
  have hterminated : (settled choices).terminated = false := rfl
  have hword : Word.ofArgument (dash :: dash :: asciiBytes option.name ++ equals :: value) =
      .optionValue option value := Word.ofArgument_eq_optionValue_iff.mpr rfl
  rw [finish_cons_iff hterminated, hword]
  simp [readWord, resolve, settled, bind_eq_ok_iff, mapError_eq_ok_iff]

/-! ## Segments -/

/-- Reading a segment is giving its option its value. -/
theorem finish_segment_iff {choices final : Choices} {segment : Segment}
    (h : segment.WellFormed) {rest : List Bytes} :
    (settled choices).finish (segment.arguments ++ rest) = .ok final ↔
      ∃ result, give choices segment.option (some segment.value) = .ok result ∧
        (settled result).finish rest = .ok final := by
  cases segment with
  | joined option value => exact finish_name_value_iff
  | separate option value =>
      refine finish_name_iff.trans (Iff.trans ?_ finish_owing_iff)
      rw [finish_waiting_iff]
      constructor
      · rintro ⟨_, _, harguments, _, hfinal⟩
        cases harguments
        exact hfinal
      · exact fun hfinal => ⟨value, rest, rfl, h, hfinal⟩

/-- What is read to its end is nothing, the end of the options, or begins with a segment. -/
theorem exists_segment_of_finish {choices final : Choices} {arguments : List Bytes}
    (h : (settled choices).finish arguments = .ok final) :
    arguments = [] ∨ arguments = [[dash, dash]] ∨
      ∃ segment rest, segment.WellFormed ∧ arguments = Segment.arguments segment ++ rest := by
  have hterminated : (settled choices).terminated = false := rfl
  cases arguments with
  | nil => exact Or.inl rfl
  | cons argument rest =>
      obtain ⟨next, hnext, hfinal⟩ := (finish_cons_iff hterminated).mp h
      rw [readWord_eq_ok_iff] at hnext
      -- With nothing pending there is nothing that an operand could belong to.
      obtain ⟨hword, _⟩ | ⟨option, _, hword, _⟩ | ⟨option, value, _, _, hword, _⟩ |
        ⟨_, _, _, hpending, _⟩ := hnext
      · rw [Word.ofArgument_eq_terminator_iff] at hword
        subst hword
        rw [((finish_terminator_iff hterminated).mp h).1]
        exact Or.inr (Or.inl rfl)
      · rw [Word.ofArgument_eq_option_iff] at hword
        subst hword
        obtain ⟨value, others, rfl, hoperand, _⟩ := finish_waiting_iff.mp (finish_name_iff.mp h)
        exact Or.inr (Or.inr ⟨.separate option value, others, hoperand, rfl⟩)
      · rw [Word.ofArgument_eq_optionValue_iff] at hword
        subst hword
        exact Or.inr (Or.inr ⟨.joined option value, rest, trivial, rfl⟩)
      · cases hpending

/-- Giving the values of segments one after another leads from some choices to others. -/
inductive Fills : Choices → List Segment → Choices → Prop where
  | nil (choices : Choices) : Fills choices [] choices
  | cons {choices result final : Choices} {segment : Segment} {segments : List Segment}
      (wellFormed : segment.WellFormed)
      (gives : give choices segment.option (some segment.value) = .ok result)
      (rest : Fills result segments final) : Fills choices (segment :: segments) final

theorem length_arguments_pos (segment : Segment) : 0 < segment.arguments.length := by
  cases segment <;> exact Nat.succ_pos _

theorem fills_of_finish {choices final : Choices} {arguments : List Bytes}
    (h : (settled choices).finish arguments = .ok final) :
    ∃ segments closing, (closing = [] ∨ closing = [[dash, dash]]) ∧
      arguments = segments.flatMap Segment.arguments ++ closing ∧
      Fills choices segments final := by
  -- A segment may take two arguments, so the induction is on how many there are.
  induction hlength : arguments.length using Nat.strongRecOn generalizing choices arguments with
  | ind n ih =>
      obtain rfl | rfl | ⟨segment, rest, hformed, rfl⟩ := exists_segment_of_finish h
      · rw [finish_nil_iff] at h
        cases h
        exact ⟨[], [], Or.inl rfl, rfl, .nil _⟩
      · obtain ⟨_, h⟩ := (finish_terminator_iff rfl).mp h
        cases h
        exact ⟨[], _, Or.inr rfl, rfl, .nil _⟩
      · have hless : rest.length < n := by
          have hpos := length_arguments_pos segment
          rw [List.length_append] at hlength
          omega
        obtain ⟨result, hgives, hrest⟩ := (finish_segment_iff hformed).mp h
        obtain ⟨segments, closing, hclosing, rfl, hfills⟩ := ih _ hless hrest rfl
        exact ⟨segment :: segments, closing, hclosing, by simp, .cons hformed hgives hfills⟩

theorem finish_of_fills {choices final : Choices} {segments : List Segment}
    {closing : List Bytes} (hclosing : closing = [] ∨ closing = [[dash, dash]])
    (h : Fills choices segments final) :
    (settled choices).finish (segments.flatMap Segment.arguments ++ closing) = .ok final := by
  induction h with
  | nil choices =>
      obtain rfl | rfl := hclosing
      · rfl
      · exact (finish_terminator_iff rfl).mpr ⟨rfl, rfl⟩
  | cons wellFormed gives _ ih =>
      rw [List.flatMap_cons, List.append_assoc, finish_segment_iff wellFormed]
      exact ⟨_, gives, ih⟩

theorem give_segment_iff {choices result : Choices} {segment : Segment} :
    give choices segment.option (some segment.value) = .ok result ↔
      choices.get segment.option = none ∧
        ∃ value, segment.Gives value ∧ choices.set segment.option value = result := by
  rw [give_eq_ok_iff]
  constructor
  · rintro ⟨hnone, text, hencode, value, hmeans, hset⟩
    exact ⟨hnone, value, ⟨text, hencode, hmeans⟩, hset⟩
  · rintro ⟨hnone, value, ⟨text, hencode, hmeans⟩, hset⟩
    exact ⟨hnone, text, hencode, value, hmeans, hset⟩

theorem gives_unique {segment : Segment} {value other : segment.option.Value}
    (h : segment.Gives value) (hother : segment.Gives other) : value = other := by
  have hnone := Choices.get_empty segment.option
  have hgive := give_segment_iff.mpr ⟨hnone, value, h, rfl⟩
  have hset := give_segment_iff.mpr ⟨hnone, other, hother, rfl⟩
  rw [hgive, Except.ok.injEq] at hset
  have hget := congrArg (fun choices => choices.get segment.option) hset
  simpa using hget

/-- What segments do to choices: each gives its option, which had none, its value, and the
other options keep what they have. -/
structure Adds (choices : Choices) (segments : List Segment) (final : Choices) : Prop where
  distinct : (segments.map Segment.option).Nodup
  wellFormed : ∀ segment ∈ segments, segment.WellFormed
  fresh : ∀ segment ∈ segments, choices.get segment.option = none
  given : ∀ segment ∈ segments, ∃ value,
    segment.Gives value ∧ final.get segment.option = some value
  kept : ∀ option, option ∉ segments.map Segment.option → final.get option = choices.get option

theorem adds_nil_iff {choices final : Choices} : Adds choices [] final ↔ choices = final := by
  constructor
  · intro h
    exact Choices.ext_get fun option => (h.kept option List.not_mem_nil).symm
  · rintro rfl
    exact ⟨List.nodup_nil, nofun, nofun, nofun, fun _ _ => rfl⟩

theorem option_ne_of_not_mem {option : Opt} {segments : List Segment}
    (h : option ∉ segments.map Segment.option) {segment : Segment} (hmem : segment ∈ segments) :
    segment.option ≠ option :=
  fun heq => h (heq ▸ List.mem_map_of_mem hmem)

/-- What the first segment adds is there before the others add theirs. -/
theorem Adds.tail {choices final : Choices} {segment : Segment} {segments : List Segment}
    {value : segment.option.Value} (h : Adds choices (segment :: segments) final)
    (hvalue : final.get segment.option = some value) :
    Adds (choices.set segment.option value) segments final := by
  obtain ⟨hnotin, hdistinct⟩ := List.nodup_cons.mp h.distinct
  obtain ⟨_, hformed⟩ := List.forall_mem_cons.mp h.wellFormed
  obtain ⟨_, hfresh⟩ := List.forall_mem_cons.mp h.fresh
  obtain ⟨_, hgiven⟩ := List.forall_mem_cons.mp h.given
  refine ⟨hdistinct, hformed, fun other hmem => ?_, hgiven, fun option hoption => ?_⟩
  · rw [Choices.get_set_of_ne _ _ (option_ne_of_not_mem hnotin hmem)]
    exact hfresh other hmem
  · by_cases heq : option = segment.option
    · subst heq
      rw [hvalue, Choices.get_set_self]
    · rw [Choices.get_set_of_ne _ _ heq]
      exact h.kept option (List.not_mem_cons_of_ne_of_not_mem heq hoption)

theorem Adds.cons {choices final : Choices} {segment : Segment} {segments : List Segment}
    {value : segment.option.Value} (hformed : segment.WellFormed)
    (hnone : choices.get segment.option = none) (hgives : segment.Gives value)
    (h : Adds (choices.set segment.option value) segments final) :
    Adds choices (segment :: segments) final := by
  -- The option of the first segment is not fresh for the others.
  have hnotin : segment.option ∉ segments.map Segment.option := by
    intro hmem
    obtain ⟨other, hother, heq⟩ := List.mem_map.mp hmem
    have hfresh := h.fresh other hother
    rw [heq, Choices.get_set_self] at hfresh
    cases hfresh
  have hfresh : ∀ other ∈ segments, choices.get other.option = none := by
    intro other hmem
    rw [← h.fresh other hmem, Choices.get_set_of_ne _ _ (option_ne_of_not_mem hnotin hmem)]
  have hvalue : final.get segment.option = some value := by
    rw [h.kept _ hnotin, Choices.get_set_self]
  refine ⟨List.nodup_cons.mpr ⟨hnotin, h.distinct⟩,
    List.forall_mem_cons.mpr ⟨hformed, h.wellFormed⟩, List.forall_mem_cons.mpr ⟨hnone, hfresh⟩,
    List.forall_mem_cons.mpr ⟨⟨value, hgives, hvalue⟩, h.given⟩, fun option hoption => ?_⟩
  obtain ⟨hne, hoption⟩ := not_or.mp fun h => hoption (List.mem_cons.mpr h)
  rw [h.kept option hoption, Choices.get_set_of_ne _ _ hne]

/-- Segments for different options, whose values their options accept, can be added to choices
that have none of them. -/
theorem exists_adds {choices : Choices} {segments : List Segment}
    (hdistinct : (segments.map Segment.option).Nodup)
    (hformed : ∀ segment ∈ segments, segment.WellFormed)
    (hfresh : ∀ segment ∈ segments, choices.get segment.option = none)
    (hvalid : ∀ segment ∈ segments, ∃ value, segment.Gives value) :
    ∃ final, Adds choices segments final := by
  induction segments generalizing choices with
  | nil => exact ⟨choices, adds_nil_iff.mpr rfl⟩
  | cons segment segments ih =>
      obtain ⟨hnotin, hdistinct⟩ := List.nodup_cons.mp hdistinct
      obtain ⟨hsegment, hformed⟩ := List.forall_mem_cons.mp hformed
      obtain ⟨hnone, hfresh⟩ := List.forall_mem_cons.mp hfresh
      obtain ⟨⟨value, hgives⟩, hvalid⟩ := List.forall_mem_cons.mp hvalid
      have hfresh : ∀ other ∈ segments,
          (choices.set segment.option value).get other.option = none := by
        intro other hmem
        rw [Choices.get_set_of_ne _ _ (option_ne_of_not_mem hnotin hmem)]
        exact hfresh other hmem
      obtain ⟨final, hfinal⟩ := ih hdistinct hformed hfresh hvalid
      exact ⟨final, hfinal.cons hsegment hnone hgives⟩

theorem fills_iff_adds {choices final : Choices} {segments : List Segment} :
    Fills choices segments final ↔ Adds choices segments final := by
  constructor
  · intro h
    induction h with
    | nil choices => exact adds_nil_iff.mpr rfl
    | cons wellFormed gives _ ih =>
        obtain ⟨hnone, value, hgives, rfl⟩ := give_segment_iff.mp gives
        exact ih.cons wellFormed hnone hgives
  · intro h
    induction segments generalizing choices with
    | nil =>
        obtain rfl := adds_nil_iff.mp h
        exact .nil _
    | cons segment segments ih =>
        obtain ⟨value, hgives, hvalue⟩ := h.given segment List.mem_cons_self
        have hnone := h.fresh segment List.mem_cons_self
        exact .cons (h.wellFormed segment List.mem_cons_self)
          (give_segment_iff.mpr ⟨hnone, value, hgives, rfl⟩) (ih (h.tail hvalue))

end Reading

theorem adds_empty_iff_yields {segments : List Segment} {choices : Choices} :
    Reading.Adds .empty segments choices ↔ Yields segments choices := by
  constructor
  · intro h
    refine ⟨h.distinct, h.wellFormed, h.given, fun option hoption => ?_⟩
    rw [h.kept option hoption, Choices.get_empty]
  · intro h
    refine ⟨h.distinct, h.wellFormed, fun _ _ => Choices.get_empty _, h.given,
      fun option hoption => ?_⟩
    rw [h.absent option hoption, Choices.get_empty]

/-- A command line is read exactly if the grammar accepts it, and as what the grammar says it
means. -/
theorem read_eq_ok_iff_accepts {arguments : List Bytes} {choices : Choices} :
    read arguments = .ok choices ↔ Accepts arguments choices := by
  constructor
  · intro h
    obtain ⟨segments, closing, hclosing, harguments, hfills⟩ := Reading.fills_of_finish h
    exact ⟨segments, closing, hclosing, harguments,
      adds_empty_iff_yields.mp (Reading.fills_iff_adds.mp hfills)⟩
  · rintro ⟨segments, closing, hclosing, rfl, hyields⟩
    exact Reading.finish_of_fills hclosing
      (Reading.fills_iff_adds.mpr (adds_empty_iff_yields.mpr hyields))

end OrderFlow.CommandLine
