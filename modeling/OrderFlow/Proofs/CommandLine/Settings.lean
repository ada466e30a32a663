import OrderFlow.Proofs.CommandLine.Acceptance

/-!
# Settings from the command line

An accepted command line sets the field of every option it names to what its value means,
and leaves the others as they are when nothing is asked.  Values are numbers of 64 bits, so
the periods they ask for in smaller units are counted in whole nanoseconds with nothing lost.
-/

namespace OrderFlow

/-- Every number of some settings lies in the range of its field.  A span of time is counted
in whole seconds of 64 bits and the nanoseconds beyond them. -/
structure Settings.InRange (settings : Settings) : Prop where
  port : settings.port < UInt16.size
  batchSize : settings.batchSize < UInt64.size
  period : settings.period.nanos < UInt64.size * 1000000000
  workers : settings.workers < UInt64.size
  maxTicks : ∀ n, settings.maxTicks = some n → n < UInt64.size
  connectTimeout : ∀ timeout, settings.connectTimeout = some timeout →
    timeout.nanos < UInt64.size * 1000000000

namespace CommandLine

open Grammar (Segment Means IsWord IsPort Yields Accepts)

/-! ## Values in range -/

/-- The range of the values of an option. -/
def Opt.InRange : (option : Opt) → option.Value → Prop
  | .host, _ => True
  | .port, n => n < UInt16.size
  | .batchSize, n => n < UInt64.size
  | .periodUs, n => n < UInt64.size
  | .workers, n => n < UInt64.size
  | .maxTicks, n => n < UInt64.size
  | .seed, n => n < UInt64.size
  | .connectTimeoutMs, n => n < UInt64.size
  | .logLevel, _ => True

theorem lt_of_isWord {text : List Char} {n : Nat} (h : IsWord text n) : n < UInt64.size := by
  cases h <;> assumption

theorem lt_of_isPort {text : List Char} {n : Nat} (h : IsPort text n) : n < UInt16.size := by
  cases h with
  | bare _ fits => exact fits
  | plus _ fits => exact fits
  | minusZero _ => decide

theorem inRange_of_means {option : Opt} {text : List Char} {value : option.Value}
    (h : Means option text value) : option.InRange value := by
  cases option with
  | host => trivial
  | port => exact lt_of_isPort h
  | logLevel => trivial
  | _ => exact lt_of_isWord h

theorem inRange_of_yields {segments : List Segment} {choices : Choices}
    (h : Yields segments choices) {option : Opt} {value : option.Value}
    (hget : choices.get option = some value) : option.InRange value := by
  by_cases hoption : option ∈ segments.map Segment.option
  · obtain ⟨segment, hmem, rfl⟩ := List.mem_map.mp hoption
    obtain ⟨given, ⟨_, _, hmeans⟩, hgiven⟩ := h.given segment hmem
    rw [hgiven] at hget
    cases hget
    exact inRange_of_means hmeans
  · rw [h.absent option hoption] at hget
    cases hget

/-! ## Fields -/

/-- The field of an option is what a value of the option asks for. -/
def Holds (settings : Settings) (level : Level) : (option : Opt) → option.Value → Prop
  | .host, host => settings.host = host
  | .port, n => settings.port = n
  | .batchSize, n => settings.batchSize = n
  | .periodUs, n => settings.period.nanos = n * 1000
  | .workers, n => settings.workers = n
  | .maxTicks, n => settings.maxTicks = some n
  | .seed, n => settings.seed.map UInt64.toNat = some n
  | .connectTimeoutMs, n => settings.connectTimeout.map Duration.nanos = some (n * 1000000)
  | .logLevel, wanted => level = wanted

/-- The field of an option is what it is when nothing is asked. -/
def IsStandard (settings : Settings) (level : Level) : Opt → Prop
  | .host => settings.host = Settings.standard.host
  | .port => settings.port = Settings.standard.port
  | .batchSize => settings.batchSize = Settings.standard.batchSize
  | .periodUs => settings.period = Settings.standard.period
  | .workers => settings.workers = Settings.standard.workers
  | .maxTicks => settings.maxTicks = Settings.standard.maxTicks
  | .seed => settings.seed = Settings.standard.seed
  | .connectTimeoutMs => settings.connectTimeout = Settings.standard.connectTimeout
  | .logLevel => level = .info

namespace Choices

theorem holds_of_get {choices : Choices} {option : Opt} {value : option.Value}
    (hrange : option.InRange value) (h : choices.get option = some value) :
    Holds choices.settings choices.level option value := by
  have hseed : ∀ {n}, n < UInt64.size → (UInt64.ofNat n).toNat = n := fun hn =>
    UInt64.toNat_ofNat_of_lt' hn
  cases option <;> simp_all [get, Holds, settings, level, Opt.InRange, Duration.ofMicros,
    Duration.ofMillis]

theorem isStandard_of_get {choices : Choices} {option : Opt} (h : choices.get option = none) :
    IsStandard choices.settings choices.level option := by
  cases option <;> simp_all [get, IsStandard, settings, level, Settings.standard]

theorem getD_lt {value? : Option Nat} {standard bound : Nat} (hstandard : standard < bound)
    (h : ∀ n, value? = some n → n < bound) : value?.getD standard < bound := by
  cases value? with
  | none => exact hstandard
  | some n => exact h n rfl

/-- Values in range make settings in range: no span of time overflows. -/
theorem inRange_settings {choices : Choices}
    (h : ∀ option value, choices.get option = some value → option.InRange value) :
    choices.settings.InRange where
  port := getD_lt (by decide) (h .port)
  batchSize := getD_lt (by decide) (h .batchSize)
  workers := getD_lt (by decide) (h .workers)
  maxTicks := h .maxTicks
  period := by
    cases hperiod : choices.periodUs with
    | none => simpa [settings, hperiod] using by decide
    | some n =>
        have hn : n < UInt64.size := h .periodUs n hperiod
        have hspan : choices.settings.period.nanos = n * 1000 := by
          simp [settings, hperiod, Duration.ofMicros]
        omega
  connectTimeout := by
    intro timeout htimeout
    obtain ⟨n, hget, rfl⟩ := Option.map_eq_some_iff.mp htimeout
    have hn : n < UInt64.size := h .connectTimeoutMs n hget
    have hspan : (Duration.ofMillis n).nanos = n * 1000000 := rfl
    omega

end Choices

namespace Grammar

/-- Segments spell a command line: one after another and perhaps followed by `--` they are its
arguments, no two are for one option, and the value of each is one its option accepts. -/
structure Spells (segments : List Segment) (arguments : List Bytes) : Prop where
  shape : ∃ closing, (closing = [] ∨ closing = [[dash, dash]]) ∧
    arguments = segments.flatMap Segment.arguments ++ closing
  distinct : (segments.map Segment.option).Nodup
  wellFormed : ∀ segment ∈ segments, segment.WellFormed
  valid : ∀ segment ∈ segments, ∃ value, segment.Gives value

/-- Settings and a level are what segments ask for: the field of each segment's option is what
its value asks for, and the others are standard. -/
structure Configures (segments : List Segment) (settings : Settings) (level : Level) :
    Prop where
  given : ∀ segment ∈ segments, ∀ value, segment.Gives value →
    Holds settings level segment.option value
  standard : ∀ option, option ∉ segments.map Segment.option → IsStandard settings level option

theorem exists_read_of_spells {segments : List Segment} {arguments : List Bytes}
    (h : Spells segments arguments) :
    ∃ choices, read arguments = .ok choices ∧ Yields segments choices := by
  obtain ⟨closing, hclosing, harguments⟩ := h.shape
  obtain ⟨choices, hadds⟩ := Reading.exists_adds h.distinct h.wellFormed
    (fun segment _ => Choices.get_empty segment.option) h.valid
  have hyields := adds_empty_iff_yields.mp hadds
  exact ⟨choices, read_eq_ok_iff_accepts.mpr ⟨segments, closing, hclosing, harguments, hyields⟩,
    hyields⟩

theorem configures_of_yields {segments : List Segment} {choices : Choices}
    (h : Yields segments choices) :
    Configures segments choices.settings choices.level ∧ choices.settings.InRange := by
  refine ⟨⟨fun segment hmem value hgives => ?_, fun option hoption => ?_⟩, ?_⟩
  · obtain ⟨given, hgiven, hget⟩ := h.given segment hmem
    obtain rfl := Reading.gives_unique hgives hgiven
    exact Choices.holds_of_get (inRange_of_yields h hget) hget
  · exact Choices.isStandard_of_get (h.absent option hoption)
  · exact Choices.inRange_settings fun _ _ hget => inRange_of_yields h hget

/-- A command line is accepted exactly if some segments spell it.  Its settings and its level
are then what these segments ask for, and every number of theirs is in range. -/
theorem read_iff_spells_and_configures (arguments : List Bytes) :
    ((∃ choices, read arguments = .ok choices) ↔ ∃ segments, Spells segments arguments) ∧
      ∀ segments choices, Spells segments arguments → read arguments = .ok choices →
        Configures segments choices.settings choices.level ∧ choices.settings.InRange := by
  refine ⟨⟨?_, ?_⟩, ?_⟩
  · rintro ⟨choices, hread⟩
    obtain ⟨segments, closing, hclosing, harguments, hyields⟩ := read_eq_ok_iff_accepts.mp hread
    refine ⟨segments, ⟨closing, hclosing, harguments⟩, hyields.distinct, hyields.wellFormed,
      fun segment hmem => ?_⟩
    obtain ⟨value, hgives, _⟩ := hyields.given segment hmem
    exact ⟨value, hgives⟩
  · rintro ⟨segments, hspells⟩
    obtain ⟨choices, hread, _⟩ := exists_read_of_spells hspells
    exact ⟨choices, hread⟩
  · intro segments choices hspells hread
    obtain ⟨other, hother, hyields⟩ := exists_read_of_spells hspells
    rw [hread] at hother
    cases hother
    exact configures_of_yields hyields

theorem settings_of_period_and_host :
    ∃ choices,
      read [asciiBytes "--period-us=+250", asciiBytes "--host", [dash], [dash, dash]] =
        .ok choices ∧
      choices.settings.period.nanos = 250000 ∧ choices.settings.host = "-" ∧
        choices.settings.port = 8080 := by
  have hperiod : (Segment.joined .periodUs (asciiBytes "+250")).Gives (250 : Nat) :=
    ⟨['+', '2', '5', '0'], by decide, .plus ⟨by decide, List.all_eq_true.mp rfl, rfl⟩ (by decide)⟩
  have hhost : (Segment.separate .host [dash]).Gives "-" := ⟨['-'], by decide, rfl⟩
  have hspells : Spells [.joined .periodUs (asciiBytes "+250"), .separate .host [dash]]
      [asciiBytes "--period-us=+250", asciiBytes "--host", [dash], [dash, dash]] := by
    refine ⟨⟨[[dash, dash]], Or.inr rfl, rfl⟩, by decide, ?_, ?_⟩
    · exact List.forall_mem_cons.mpr ⟨trivial, List.forall_mem_singleton.mpr fun _ => rfl⟩
    · exact List.forall_mem_cons.mpr ⟨⟨_, hperiod⟩, List.forall_mem_singleton.mpr ⟨_, hhost⟩⟩
  obtain ⟨haccepts, hsettings⟩ := read_iff_spells_and_configures
    [asciiBytes "--period-us=+250", asciiBytes "--host", [dash], [dash, dash]]
  obtain ⟨choices, hread⟩ := haccepts.mpr ⟨_, hspells⟩
  obtain ⟨hgiven, hstandard⟩ := (hsettings _ choices hspells hread).1
  obtain ⟨hgivesPeriod, hothers⟩ := List.forall_mem_cons.mp hgiven
  have hgivesHost := List.forall_mem_singleton.mp hothers
  exact ⟨choices, hread, hgivesPeriod _ hperiod, hgivesHost _ hhost,
    hstandard .port (by decide)⟩

end Grammar

end CommandLine

end OrderFlow
