import OrderFlow.Proofs.CommandLine.Words

/-!
# Flags and names that do not exist

Which arguments ask for help or the version, by a flag's name or by its letter alone, and
which name nothing at all.
-/

namespace OrderFlow.CommandLine

/-- The letter of a flag, as it follows a single dash. -/
def Flag.letter : Flag → UInt8
  | .help => 0x68
  | .version => 0x56

/-- An argument asks for what a flag stands for: it is the flag's name after two dashes, or
starts with the flag's letter after one. -/
def Asks (flag : Flag) (argument : Bytes) : Prop :=
  argument = dash :: dash :: asciiBytes flag.name ∨
    ∃ rest, argument = dash :: flag.letter :: rest

/-- An argument names no option and no flag, and how much of it is shown: the name after two
dashes, or the first character after one, if the bytes there are a character. -/
inductive IsUnknown : Bytes → List Char → Prop where
  | name {name : Bytes} {value? : Option Bytes} (noEquals : equals ∉ name)
      (spelled : name ++ value?.elim [] (equals :: ·) ≠ [])
      (noOption : ∀ option : Opt, asciiBytes option.name ≠ name)
      (noFlag : ∀ flag : Flag, asciiBytes flag.name ≠ name) :
      IsUnknown (dash :: dash :: (name ++ value?.elim [] (equals :: ·)))
        ('-' :: '-' :: Utf8.decodeLossy name)
  | letter {c : Char} {rest : Bytes} (notDash : c ≠ '-') (notHelp : c ≠ 'h')
      (notVersion : c ≠ 'V') : IsUnknown (dash :: (String.utf8EncodeChar c ++ rest)) ['-', c]
  | noLetter {text : Bytes} (spelled : text ≠ [])
      (broken : ∀ c, ¬ String.utf8EncodeChar c <+: text) :
      IsUnknown (dash :: text) ('-' :: Utf8.decodeLossy text)

theorem Flag.asciiBytes_name_injective :
    Function.Injective fun flag : Flag => asciiBytes flag.name := by
  intro flag other h
  revert h
  cases flag <;> cases other <;> decide

theorem Flag.equals_not_mem_name (flag : Flag) : equals ∉ asciiBytes flag.name := by
  cases flag <;> decide

theorem Flag.asciiBytes_name_ne_nil (flag : Flag) : asciiBytes flag.name ≠ [] := by
  cases flag <;> decide

theorem Flag.letter_ne_dash (flag : Flag) : flag.letter ≠ dash := by
  cases flag <;> decide

namespace Word

theorem flag?_eq_some_iff {name : Bytes} {flag : Flag} :
    flag? name = some flag ↔ asciiBytes flag.name = name :=
  find?_key_eq_some_iff Flag.asciiBytes_name_injective fun flag => by cases flag <;> decide

theorem option?_eq_none_iff {name : Bytes} :
    option? name = none ↔ ∀ option : Opt, asciiBytes option.name ≠ name := by
  simp only [Option.eq_none_iff_forall_ne_some, ne_eq, option?_eq_some_iff]

theorem flag?_eq_none_iff {name : Bytes} :
    flag? name = none ↔ ∀ flag : Flag, asciiBytes flag.name ≠ name := by
  simp only [Option.eq_none_iff_forall_ne_some, ne_eq, flag?_eq_some_iff]

/-- No flag has the name of an option. -/
theorem option?_flag_name (flag : Flag) : option? (asciiBytes flag.name) = none := by
  cases flag <;> decide

/-! ## After two dashes -/

theorem splitValue_name {name : Bytes} (h : equals ∉ name) (value? : Option Bytes) :
    splitValue (name ++ value?.elim [] (equals :: ·)) = (name, value?) := by
  cases value? with
  | none =>
      rw [Option.elim_none, List.append_nil]
      exact splitValue_of_not_mem h
  | some value => exact splitValue_append h value

/-- A text is a name without an equals sign, and its value after one if it has one. -/
theorem exists_name (text : Bytes) : ∃ name : Bytes, ∃ value? : Option Bytes, equals ∉ name ∧
    text = name ++ value?.elim [] (equals :: ·) := by
  obtain ⟨⟨name, value?⟩, hsplit⟩ : ∃ parts, splitValue text = parts := ⟨_, rfl⟩
  refine ⟨name, value?, ?_, eq_of_splitValue hsplit⟩
  rw [splitValue] at hsplit
  split at hsplit
  · rename_i hdrop
    cases hsplit
    intro hmem
    exact absurd (List.dropWhile_eq_nil_iff.mp hdrop equals hmem) (by decide)
  · cases hsplit
    intro hmem
    exact absurd (List.mem_takeWhile_imp hmem) (by decide)

/-- A flag is read off its name, with a value or without. -/
theorem ofLong_eq_flagWith_iff {text : Bytes} {flag : Flag} (value? : Option Bytes) :
    ofLong text = value?.elim (.flag flag) (.flagValue flag) ↔
      text = asciiBytes flag.name ++ value?.elim [] (equals :: ·) := by
  constructor
  · intro h
    obtain ⟨name, given?, hname, rfl⟩ := exists_name text
    rw [ofLong, splitValue_name hname] at h
    dsimp only at h
    split at h <;> cases value? <;> cases h
    all_goals
      rename_i hflag
      rw [flag?_eq_some_iff.mp hflag]
  · rintro rfl
    rw [ofLong, splitValue_name flag.equals_not_mem_name]
    dsimp only
    rw [option?_flag_name, flag?_eq_some_iff.mpr rfl]
    cases value? <;> rfl

theorem ofLong_eq_flag_iff {text : Bytes} {flag : Flag} :
    ofLong text = .flag flag ↔ text = asciiBytes flag.name := by
  have hbare := @ofLong_eq_flagWith_iff text flag none
  rwa [Option.elim_none, Option.elim_none, List.append_nil] at hbare

theorem ofLong_eq_flagValue_iff {text value : Bytes} {flag : Flag} :
    ofLong text = .flagValue flag value ↔ text = asciiBytes flag.name ++ equals :: value :=
  ofLong_eq_flagWith_iff (some value)

/-- A name that is neither an option's nor a flag's is unknown, with a value or without. -/
theorem ofLong_eq_unknown_iff {text : Bytes} {shown : List Char} :
    ofLong text = .unknown shown ↔
      ∃ name : Bytes, ∃ value? : Option Bytes, equals ∉ name ∧
        text = name ++ value?.elim [] (equals :: ·) ∧
        (∀ option : Opt, asciiBytes option.name ≠ name) ∧
        (∀ flag : Flag, asciiBytes flag.name ≠ name) ∧
        shown = '-' :: '-' :: Utf8.decodeLossy name := by
  constructor
  · intro h
    obtain ⟨name, value?, hname, rfl⟩ := exists_name text
    rw [ofLong, splitValue_name hname] at h
    rcases hoption : option? name with - | option
    · rcases hflag : flag? name with - | flag
      · simp only [hoption, hflag, unknown.injEq] at h
        exact ⟨name, value?, hname, rfl, option?_eq_none_iff.mp hoption,
          flag?_eq_none_iff.mp hflag, h.symm⟩
      · rcases value? <;> simp [hoption, hflag] at h
    · rcases value? <;> simp [hoption] at h
  · rintro ⟨name, value?, hname, rfl, hoption, hflag, rfl⟩
    rw [ofLong, splitValue_name hname]
    simp [option?_eq_none_iff.mpr hoption, flag?_eq_none_iff.mpr hflag]

/-! ## After one dash -/

theorem scan_eq_cons_iff {text : Bytes} {c : Char} :
    (∃ others, Utf8.scan text = some c :: others) ↔ String.utf8EncodeChar c <+: text := by
  constructor
  · rintro ⟨others, hscan⟩
    obtain ⟨rest, rfl, -⟩ := Utf8.eq_append_of_scan_cons hscan
    exact List.prefix_append _ rest
  · rintro ⟨rest, rfl⟩
    exact ⟨_, Utf8.scan_encodeValue_append c rest⟩

/-- The first character decides what follows a single dash. -/
theorem ofShort_encodeChar_append (c : Char) (rest : Bytes) :
    ofShort (String.utf8EncodeChar c ++ rest) =
      if c = 'h' then .flag .help else if c = 'V' then .flag .version else .unknown ['-', c] := by
  have hscan : Utf8.scan (String.utf8EncodeChar c ++ rest) = some c :: Utf8.scan rest :=
    Utf8.scan_encodeValue_append c rest
  rw [ofShort, hscan]

theorem ofShort_of_broken {text : Bytes} (h : ∀ c, ¬ String.utf8EncodeChar c <+: text) :
    ofShort text = .unknown ('-' :: Utf8.decodeLossy text) := by
  rw [ofShort]
  split
  · rename_i c others hscan
    exact absurd (scan_eq_cons_iff.mp ⟨others, hscan⟩) (h c)
  · rfl

/-- The bytes after a dash start with a character, or there is none they could start with. -/
theorem encodeChar_prefix_or_broken (text : Bytes) :
    (∃ c rest, text = String.utf8EncodeChar c ++ rest) ∨
      ∀ c, ¬ String.utf8EncodeChar c <+: text := by
  by_cases hbroken : ∀ c, ¬ String.utf8EncodeChar c <+: text
  · exact Or.inr hbroken
  · obtain ⟨c, rest, hrest⟩ := not_forall_not.mp hbroken
    exact Or.inl ⟨c, rest, hrest.symm⟩

theorem ofShort_eq_flag_iff {text : Bytes} {flag : Flag} :
    ofShort text = .flag flag ↔ ∃ rest, text = flag.letter :: rest := by
  constructor
  · intro h
    rcases encodeChar_prefix_or_broken text with ⟨c, rest, rfl⟩ | hbroken
    · rw [ofShort_encodeChar_append] at h
      split_ifs at h with hhelp hversion
      · cases h
        exact ⟨rest, by rw [hhelp]; rfl⟩
      · cases h
        exact ⟨rest, by rw [hversion]; rfl⟩
    · rw [ofShort_of_broken hbroken] at h
      cases h
  · rintro ⟨rest, rfl⟩
    cases flag with
    | help => exact ofShort_encodeChar_append 'h' rest
    | version => exact ofShort_encodeChar_append 'V' rest

theorem ofShort_eq_unknown_iff {text : Bytes} {shown : List Char} :
    ofShort text = .unknown shown ↔
      (∃ c rest, text = String.utf8EncodeChar c ++ rest ∧ c ≠ 'h' ∧ c ≠ 'V' ∧
        shown = ['-', c]) ∨
      (∀ c, ¬ String.utf8EncodeChar c <+: text) ∧ shown = '-' :: Utf8.decodeLossy text := by
  constructor
  · intro h
    rcases encodeChar_prefix_or_broken text with ⟨c, rest, rfl⟩ | hbroken
    · rw [ofShort_encodeChar_append] at h
      split_ifs at h with hhelp hversion
      cases h
      exact Or.inl ⟨c, rest, rfl, hhelp, hversion, rfl⟩
    · rw [ofShort_of_broken hbroken] at h
      cases h
      exact Or.inr ⟨hbroken, rfl⟩
  · rintro (⟨c, rest, rfl, hhelp, hversion, rfl⟩ | ⟨hbroken, rfl⟩)
    · rw [ofShort_encodeChar_append, if_neg hhelp, if_neg hversion]
    · exact ofShort_of_broken hbroken

/-! ## Arguments -/

theorem ofArgument_eq_flag_iff {argument : Bytes} {flag : Flag} :
    ofArgument argument = .flag flag ↔ Asks flag argument := by
  have hshape := shape argument
  generalize ofArgument argument = word at hshape ⊢
  cases hshape with
  | terminator => simp [Asks, flag.asciiBytes_name_ne_nil.symm, flag.letter_ne_dash.symm]
  | long hne => simp [Asks, ofLong_eq_flag_iff, flag.letter_ne_dash.symm]
  | @short text hne hdash =>
      have hother : text ≠ dash :: asciiBytes flag.name := fun h => hdash (by rw [h]; rfl)
      simp [Asks, ofShort_eq_flag_iff, hother]
  | operand hoperand =>
      have hlong : argument ≠ dash :: dash :: asciiBytes flag.name := fun h =>
        not_isOperand_long _ (h ▸ hoperand)
      have hshort : ∀ rest, argument ≠ dash :: flag.letter :: rest := fun rest h =>
        not_isOperand_short (List.cons_ne_nil _ rest) (h ▸ hoperand)
      simp [Asks, hlong, hshort]

theorem ofArgument_eq_flagValue_iff {argument value : Bytes} {flag : Flag} :
    ofArgument argument = .flagValue flag value ↔
      argument = dash :: dash :: asciiBytes flag.name ++ equals :: value :=
  ofArgument_eq_iff (fun _ => ofLong_eq_flagValue_iff) (by simp) nofun nofun

theorem ofArgument_long {text : Bytes} (hne : text ≠ []) :
    ofArgument (dash :: dash :: text) = ofLong text := by
  simp [ofArgument, hne]

theorem ofArgument_short {text : Bytes} (hne : text ≠ []) (hdash : text.head? ≠ some dash) :
    ofArgument (dash :: text) = ofShort text := by
  cases text with
  | nil => exact absurd rfl hne
  | cons second rest =>
      have hsecond : second ≠ dash := fun h => hdash (by rw [h]; rfl)
      simp [ofArgument, hsecond]

/-- Of all characters only a dash starts with the byte of a dash. -/
theorem eq_dash_of_head? {c : Char} {rest : Bytes}
    (h : (String.utf8EncodeChar c ++ rest).head? = some dash) : c = '-' := by
  obtain ⟨others, hothers⟩ := List.head?_eq_some_iff.mp h
  have hscan := Utf8.scan_encodeValue_append c rest
  have hdash := Utf8.scan_encodeValue_append '-' others
  have hsame : Utf8.encodeValue c.toNat ++ rest = Utf8.encodeValue '-'.toNat ++ others := hothers
  rw [← hsame, hscan] at hdash
  exact Option.some.inj (List.cons.inj hdash).1

theorem ofArgument_of_isUnknown {argument : Bytes} {shown : List Char}
    (h : IsUnknown argument shown) : ofArgument argument = .unknown shown := by
  cases h with
  | name noEquals spelled noOption noFlag =>
      rw [ofArgument_long spelled, ofLong_eq_unknown_iff]
      exact ⟨_, _, noEquals, rfl, noOption, noFlag, rfl⟩
  | @letter c rest notDash notHelp notVersion =>
      have hne : String.utf8EncodeChar c ++ rest ≠ [] := by
        simp
      rw [ofArgument_short hne fun hhead => notDash (eq_dash_of_head? hhead),
        ofShort_encodeChar_append, if_neg notHelp, if_neg notVersion]
  | noLetter spelled broken =>
      rw [ofArgument_short spelled, ofShort_of_broken broken]
      -- What starts with a dash starts with a character, which a broken text does not.
      intro hhead
      obtain ⟨rest, rfl⟩ := List.head?_eq_some_iff.mp hhead
      exact broken '-' ⟨rest, rfl⟩

theorem isUnknown_of_ofArgument {argument : Bytes} {shown : List Char}
    (h : ofArgument argument = .unknown shown) : IsUnknown argument shown := by
  have hshape := shape argument
  generalize ofArgument argument = word at hshape h
  cases hshape with
  | terminator => cases h
  | long hne =>
      obtain ⟨name, value?, hname, rfl, hoption, hflag, rfl⟩ := ofLong_eq_unknown_iff.mp h
      exact .name hname hne hoption hflag
  | @short text hne hdash =>
      obtain ⟨c, rest, rfl, hhelp, hversion, rfl⟩ | ⟨hbroken, rfl⟩ :=
        ofShort_eq_unknown_iff.mp h
      · refine .letter ?_ hhelp hversion
        rintro rfl
        exact hdash rfl
      · exact .noLetter hne hbroken
  | operand _ => cases h

theorem ofArgument_eq_unknown_iff {argument : Bytes} {shown : List Char} :
    ofArgument argument = .unknown shown ↔ IsUnknown argument shown :=
  ⟨isUnknown_of_ofArgument, ofArgument_of_isUnknown⟩

end Word

end OrderFlow.CommandLine
