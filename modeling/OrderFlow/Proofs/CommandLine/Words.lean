import Mathlib.Data.List.TakeWhile
import OrderFlow.Proofs.CommandLine.Values

/-!
# The shapes of arguments

Which argument is read as which word.  No name of an option holds an equals sign, so an
option with its value is taken apart where it was put together.
-/

namespace OrderFlow.CommandLine

theorem Opt.mem_all (option : Opt) : option ∈ all := by
  cases option <;> decide

theorem asciiBytes_name_injective :
    Function.Injective fun option : Opt => asciiBytes option.name := by
  intro option other h
  revert h
  cases option <;> cases other <;> decide

theorem equals_not_mem_name (option : Opt) : equals ∉ asciiBytes option.name := by
  cases option <;> decide

theorem asciiBytes_name_ne_nil (option : Opt) : asciiBytes option.name ≠ [] := by
  cases option <;> decide

namespace Word

theorem option?_eq_some_iff {name : Bytes} {option : Opt} :
    option? name = some option ↔ asciiBytes option.name = name :=
  find?_key_eq_some_iff asciiBytes_name_injective Opt.mem_all

/-! ## Names and values -/

theorem splitValue_of_not_mem {name : Bytes} (h : equals ∉ name) :
    splitValue name = (name, none) := by
  have hdrop : name.dropWhile (· != equals) = [] :=
    List.dropWhile_eq_nil_iff.mpr fun b hb => bne_iff_ne.mpr (ne_of_mem_of_not_mem hb h)
  rw [splitValue, hdrop]

theorem splitValue_append {name : Bytes} (h : equals ∉ name) (value : Bytes) :
    splitValue (name ++ equals :: value) = (name, some value) := by
  have hname : ∀ b ∈ name, (b != equals) = true := fun b hb =>
    bne_iff_ne.mpr (ne_of_mem_of_not_mem hb h)
  rw [splitValue, List.dropWhile_append_of_pos hname, List.takeWhile_append_of_pos hname]
  simp

/-- A text is its name, and its value after an equals sign if it has one. -/
theorem eq_of_splitValue {text name : Bytes} {value? : Option Bytes}
    (h : splitValue text = (name, value?)) :
    text = name ++ value?.elim [] (equals :: ·) := by
  rw [splitValue] at h
  split at h
  · cases h
    exact (List.append_nil _).symm
  · rename_i b value hdrop
    cases h
    have hb : (b != equals) = false := by
      have hhead := List.head?_dropWhile_not (· != equals) text
      rwa [hdrop] at hhead
    have hsplit : text.takeWhile (· != equals) ++ b :: value = text := by
      rw [← hdrop, List.takeWhile_append_dropWhile]
    rw [bne_eq_false_iff_eq.mp hb] at hsplit
    exact hsplit.symm

theorem ofLong_eq_option_iff {text : Bytes} {option : Opt} :
    ofLong text = .option option ↔ text = asciiBytes option.name := by
  constructor
  · intro h
    obtain ⟨⟨name, value?⟩, hsplit⟩ : ∃ parts, splitValue text = parts := ⟨_, rfl⟩
    rw [ofLong, hsplit] at h
    dsimp only at h
    split at h <;> cases h
    rename_i hoption
    rw [option?_eq_some_iff.mp hoption, eq_of_splitValue hsplit]
    exact List.append_nil _
  · rintro rfl
    rw [ofLong, splitValue_of_not_mem (equals_not_mem_name option)]
    dsimp only
    rw [option?_eq_some_iff.mpr rfl]

theorem ofLong_eq_optionValue_iff {text value : Bytes} {option : Opt} :
    ofLong text = .optionValue option value ↔
      text = asciiBytes option.name ++ equals :: value := by
  constructor
  · intro h
    obtain ⟨⟨name, value?⟩, hsplit⟩ : ∃ parts, splitValue text = parts := ⟨_, rfl⟩
    rw [ofLong, hsplit] at h
    dsimp only at h
    split at h <;> cases h
    rename_i hoption
    rw [option?_eq_some_iff.mp hoption]
    exact eq_of_splitValue hsplit
  · rintro rfl
    rw [ofLong, splitValue_append (equals_not_mem_name option)]
    dsimp only
    rw [option?_eq_some_iff.mpr rfl]

theorem ofLong_ne_terminator (text : Bytes) : ofLong text ≠ .terminator := by
  intro h
  rw [ofLong] at h
  dsimp only at h
  split at h <;> cases h

theorem ofLong_ne_operand (text value : Bytes) : ofLong text ≠ .operand value := by
  intro h
  rw [ofLong] at h
  dsimp only at h
  split at h <;> cases h

theorem ofShort_eq (text : Bytes) :
    (∃ flag, ofShort text = .flag flag) ∨ ∃ shown, ofShort text = .unknown shown := by
  rw [ofShort]
  split
  · split_ifs
    · exact Or.inl ⟨_, rfl⟩
    · exact Or.inl ⟨_, rfl⟩
    · exact Or.inr ⟨_, rfl⟩
  · exact Or.inr ⟨_, rfl⟩

/-! ## Arguments -/

/-- An argument belongs to an option, or to nothing, if it starts with no dash or is a dash
alone. -/
def IsOperand (argument : Bytes) : Prop :=
  argument.head? = some dash → argument = [dash]

/-- The shapes of arguments, with the word each is read as. -/
inductive Shape : Bytes → Word → Prop where
  | terminator : Shape [dash, dash] .terminator
  | long {text : Bytes} (hne : text ≠ []) : Shape (dash :: dash :: text) (ofLong text)
  | short {text : Bytes} (hne : text ≠ []) (hdash : text.head? ≠ some dash) :
      Shape (dash :: text) (ofShort text)
  | operand {argument : Bytes} (h : IsOperand argument) : Shape argument (.operand argument)

theorem shape (argument : Bytes) : Shape argument (ofArgument argument) := by
  unfold ofArgument
  split
  · exact .operand fun h => by cases h
  · rename_i first text
    split_ifs with hfirst
    · subst hfirst
      split
      · exact .operand fun _ => rfl
      · rename_i second long
        split_ifs with hsecond hlong
        · subst hsecond hlong
          exact .terminator
        · subst hsecond
          exact .long hlong
        · exact .short (List.cons_ne_nil _ _) fun h => hsecond (Option.some.inj h)
    · exact .operand fun h => absurd (Option.some.inj h) hfirst

theorem not_isOperand_long (text : Bytes) : ¬ IsOperand (dash :: dash :: text) := by
  intro h
  cases h rfl

theorem not_isOperand_short {text : Bytes} (hne : text ≠ []) : ¬ IsOperand (dash :: text) := by
  intro h
  exact hne (List.cons.inj (h rfl)).2

theorem ofArgument_eq_operand_iff {argument value : Bytes} :
    ofArgument argument = .operand value ↔ argument = value ∧ IsOperand argument := by
  have hshape := shape argument
  generalize ofArgument argument = word at hshape ⊢
  cases hshape with
  | terminator => simp [not_isOperand_long]
  | long _ => simp [ofLong_ne_operand, not_isOperand_long]
  | @short text hne _ =>
      obtain ⟨_, hword⟩ | ⟨_, hword⟩ := ofShort_eq text <;>
        simp [hword, not_isOperand_short hne]
  | operand hoperand => simp [hoperand]

theorem ofArgument_eq_terminator_iff {argument : Bytes} :
    ofArgument argument = .terminator ↔ argument = [dash, dash] := by
  have hshape := shape argument
  generalize ofArgument argument = word at hshape ⊢
  cases hshape with
  | terminator => simp
  | long hne => simp [ofLong_ne_terminator, hne]
  | @short text hne hdash =>
      have hother : text ≠ [dash] := fun h => hdash (by rw [h]; rfl)
      obtain ⟨_, hword⟩ | ⟨_, hword⟩ := ofShort_eq text <;> simp [hword, hother]
  | operand hoperand =>
      have hother : argument ≠ [dash, dash] := fun h => not_isOperand_long [] (h ▸ hoperand)
      simp [hother]

/-- A word other than a flag that is made of one text after two dashes is made of no other
argument. -/
theorem ofArgument_eq_iff {argument text : Bytes} {word : Word}
    (hlong : ∀ other, ofLong other = word ↔ other = text) (hne : text ≠ [])
    (hflag : ∀ flag, word ≠ .flag flag) (hunknown : ∀ shown, word ≠ .unknown shown) :
    ofArgument argument = word ↔ argument = dash :: dash :: text := by
  -- A text after two dashes makes the word, so it is neither `--` nor an operand.
  have hword : ofLong text = word := (hlong text).mpr rfl
  have hshape := shape argument
  generalize ofArgument argument = read at hshape ⊢
  cases hshape with
  | terminator =>
      have hterminator : Word.terminator ≠ word := hword ▸ (ofLong_ne_terminator text).symm
      simp [hterminator, hne.symm]
  | long _ => simp [hlong]
  | @short other _ hdash =>
      have hother : other ≠ dash :: text := fun h => hdash (by rw [h]; rfl)
      obtain ⟨flag, hshort⟩ | ⟨shown, hshort⟩ := ofShort_eq other
      · simp [hshort, hother, (hflag flag).symm]
      · simp [hshort, hother, (hunknown shown).symm]
  | operand hoperand =>
      have hother : argument ≠ dash :: dash :: text := fun h => not_isOperand_long _ (h ▸ hoperand)
      have hbelongs : Word.operand argument ≠ word := hword ▸ (ofLong_ne_operand text _).symm
      simp [hother, hbelongs]

theorem ofArgument_eq_option_iff {argument : Bytes} {option : Opt} :
    ofArgument argument = .option option ↔ argument = dash :: dash :: asciiBytes option.name :=
  ofArgument_eq_iff (fun _ => ofLong_eq_option_iff) (asciiBytes_name_ne_nil option) nofun nofun

theorem ofArgument_eq_optionValue_iff {argument value : Bytes} {option : Opt} :
    ofArgument argument = .optionValue option value ↔
      argument = dash :: dash :: asciiBytes option.name ++ equals :: value :=
  ofArgument_eq_iff (fun _ => ofLong_eq_optionValue_iff) (by simp) nofun nofun

end Word

end OrderFlow.CommandLine
