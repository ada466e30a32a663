import Mathlib.Logic.Function.Basic
import OrderFlow.CommandLine.Reading
import OrderFlow.Proofs.Numeral
import OrderFlow.Proofs.Utf8

/-!
# Reading the values of options

What an option accepts as its value is what the grammar gives a meaning, and what it is
given is that meaning.  A level is read as a number first; a name is never taken for one,
since a number starts with a digit or a plus sign and a name, in any case, with a letter.
-/

namespace OrderFlow

/-- In a list, a member is found by a key that is its own. -/
theorem find?_key_eq_some_iff {α β : Type} [BEq β] [LawfulBEq β] {members : List α} {key : α → β}
    (hkey : Function.Injective key) (hall : ∀ x, x ∈ members) {wanted : β} {x : α} :
    (members.find? fun candidate => key candidate == wanted) = some x ↔ key x = wanted := by
  have hown : ∀ {y}, (members.find? fun candidate => key candidate == wanted) = some y →
      key y = wanted := fun hfound =>
    eq_of_beq (List.find?_some (p := fun candidate => key candidate == wanted) hfound)
  constructor
  · exact hown
  · intro hx
    have hsome : (members.find? fun candidate => key candidate == wanted).isSome :=
      List.find?_isSome.mpr ⟨x, hall x, beq_iff_eq.mpr hx⟩
    obtain ⟨y, hfound⟩ := Option.isSome_iff_exists.mp hsome
    rw [hfound, hkey ((hown hfound).trans hx.symm)]

namespace Level

theorem mem_all (level : Level) : level ∈ all := by
  cases level <;> decide

theorem detail_injective : Function.Injective detail := by
  intro level other h
  cases level <;> cases other <;> first | rfl | cases h

theorem name_injective : Function.Injective fun level : Level => level.name.toList := by
  intro level other h
  revert h
  cases level <;> cases other <;> decide

end Level

namespace CommandLine

open Grammar (Digits IsWord IsPort IsLevel Means encode)
open Numeral (unsigned_eq_ok_iff signed_eq_ok_iff)

/-! ## Numbers, ports and levels -/

theorem unsigned_maxWord_iff {text : List Char} {n : Nat} :
    Numeral.unsigned Numeral.maxWord text = .ok n ↔ IsWord text n := by
  have hfits : n ≤ Numeral.maxWord ↔ n < UInt64.size := Nat.le_sub_one_iff_lt (by decide)
  rw [unsigned_eq_ok_iff, hfits]
  constructor
  · rintro ⟨hbare | ⟨digits, rfl, hplus⟩, hn⟩
    · exact .bare hbare hn
    · exact .plus hplus hn
  · rintro (⟨hbare, hn⟩ | ⟨hplus, hn⟩)
    · exact ⟨Or.inl hbare, hn⟩
    · exact ⟨Or.inr ⟨_, rfl, hplus⟩, hn⟩

theorem readWord_eq_ok_iff {text : List Char} {n : Nat} :
    readWord text = .ok n ↔ IsWord text n := by
  rw [readWord, mapError_eq_ok_iff, unsigned_maxWord_iff]

theorem readPort_eq_ok_iff_signed {text : List Char} {n : Nat} :
    readPort text = .ok n ↔ Numeral.signed text = .ok (n : Int) ∧ n < UInt16.size := by
  have hsize : UInt16.size = 65536 := rfl
  rw [readPort]
  cases Numeral.signed text with
  | error fault => simp [Except.mapError, bind, Except.bind]
  | ok value =>
      simp only [Except.mapError, bind, Except.bind, Except.ok.injEq]
      split_ifs with hrange
      · rw [Except.ok.injEq]
        omega
      · constructor
        · exact fun h => by cases h
        · omega

theorem readPort_eq_ok_iff {text : List Char} {n : Nat} :
    readPort text = .ok n ↔ IsPort text n := by
  have hsize : UInt16.size ≤ UInt64.size / 2 - 1 := by decide
  rw [readPort_eq_ok_iff_signed, signed_eq_ok_iff]
  constructor
  · rintro ⟨⟨hbare | ⟨digits, rfl, hplus⟩, _⟩ | ⟨rfl, digits, rfl, hminus⟩, hn⟩
    · exact .bare hbare hn
    · exact .plus hplus hn
    · exact .minusZero hminus
  · rintro (⟨hbare, hn⟩ | ⟨hplus, hn⟩ | hminus)
    · exact ⟨Or.inl ⟨Or.inl hbare, by omega⟩, hn⟩
    · exact ⟨Or.inl ⟨Or.inr ⟨_, rfl, hplus⟩, by omega⟩, hn⟩
    · exact ⟨Or.inr ⟨rfl, _, rfl, hminus⟩, by decide⟩

/-- The first character of a number is the same in lower case. -/
theorem head_of_isWord {text : List Char} {n : Nat} (h : IsWord text n) :
    ∃ c rest, text = c :: rest ∧ c.toLower = c ∧ (c.isDigit ∨ c = '+') := by
  rcases h with ⟨⟨hne, hdigits, _⟩, _⟩ | ⟨_, _⟩
  · obtain ⟨c, rest, rfl⟩ := List.exists_cons_of_ne_nil hne
    have hdigit : c.isDigit := hdigits c List.mem_cons_self
    refine ⟨c, rest, rfl, ?_, Or.inl hdigit⟩
    simp only [Char.isDigit, Bool.and_eq_true, decide_eq_true_eq] at hdigit
    unfold Char.toLower
    rw [dif_neg]
    rintro ⟨hupper, _⟩
    exact absurd (UInt32.le_trans hupper hdigit.2) (by decide)
  · exact ⟨'+', _, rfl, rfl, Or.inr rfl⟩

theorem not_isWord_of_name {text : List Char} {level : Level} {n : Nat}
    (hname : text.map Char.toLower = level.name.toList) : ¬ IsWord text n := by
  intro hword
  obtain ⟨c, rest, rfl, hlower, hfirst⟩ := head_of_isWord hword
  rw [List.map_cons, hlower] at hname
  have hhead : level.name.toList.head? = some c := by
    rw [← hname]
    rfl
  cases level <;> cases hhead <;> revert hfirst <;> decide

theorem ofText?_eq_some_iff {text : List Char} {level : Level} :
    Level.ofText? text = some level ↔ IsLevel text level := by
  have hdetail := @find?_key_eq_some_iff _ _ _ _ _ _ Level.detail_injective Level.mem_all
  have hname := @find?_key_eq_some_iff _ _ _ _ _ _ Level.name_injective Level.mem_all
  rw [Level.ofText?]
  constructor
  · intro h
    cases hnumber : Numeral.unsigned Numeral.maxWord text with
    | ok n =>
        rw [hnumber] at h
        dsimp only at h
        have hn : level.detail = n := hdetail.mp h
        rw [unsigned_maxWord_iff, ← hn] at hnumber
        exact .number hnumber
    | error fault =>
        rw [hnumber] at h
        dsimp only at h
        exact .name (hname.mp h).symm
  · rintro (hword | hspelled)
    · rw [unsigned_maxWord_iff.mpr hword]
      exact hdetail.mpr rfl
    · cases hnumber : Numeral.unsigned Numeral.maxWord text with
      | ok n => exact absurd (unsigned_maxWord_iff.mp hnumber) (not_isWord_of_name hspelled)
      | error fault => exact hname.mpr hspelled.symm

theorem readLevel_eq_ok_iff {text : List Char} {level : Level} :
    readLevel text = .ok level ↔ IsLevel text level := by
  rw [← ofText?_eq_some_iff, readLevel]
  cases Level.ofText? text <;> simp

/-! ## Giving an option its value -/

namespace Choices

/-- Choices with one more value. -/
def set (choices : Choices) : (option : Opt) → option.Value → Choices
  | .host, host => { choices with host := some host }
  | .port, n => { choices with port := some n }
  | .batchSize, n => { choices with batchSize := some n }
  | .periodUs, n => { choices with periodUs := some n }
  | .workers, n => { choices with workers := some n }
  | .maxTicks, n => { choices with maxTicks := some n }
  | .seed, n => { choices with seed := some n }
  | .connectTimeoutMs, n => { choices with connectTimeoutMs := some n }
  | .logLevel, level => { choices with logLevel := some level }

@[simp]
theorem get_set_self (choices : Choices) (option : Opt) (value : option.Value) :
    (choices.set option value).get option = some value := by
  cases option <;> rfl

theorem get_set_of_ne (choices : Choices) {option other : Opt} (value : option.Value)
    (hne : other ≠ option) : (choices.set option value).get other = choices.get other := by
  cases option <;> cases other <;> first | rfl | exact absurd rfl hne

@[simp]
theorem get_empty (option : Opt) : empty.get option = none := by
  cases option <;> rfl

theorem has_eq_isSome_get (choices : Choices) (option : Opt) :
    choices.has option = (choices.get option).isSome := by
  cases option <;> rfl

/-- Choices are the values of their options. -/
theorem ext_get {choices other : Choices} (h : ∀ option, choices.get option = other.get option) :
    choices = other := by
  obtain ⟨_, _, _, _, _, _, _, _, _⟩ := choices
  obtain ⟨_, _, _, _, _, _, _, _, _⟩ := other
  rw [mk.injEq]
  exact ⟨h .host, h .port, h .batchSize, h .periodUs, h .workers, h .maxTicks, h .seed,
    h .connectTimeoutMs, h .logLevel⟩

/-- A text gives an option what it means to it. -/
theorem give_eq_ok_iff {choices result : Choices} {option : Opt} {text : List Char} :
    choices.give option text = .ok result ↔
      ∃ value, Means option text value ∧ choices.set option value = result := by
  cases option with
  | host => simp [give, Means, set]
  | port => simp only [give, map_eq_ok_iff, readPort_eq_ok_iff, Means, set]
  | logLevel => simp only [give, map_eq_ok_iff, readLevel_eq_ok_iff, Means, set]
  | _ => simp only [give, map_eq_ok_iff, readWord_eq_ok_iff, Means, set]

end Choices

/-- An option is given the meaning of its value, and only if it has none yet. -/
theorem Reading.give_eq_ok_iff {choices result : Choices} {option : Opt} {value : Bytes} :
    Reading.give choices option (some value) = .ok result ↔
      choices.get option = none ∧
        ∃ text, encode text = value ∧
          ∃ meant, Means option text meant ∧ choices.set option meant = result := by
  rw [Reading.give, Choices.has_eq_isSome_get]
  cases hget : choices.get option with
  | some old => simp
  | none =>
      simp only [Option.isSome_none, Bool.false_eq_true, if_false, true_and]
      cases hdecode : Utf8.decode? value with
      | none =>
          constructor
          · exact fun h => by cases h
          · rintro ⟨text, hencode, _⟩
            rw [Utf8.decode?_eq_some_iff.mpr hencode] at hdecode
            cases hdecode
      | some text =>
          dsimp only
          rw [mapError_eq_ok_iff, Choices.give_eq_ok_iff]
          constructor
          · exact fun h => ⟨text, Utf8.decode?_eq_some_iff.mp hdecode, h⟩
          · rintro ⟨other, hencode, h⟩
            rw [Utf8.decode?_eq_some_iff.mpr hencode] at hdecode
            cases hdecode
            exact h

end CommandLine

end OrderFlow
