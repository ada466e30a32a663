import Mathlib.Tactic.SplitIfs
import OrderFlow.CommandLine.Grammar

/-!
# Reading numbers

A number is read from the left, and its value tested after every digit.  As the value
never gets less, the tests before the last one rule nothing out: what is read is a
numeral whose value fits.
-/

namespace OrderFlow

open CommandLine.Grammar (Digits)

/-! ## Results -/

theorem map_eq_ok_iff {ε α β : Type} {f : α → β} {result : Except ε α} {y : β} :
    result.map f = .ok y ↔ ∃ x, result = .ok x ∧ f x = y := by
  cases result <;> simp [Except.map]

theorem mapError_eq_ok_iff {ε ε' α : Type} {f : ε → ε'} {result : Except ε α} {x : α} :
    result.mapError f = .ok x ↔ result = .ok x := by
  cases result <;> simp [Except.mapError]

theorem bind_eq_ok_iff {ε α β : Type} {result : Except ε α} {f : α → Except ε β} {y : β} :
    result >>= f = .ok y ↔ ∃ x, result = .ok x ∧ f x = .ok y := by
  cases result <;> simp [bind, Except.bind]

/-! ## Numbers -/

namespace Numeral

theorem le_ofDigitChars (text : List Char) (value : Nat) :
    value ≤ Nat.ofDigitChars 10 text value := by
  induction text generalizing value with
  | nil => exact Nat.le_refl _
  | cons c rest ih =>
      rw [Nat.ofDigitChars_cons]
      exact Nat.le_trans (by omega) (ih _)

theorem readDigits_eq_ok_iff {limit value n : Nat} {overflow : Fault} {text : List Char}
    (hvalue : value ≤ limit) :
    readDigits limit overflow value text = .ok n ↔
      (∀ c ∈ text, c.isDigit) ∧ Nat.ofDigitChars 10 text value = n ∧ n ≤ limit := by
  induction text generalizing value with
  | nil =>
      simp only [readDigits, Except.ok.injEq, Nat.ofDigitChars_nil]
      constructor
      · rintro rfl
        exact ⟨by simp, rfl, hvalue⟩
      · exact fun h => h.2.1
  | cons c rest ih =>
      rw [readDigits, Nat.ofDigitChars_cons]
      dsimp only
      by_cases hdigit : c.isDigit = true
      · rw [if_pos hdigit]
        by_cases hfits : 10 * value + (c.toNat - '0'.toNat) ≤ limit
        · rw [if_pos hfits, ih hfits]
          simp [hdigit]
        · rw [if_neg hfits]
          constructor
          · exact fun h => by cases h
          · rintro ⟨_, rfl, hle⟩
            -- What does not fit now never will.
            exact absurd (Nat.le_trans (le_ofDigitChars rest _) hle) hfits
      · rw [if_neg hdigit]
        constructor
        · exact fun h => by cases h
        · rintro ⟨hdigits, _⟩
          exact absurd (hdigits c List.mem_cons_self) hdigit

theorem readDigits_zero_iff {limit n : Nat} {overflow : Fault} {text : List Char}
    (htext : text ≠ []) :
    readDigits limit overflow 0 text = .ok n ↔ Digits text n ∧ n ≤ limit := by
  rw [readDigits_eq_ok_iff (Nat.zero_le _), Digits]
  simp [htext, and_assoc]

theorem not_digits_cons {c : Char} {rest : List Char} {n : Nat} (hc : c.isDigit = false) :
    ¬ Digits (c :: rest) n := by
  rintro ⟨_, hdigits, _⟩
  simp [hc] at hdigits

theorem unsigned_eq_ok_iff {limit n : Nat} {text : List Char} :
    unsigned limit text = .ok n ↔
      (Digits text n ∨ ∃ digits, text = '+' :: digits ∧ Digits digits n) ∧ n ≤ limit := by
  have hplus : ∀ {digits : List Char} {n : Nat}, ¬ Digits ('+' :: digits) n :=
    not_digits_cons rfl
  unfold unsigned
  split
  · simp [Digits]
  · simp [Digits]
  · rename_i digits hdigits
    have hne : digits ≠ [] := by
      rintro rfl
      exact hdigits rfl
    rw [readDigits_zero_iff hne]
    simp [hplus]
  · rename_i hnil _ hbare
    have hnot : ∀ digits, text ≠ '+' :: digits := hbare
    rw [readDigits_zero_iff hnil]
    simp [hnot]

theorem map_readDigits_iff {limit n : Nat} {overflow : Fault} {text : List Char}
    (htext : text ≠ []) :
    (readDigits limit overflow 0 text).map Int.ofNat = .ok (n : Int) ↔
      Digits text n ∧ n ≤ limit := by
  rw [map_eq_ok_iff, ← readDigits_zero_iff htext]
  constructor
  · rintro ⟨value, hread, hvalue⟩
    rwa [Int.ofNat.inj hvalue] at hread
  · exact fun hread => ⟨n, hread, rfl⟩

/-- Of the numbers with a minus sign only zero is not negative. -/
theorem map_neg_readDigits_iff {limit n : Nat} {overflow : Fault} {text : List Char}
    (htext : text ≠ []) :
    ((readDigits limit overflow 0 text).map fun value => -Int.ofNat value) = .ok (n : Int) ↔
      n = 0 ∧ Digits text 0 := by
  rw [map_eq_ok_iff]
  constructor
  · rintro ⟨value, hread, hvalue⟩
    have hzero : value = 0 ∧ n = 0 := by
      simp only [Int.ofNat_eq_natCast] at hvalue
      omega
    rw [hzero.1, readDigits_zero_iff htext] at hread
    exact ⟨hzero.2, hread.1⟩
  · rintro ⟨rfl, hdigits⟩
    exact ⟨0, (readDigits_zero_iff htext).mpr ⟨hdigits, Nat.zero_le _⟩, rfl⟩

/-- The numbers read with a sign that are not negative. -/
theorem signed_eq_ok_iff {n : Nat} {text : List Char} :
    signed text = .ok (n : Int) ↔
      (Digits text n ∨ ∃ digits, text = '+' :: digits ∧ Digits digits n) ∧
          n ≤ UInt64.size / 2 - 1 ∨
        n = 0 ∧ ∃ digits, text = '-' :: digits ∧ Digits digits 0 := by
  have hsign : ∀ {c : Char} {digits : List Char} {n : Nat}, c.isDigit = false →
      ¬ Digits (c :: digits) n := not_digits_cons
  unfold signed
  split
  · simp [Digits]
  · simp [Digits]
  · simp [Digits]
  · rename_i digits hdigits
    rw [map_readDigits_iff fun hnil => hdigits (by rw [hnil])]
    simp [hsign]
  · rename_i digits hdigits
    rw [map_neg_readDigits_iff fun hnil => hdigits (by rw [hnil])]
    simp [hsign]
  · rename_i hnil _ _ hplus hminus
    have hnot : ∀ digits, text ≠ '+' :: digits := hplus
    have hnot' : ∀ digits, text ≠ '-' :: digits := hminus
    rw [map_readDigits_iff hnil]
    simp [hnot, hnot']

end Numeral

end OrderFlow
