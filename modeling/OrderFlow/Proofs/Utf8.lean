import Mathlib.Tactic.SplitIfs
import OrderFlow.CommandLine.Grammar

/-!
# Reading UTF-8

Reading bytes one by one finds exactly the texts of which they are the UTF-8 form.  A
first byte says which bytes may follow it, and the narrowed ranges of the second byte
leave just the values that a character can have and that need as many bytes.
-/

namespace OrderFlow.Utf8

open CommandLine.Grammar (encode)

/-! ## Bytes of one character -/

/-- The UTF-8 form of a character by its value. -/
def encodeValue (n : Nat) : Bytes :=
  if n ≤ 0x7F then [UInt8.ofNat n]
  else if n ≤ 0x7FF then [UInt8.ofNat (n / 64 % 32 + 0xC0), UInt8.ofNat (n % 64 + 0x80)]
  else if n ≤ 0xFFFF then
    [UInt8.ofNat (n / 4096 % 16 + 0xE0), UInt8.ofNat (n / 64 % 64 + 0x80),
      UInt8.ofNat (n % 64 + 0x80)]
  else
    [UInt8.ofNat (n / 262144 % 8 + 0xF0), UInt8.ofNat (n / 4096 % 64 + 0x80),
      UInt8.ofNat (n / 64 % 64 + 0x80), UInt8.ofNat (n % 64 + 0x80)]

theorem encode_cons (c : Char) (text : List Char) :
    encode (c :: text) = encodeValue c.toNat ++ encode text := rfl

theorem toNat_ofNat {n : Nat} (h : n.isValidChar) : (Char.ofNat n).toNat = n := by
  unfold Char.ofNat
  rw [dif_pos h]
  rfl

theorem ofNat_eq {n : Nat} {b : UInt8} (h : n = b.toNat) : UInt8.ofNat n = b := by
  rw [h, UInt8.ofNat_toNat]

/-- The value of a byte that goes on with a character. -/
def IsTail (b : UInt8) : Prop := 0x80 ≤ b.toNat ∧ b.toNat ≤ 0xBF

section Values

variable {b c d e : UInt8} {v : Nat}

theorem encodeValue_one (hb : b.toNat < 0x80) : encodeValue b.toNat = [b] := by
  rw [encodeValue, if_pos (by omega), ofNat_eq rfl]

theorem encodeValue_two (hb : b.toNat = v + 0xC0) (hmin : 2 ≤ v) (hmax : v < 32)
    (hc : IsTail c) : encodeValue (v * 64 + c.toNat % 64) = [b, c] := by
  obtain ⟨hc, hc'⟩ := hc
  rw [encodeValue, if_neg (by omega), if_pos (by omega), ofNat_eq (b := b) (by omega),
    ofNat_eq (b := c) (by omega)]

theorem encodeValue_three (hb : b.toNat = v + 0xE0) (hmax : v < 16) (hc : IsTail c)
    (hd : IsTail d) (hmin : v = 0 → 0xA0 ≤ c.toNat) :
    encodeValue ((v * 64 + c.toNat % 64) * 64 + d.toNat % 64) = [b, c, d] := by
  obtain ⟨hc, hc'⟩ := hc
  obtain ⟨hd, hd'⟩ := hd
  rw [encodeValue, if_neg (by omega), if_neg (by omega), if_pos (by omega),
    ofNat_eq (b := b) (by omega), ofNat_eq (b := c) (by omega), ofNat_eq (b := d) (by omega)]

theorem encodeValue_four (hb : b.toNat = v + 0xF0) (hmax : v < 5) (hc : IsTail c)
    (hd : IsTail d) (he : IsTail e) (hmin : v = 0 → 0x90 ≤ c.toNat) :
    encodeValue (((v * 64 + c.toNat % 64) * 64 + d.toNat % 64) * 64 + e.toNat % 64) =
      [b, c, d, e] := by
  obtain ⟨hc, hc'⟩ := hc
  obtain ⟨hd, hd'⟩ := hd
  obtain ⟨he, he'⟩ := he
  rw [encodeValue, if_neg (by omega), if_neg (by omega), if_neg (by omega),
    ofNat_eq (b := b) (by omega), ofNat_eq (b := c) (by omega), ofNat_eq (b := d) (by omega),
    ofNat_eq (b := e) (by omega)]

end Values

/-! ## First bytes -/

/-- A character of two bytes, begun. -/
def startTwo (v : Nat) : Partial := ⟨0, 0x80, 0xBF, v⟩

/-- A character of three bytes, begun; it is not overlong and no surrogate. -/
def startThree (v : Nat) : Partial :=
  ⟨1, if v = 0 then 0xA0 else 0x80, if v = 13 then 0x9F else 0xBF, v⟩

/-- A character of four bytes, begun; it is not overlong and not too large. -/
def startFour (v : Nat) : Partial :=
  ⟨2, if v = 0 then 0x90 else 0x80, if v = 4 then 0x8F else 0xBF, v⟩

theorem inRange_iff {b : UInt8} : (0x80 ≤ b ∧ b ≤ 0xBF) ↔ IsTail b := by
  simp [IsTail, UInt8.le_iff_toNat_le]

theorem inRange_three_iff {b : UInt8} {v : Nat} :
    ((if v = 0 then 0xA0 else 0x80) ≤ b ∧ b ≤ if v = 13 then 0x9F else 0xBF) ↔
      IsTail b ∧ (v = 0 → 0xA0 ≤ b.toNat) ∧ (v = 13 → b.toNat ≤ 0x9F) := by
  simp only [IsTail, UInt8.le_iff_toNat_le]
  split_ifs <;> simp <;> omega

theorem inRange_four_iff {b : UInt8} {v : Nat} :
    ((if v = 0 then 0x90 else 0x80) ≤ b ∧ b ≤ if v = 4 then 0x8F else 0xBF) ↔
      IsTail b ∧ (v = 0 → 0x90 ≤ b.toNat) ∧ (v = 4 → b.toNat ≤ 0x8F) := by
  simp only [IsTail, UInt8.le_iff_toNat_le]
  split_ifs <;> simp <;> omega

theorem lead_two {b : UInt8} {v : Nat} (hb : b.toNat = v + 0xC0) (hmin : 2 ≤ v)
    (hmax : v < 32) : lead b = .opens (startTwo v) := by
  unfold lead startTwo
  dsimp only
  rw [if_neg (by omega), if_neg (by omega), if_pos (by omega), hb, Nat.add_sub_cancel]

theorem lead_three {b : UInt8} {v : Nat} (hb : b.toNat = v + 0xE0) (hmax : v < 16) :
    lead b = .opens (startThree v) := by
  unfold lead startThree
  dsimp only
  rw [if_neg (by omega), if_neg (by omega), if_neg (by omega)]
  by_cases hzero : v = 0
  · rw [if_pos (by omega), hzero]
    rfl
  · rw [if_neg (by omega)]
    by_cases hsurrogate : v = 13
    · rw [if_pos (by omega), hsurrogate]
      rfl
    · rw [if_neg (by omega), if_pos (by omega), if_neg hzero, if_neg hsurrogate, hb,
        Nat.add_sub_cancel]

theorem lead_four {b : UInt8} {v : Nat} (hb : b.toNat = v + 0xF0) (hmax : v < 5) :
    lead b = .opens (startFour v) := by
  unfold lead startFour
  dsimp only
  rw [if_neg (by omega), if_neg (by omega), if_neg (by omega), if_neg (by omega),
    if_neg (by omega), if_neg (by omega)]
  by_cases hzero : v = 0
  · rw [if_pos (by omega), hzero]
    rfl
  · rw [if_neg (by omega)]
    by_cases hlast : v = 4
    · rw [if_neg (by omega), if_pos (by omega), hlast]
      rfl
    · rw [if_pos (by omega), if_neg hzero, if_neg hlast, hb, Nat.add_sub_cancel]

theorem lead_cases {b : UInt8} {start : Partial} (h : lead b = .opens start) :
    (∃ v, b.toNat = v + 0xC0 ∧ 2 ≤ v ∧ v < 32 ∧ start = startTwo v) ∨
    (∃ v, b.toNat = v + 0xE0 ∧ v < 16 ∧ start = startThree v) ∨
    (∃ v, b.toNat = v + 0xF0 ∧ v < 5 ∧ start = startFour v) := by
  have hlead := h
  unfold lead at h
  dsimp only at h
  by_cases htwo : b.toNat < 0xE0
  · by_cases hless : b.toNat < 0xC2
    · split_ifs at h
    · have hb : b.toNat = (b.toNat - 0xC0) + 0xC0 := by omega
      rw [lead_two hb (by omega) (by omega)] at hlead
      cases hlead
      exact Or.inl ⟨_, hb, by omega, by omega, rfl⟩
  · by_cases hthree : b.toNat < 0xF0
    · have hb : b.toNat = (b.toNat - 0xE0) + 0xE0 := by omega
      rw [lead_three hb (by omega)] at hlead
      cases hlead
      exact Or.inr (Or.inl ⟨_, hb, by omega, rfl⟩)
    · by_cases hfour : b.toNat < 0xF5
      · have hb : b.toNat = (b.toNat - 0xF0) + 0xF0 := by omega
        rw [lead_four hb (by omega)] at hlead
        cases hlead
        exact Or.inr (Or.inr ⟨_, hb, by omega, rfl⟩)
      · split_ifs at h <;> omega

/-! ## Characters begun and completed -/

/-- The bytes that complete a character already begun, and its value. -/
inductive Completes : Partial → Bytes → Nat → Prop
  | last {b least greatest : UInt8} {value : Nat} (inRange : least ≤ b ∧ b ≤ greatest) :
      Completes ⟨0, least, greatest, value⟩ [b] (value * 64 + b.toNat % 64)
  | more {b least greatest : UInt8} {rest : Bytes} {count value n : Nat}
      (inRange : least ≤ b ∧ b ≤ greatest)
      (completes : Completes ⟨count, 0x80, 0xBF, value * 64 + b.toNat % 64⟩ rest n) :
      Completes ⟨count + 1, least, greatest, value⟩ (b :: rest) n

/-- What a first byte opens and other bytes complete is a character in its UTF-8 form. -/
theorem encode_of_completes {b : UInt8} {start : Partial} {tail : Bytes} {n : Nat}
    (hlead : lead b = .opens start) (h : Completes start tail n) :
    n.isValidChar ∧ encodeValue n = b :: tail := by
  rcases lead_cases hlead with ⟨v, hb, hmin, hmax, rfl⟩ | ⟨v, hb, hmax, rfl⟩ | ⟨v, hb, hmax, rfl⟩
  · cases h with
    | last hc =>
      exact ⟨Or.inl (by omega), encodeValue_two hb hmin hmax (inRange_iff.mp hc)⟩
  · cases h with
    | more hc hrest =>
      cases hrest with
      | last hd =>
        obtain ⟨hc, hmin, hsurrogate⟩ := inRange_three_iff.mp hc
        have hd := inRange_iff.mp hd
        refine ⟨?_, encodeValue_three hb hmax hc hd hmin⟩
        obtain ⟨hc, hc'⟩ := hc
        show _ ∨ _
        omega
  · cases h with
    | more hc hrest =>
      cases hrest with
      | more hd hrest =>
        cases hrest with
        | last he =>
          obtain ⟨hc, hmin, hlast⟩ := inRange_four_iff.mp hc
          have hd := inRange_iff.mp hd
          have he := inRange_iff.mp he
          refine ⟨Or.inr ?_, encodeValue_four hb hmax hc hd he hmin⟩
          obtain ⟨hc, hc'⟩ := hc
          omega

theorem exists_byte {n : Nat} (h : n < 256) : ∃ b : UInt8, b.toNat = n :=
  ⟨UInt8.ofNat n, UInt8.toNat_ofNat_of_lt' h⟩

theorem exists_tail (n : Nat) : ∃ b : UInt8, IsTail b ∧ b.toNat % 64 = n % 64 := by
  obtain ⟨b, hb⟩ := exists_byte (n := n % 64 + 0x80) (by omega)
  exact ⟨b, ⟨by omega, by omega⟩, by omega⟩

/-- The UTF-8 form of a character of several bytes is a first byte and bytes that complete
it. -/
theorem completes_encodeValue {n : Nat} (hvalid : n.isValidChar) (hn : 0x80 ≤ n) :
    ∃ b start tail, encodeValue n = b :: tail ∧ lead b = .opens start ∧
      Completes start tail n := by
  replace hvalid : n < 0xD800 ∨ 0xDFFF < n ∧ n < 0x110000 := hvalid
  -- The value decides how many bytes there are; each after the first holds six bits of it.
  rcases Nat.lt_or_ge n 0x800 with hless | htwo
  · obtain ⟨b, hb⟩ := exists_byte (n := n / 64 + 0xC0) (by omega)
    obtain ⟨c, hc, hcmod⟩ := exists_tail n
    have hvalue : n / 64 * 64 + c.toNat % 64 = n := by omega
    have hencode := encodeValue_two hb (by omega) (by omega) hc
    have hcompletes : Completes (startTwo (n / 64)) [c] (n / 64 * 64 + c.toNat % 64) :=
      .last (inRange_iff.mpr hc)
    rw [hvalue] at hencode hcompletes
    exact ⟨b, _, _, hencode, lead_two hb (by omega) (by omega), hcompletes⟩
  rcases Nat.lt_or_ge n 0x10000 with hless | hthree
  · obtain ⟨b, hb⟩ := exists_byte (n := n / 4096 + 0xE0) (by omega)
    obtain ⟨c, hc, hcmod⟩ := exists_tail (n / 64)
    obtain ⟨d, hd, hdmod⟩ := exists_tail n
    have hcrange := hc
    obtain ⟨hleast, hgreatest⟩ := hcrange
    have hvalue : (n / 4096 * 64 + c.toNat % 64) * 64 + d.toNat % 64 = n := by omega
    have hencode := encodeValue_three hb (by omega) hc hd (by omega)
    have hcompletes : Completes (startThree (n / 4096)) [c, d]
        ((n / 4096 * 64 + c.toNat % 64) * 64 + d.toNat % 64) :=
      .more (inRange_three_iff.mpr ⟨hc, by omega, by omega⟩) (.last (inRange_iff.mpr hd))
    rw [hvalue] at hencode hcompletes
    exact ⟨b, _, _, hencode, lead_three hb (by omega), hcompletes⟩
  · obtain ⟨b, hb⟩ := exists_byte (n := n / 262144 + 0xF0) (by omega)
    obtain ⟨c, hc, hcmod⟩ := exists_tail (n / 4096)
    obtain ⟨d, hd, hdmod⟩ := exists_tail (n / 64)
    obtain ⟨e, he, hemod⟩ := exists_tail n
    have hcrange := hc
    obtain ⟨hleast, hgreatest⟩ := hcrange
    have hvalue : ((n / 262144 * 64 + c.toNat % 64) * 64 + d.toNat % 64) * 64 + e.toNat % 64 =
        n := by omega
    have hencode := encodeValue_four hb (by omega) hc hd he (by omega)
    have hcompletes : Completes (startFour (n / 262144)) [c, d, e]
        (((n / 262144 * 64 + c.toNat % 64) * 64 + d.toNat % 64) * 64 + e.toNat % 64) :=
      .more (inRange_four_iff.mpr ⟨hc, by omega, by omega⟩)
        (.more (inRange_iff.mpr hd) (.last (inRange_iff.mpr he)))
    rw [hvalue] at hencode hcompletes
    exact ⟨b, _, _, hencode, lead_four hb (by omega), hcompletes⟩

theorem lead_one {b : UInt8} (hb : b.toNat < 0x80) : lead b = .whole (Char.ofNat b.toNat) := by
  unfold lead
  rw [if_pos hb]

theorem lead_whole {b : UInt8} {c : Char} (h : lead b = .whole c) :
    b.toNat < 0x80 ∧ c = Char.ofNat b.toNat := by
  unfold lead at h
  dsimp only at h
  split_ifs at h with hb
  cases h
  exact ⟨hb, rfl⟩

/-! ## Reading -/

theorem scanFrom_completes {start : Partial} {tail : Bytes} {n : Nat}
    (h : Completes start tail n) (rest : Bytes) :
    scanFrom (some start) (tail ++ rest) = some (Char.ofNat n) :: scanFrom none rest := by
  induction h with
  | last inRange => simp [scanFrom, inRange]
  | more inRange _ ih =>
      rw [List.cons_append, scanFrom, if_pos inRange]
      exact ih

theorem scanFrom_begun_ne_nil (start : Partial) (bytes : Bytes) :
    scanFrom (some start) bytes ≠ [] := by
  induction bytes generalizing start with
  | nil => simp [scanFrom]
  | cons b bytes ih =>
      rw [scanFrom]
      split_ifs
      · split
        · simp
        · exact ih _
      · split <;> simp

/-- What follows a character already begun completes it, if it is read as a character. -/
theorem completes_of_scanFrom_cons {start : Partial} {bytes : Bytes} {c : Char}
    {others : List (Option Char)} (h : scanFrom (some start) bytes = some c :: others) :
    ∃ tail rest n, bytes = tail ++ rest ∧ Completes start tail n ∧ c = Char.ofNat n ∧
      scanFrom none rest = others := by
  induction bytes generalizing start with
  | nil => simp [scanFrom] at h
  | cons b bytes ih =>
      rw [scanFrom] at h
      split_ifs at h with hrange
      · obtain ⟨more, least, greatest, value⟩ := start
        cases more with
        | zero =>
            obtain ⟨hc, hothers⟩ := List.cons.inj h
            exact ⟨[b], bytes, _, rfl, .last hrange, (Option.some.inj hc).symm, hothers⟩
        | succ more =>
            obtain ⟨tail, rest, n, rfl, hcompletes, hc, hrest⟩ := ih h
            exact ⟨b :: tail, rest, n, rfl, .more hrange hcompletes, hc, hrest⟩
      · split at h <;> cases h

theorem scanFrom_none_cons (b : UInt8) (rest : Bytes) :
    scanFrom none (b :: rest) =
      match lead b with
      | .whole c => some c :: scanFrom none rest
      | .opens start => scanFrom (some start) rest
      | .invalid => none :: scanFrom none rest := by
  cases hlead : lead b <;> simp only [scanFrom, hlead]

/-- A character is read from its UTF-8 form, whatever follows. -/
theorem scan_encodeValue_append (c : Char) (rest : Bytes) :
    scan (encodeValue c.toNat ++ rest) = some c :: scan rest := by
  rw [scan]
  rcases Nat.lt_or_ge c.toNat 0x80 with hless | hmore
  · obtain ⟨b, hb⟩ := exists_byte (n := c.toNat) (by omega)
    rw [← hb, encodeValue_one (by omega), List.singleton_append, scanFrom_none_cons,
      lead_one (by omega), hb, Char.ofNat_toNat]
    rfl
  · have hvalid : c.toNat.isValidChar := c.valid
    obtain ⟨b, start, tail, hvalue, hlead, hcompletes⟩ := completes_encodeValue hvalid hmore
    rw [hvalue, List.cons_append, scanFrom_none_cons, hlead]
    dsimp only
    rw [scanFrom_completes hcompletes, Char.ofNat_toNat]
    rfl

/-- Bytes that are read as a character first begin with its UTF-8 form. -/
theorem eq_append_of_scan_cons {bytes : Bytes} {c : Char} {others : List (Option Char)}
    (h : scan bytes = some c :: others) :
    ∃ rest, bytes = encodeValue c.toNat ++ rest ∧ scan rest = others := by
  cases bytes with
  | nil => cases h
  | cons b bytes =>
      rw [scan, scanFrom_none_cons] at h
      split at h
      · rename_i d hlead
        obtain ⟨hd, hothers⟩ := List.cons.inj h
        obtain ⟨hb, rfl⟩ := lead_whole hlead
        cases hd
        refine ⟨bytes, ?_, hothers⟩
        rw [toNat_ofNat (Or.inl (by omega)), encodeValue_one hb, List.singleton_append]
      · rename_i start hlead
        obtain ⟨tail, rest, n, rfl, hcompletes, rfl, hrest⟩ := completes_of_scanFrom_cons h
        obtain ⟨hvalid, hencode⟩ := encode_of_completes hlead hcompletes
        exact ⟨rest, by rw [toNat_ofNat hvalid, hencode, List.cons_append], hrest⟩
      · cases h

theorem scan_encode (text : List Char) : scan (encode text) = text.map some := by
  induction text with
  | nil => rfl
  | cons c text ih => rw [encode_cons, scan_encodeValue_append, ih, List.map_cons]

theorem scan_ne_nil (b : UInt8) (rest : Bytes) : scan (b :: rest) ≠ [] := by
  rw [scan, scanFrom_none_cons]
  split
  · simp
  · exact scanFrom_begun_ne_nil _ _
  · simp

theorem encode_of_scan {bytes : Bytes} {text : List Char} (h : scan bytes = text.map some) :
    encode text = bytes := by
  induction text generalizing bytes with
  | nil =>
      cases bytes with
      | nil => rfl
      | cons b rest => exact absurd h (scan_ne_nil b rest)
  | cons c others ih =>
      obtain ⟨rest, rfl, hrest⟩ := eq_append_of_scan_cons h
      rw [encode_cons, ih hrest]

theorem mapM_id_eq_some_iff {xs : List (Option Char)} {text : List Char} :
    xs.mapM id = some text ↔ xs = text.map some := by
  induction xs generalizing text with
  | nil => cases text <;> simp
  | cons x xs ih =>
      cases text with
      | nil => simp [Option.bind_eq_some_iff]
      | cons c text => simp [Option.bind_eq_some_iff, ih]

/-- Bytes are read as a text exactly if they are its UTF-8 form. -/
theorem decode?_eq_some_iff {bytes : Bytes} {text : List Char} :
    decode? bytes = some text ↔ encode text = bytes := by
  rw [decode?, mapM_id_eq_some_iff]
  constructor
  · exact encode_of_scan
  · rintro rfl
    exact scan_encode text

end OrderFlow.Utf8
