import Mathlib.Data.List.TakeWhile
import OrderFlow.Order.Decoder
import OrderFlow.Proofs.Generator.Values
import OrderFlow.Proofs.Order.Lines

/-!
# Reading orders back, also from a cut text

A whole line at the front of a text is read as the order it was made of, whatever follows,
and what is left of a line when its end is missing is read as no order at all.  So the text
of some orders is read as these orders, and if it is cut anywhere, as those whose lines are
whole.  That no line begins with another follows from this alone.
-/

namespace OrderFlow.Order

/-! ## Fields -/

theorem expect?_self (c : Char) (rest : List Char) : expect? c (c :: rest) = some rest :=
  if_pos rfl

theorem readSide?_code (side : Side) (rest : List Char) :
    readSide? (side.code :: rest) = some (side, rest) := by
  rw [readSide?, Side.ofCode?_code, Option.map_some]

theorem isDigit_of_mem_digits {n : Nat} {c : Char} (h : c ∈ digits n) : c.isDigit = true :=
  Nat.isDigit_of_mem_toDigits (by decide) (by decide) h

/-- A number is read up to the first character that is no digit. -/
theorem readNumber?_digits (n : Nat) {stop : Char} (hstop : stop.isDigit = false)
    (rest : List Char) : readNumber? (digits n ++ stop :: rest) = some (n, stop :: rest) := by
  have hdigits : ∀ c ∈ digits n, c.isDigit = true := fun _ => isDigit_of_mem_digits
  have hrun : (digits n ++ stop :: rest).takeWhile Char.isDigit = digits n := by
    rw [List.takeWhile_append_of_pos hdigits, List.takeWhile_cons_of_neg (by simp [hstop]),
      List.append_nil]
  have hleft : (digits n ++ stop :: rest).dropWhile Char.isDigit = stop :: rest := by
    rw [List.dropWhile_append_of_pos hdigits, List.dropWhile_cons_of_neg (by simp [hstop])]
  have hvalue : Nat.ofDigitChars 10 (digits n) 0 = n :=
    Nat.ofDigitChars_toDigits (by decide) (by decide)
  rw [readNumber?, hrun, hleft, hvalue]
  exact if_pos rfl

/-! ## One line -/

theorem readLine?_line_append (order : Order) (rest : List Char) :
    readLine? (order.line ++ rest) = some (order, rest) := by
  have hline : order.line ++ rest =
      order.side.code :: ',' :: (digits order.quantity ++
        ',' :: (digits order.price ++ '\r' :: '\n' :: rest)) := by
    simp [line, fields, terminator]
  rw [hline]
  have hcomma : ','.isDigit = false := rfl
  have hreturn : '\r'.isDigit = false := rfl
  simp only [readLine?, readSide?_code, expect?_self, readNumber?_digits _ hcomma,
    readNumber?_digits _ hreturn, Option.bind_eq_bind, Option.bind_some, Option.pure_def]

/-- A line is read exactly if it stands at the front. -/
theorem readLine?_eq_some_iff {text rest : List Char} {order : Order} :
    readLine? text = some (order, rest) ↔ text = order.line ++ rest := by
  constructor
  · exact eq_line_append_of_readLine?
  · rintro rfl
    exact readLine?_line_append order rest

theorem newline_mem_line (order : Order) : '\n' ∈ order.line := by
  simp [line, terminator]

/-- A line of which something is missing is read as no order. -/
theorem readLine?_of_cut {order : Order} {taken rest : List Char}
    (hline : order.line = taken ++ rest) (hrest : rest ≠ []) : readLine? taken = none := by
  rw [Option.eq_none_iff_forall_ne_some]
  rintro ⟨other, left⟩ hread
  have hnewline : '\n' ∈ taken := by
    rw [readLine?_eq_some_iff.mp hread]
    exact List.mem_append_left _ (newline_mem_line other)
  exact newline_not_mem_of_cut hline hrest hnewline

/-- Two orders are the same if the line of one begins with that of the other. -/
theorem eq_of_line_prefix {order other : Order} (h : order.line <+: other.line) :
    order = other := by
  obtain ⟨rest, hrest⟩ := h
  have hread := readLine?_line_append order rest
  have hother := readLine?_line_append other []
  rw [List.append_nil, ← hrest, hread] at hother
  exact (Prod.mk.inj (Option.some.inj hother)).1

theorem line_injective : Function.Injective line := fun order _ h =>
  eq_of_line_prefix (h ▸ List.prefix_refl order.line)

/-! ## Many lines -/

theorem decode_of_readLine?_eq_none {text : List Char} (h : readLine? text = none) :
    decode text = ([], text) := by
  rw [decode]
  split
  · rfl
  · rename_i hread
    rw [h] at hread
    cases hread

theorem decode_line_append (order : Order) (rest : List Char) :
    decode (order.line ++ rest) = (order :: (decode rest).1, (decode rest).2) := by
  rw [decode]
  split
  · rename_i hread
    rw [readLine?_line_append] at hread
    cases hread
  · rename_i hread
    rw [readLine?_line_append] at hread
    cases hread
    rfl

/-- Orders are read back one by one, and then what follows them is read. -/
theorem decode_lines_append (orders : List Order) (rest : List Char) :
    decode (lines orders ++ rest) = (orders ++ (decode rest).1, (decode rest).2) := by
  induction orders with
  | nil => rfl
  | cons order orders ih =>
      rw [lines_cons, List.append_assoc, decode_line_append, ih]
      rfl

theorem decode_lines (orders : List Order) : decode (lines orders) = (orders, []) := by
  have hnothing : decode [] = ([], []) := decode_of_readLine?_eq_none rfl
  have happend := decode_lines_append orders []
  rwa [hnothing, List.append_nil, List.append_nil] at happend

/-- A text that is not whole is cut in the line of one of its orders. -/
theorem exists_cut {orders : List Order} {text rest : List Char}
    (h : lines orders = text ++ rest) (hrest : rest ≠ []) :
    ∃ before order after taken missing, orders = before ++ order :: after ∧
      text = lines before ++ taken ∧ order.line = taken ++ missing ∧ missing ≠ [] := by
  induction orders generalizing text with
  | nil => exact absurd (List.append_eq_nil_iff.mp h.symm).2 hrest
  | cons order orders ih =>
      rw [lines_cons] at h
      have hfirst : order.line <+: text ++ rest := h ▸ List.prefix_append _ _
      have htext : text <+: text ++ rest := List.prefix_append _ _
      rcases Nat.lt_or_ge text.length order.line.length with hshort | hlong
      · -- The first line is cut already.
        obtain ⟨missing, hline⟩ := List.prefix_of_prefix_length_le htext hfirst hshort.le
        refine ⟨[], order, orders, text, missing, rfl, rfl, hline.symm, ?_⟩
        rintro rfl
        rw [← hline, List.append_nil] at hshort
        exact absurd hshort (Nat.lt_irrefl _)
      · obtain ⟨more, rfl⟩ := List.prefix_of_prefix_length_le hfirst htext hlong
        rw [List.append_assoc] at h
        obtain ⟨before, next, after, taken, missing, rfl, rfl, hnext⟩ :=
          ih (List.append_cancel_left h)
        exact ⟨order :: before, next, after, taken, missing, rfl, by simp, hnext⟩

/-! ## Lines as bytes -/

/-- Every character of a line is one byte. -/
theorem toNat_lt_of_mem_line {order : Order} {c : Char} (h : c ∈ order.line) : c.toNat < 128 := by
  have hdigit : ∀ {n}, c ∈ digits n → c.toNat < 128 := by
    intro n hmem
    have hc := isDigit_of_mem_digits hmem
    rw [Char.isDigit, Bool.and_eq_true, decide_eq_true_eq, decide_eq_true_eq] at hc
    have hmost : c.toNat ≤ 57 := hc.2
    omega
  simp only [line, fields, terminator, List.mem_append, List.mem_cons, List.not_mem_nil,
    or_false] at h
  rcases h with (rfl | rfl | hquantity | rfl | hprice) | rfl | rfl
  · cases order.side <;> decide
  · decide
  · exact hdigit hquantity
  · decide
  · exact hdigit hprice
  · decide
  · decide

theorem utf8ByteSize_of_ascii {text : List Char} (h : ∀ c ∈ text, c.toNat < 128) :
    (String.ofList text).utf8ByteSize = text.length := by
  induction text with
  | nil => rfl
  | cons c text ih =>
      obtain ⟨hc, htext⟩ := List.forall_mem_cons.mp h
      have hbyte : c.utf8Size = 1 := Char.utf8Size_eq_one_iff.mpr (Nat.le_of_lt_succ hc)
      rw [String.ofList_cons, String.utf8ByteSize_append, String.utf8ByteSize_singleton, hbyte,
        ih htext, List.length_cons, Nat.add_comm]

/-- A line takes as many bytes as it has characters. -/
theorem utf8ByteSize_line (order : Order) : (String.ofList order.line).utf8ByteSize =
    5 + (digits order.quantity).length + (digits order.price).length := by
  rw [utf8ByteSize_of_ascii fun _ => toNat_lt_of_mem_line, length_line]

/-- A text is a line with a known letter for its side and digits from one to four for its
quantity and its price. -/
def IsGeneratedLine (text : List Char) : Prop :=
  ∃ side ∈ ['B', 'S'], ∃ quantity ∈ ['1', '2', '3', '4'], ∃ price ∈ ['1', '2', '3', '4'],
    text = [side, ',', quantity, ',', price, '\r', '\n']

theorem exists_digits_eq {n : Nat} (hleast : minValue ≤ n) (hmost : n ≤ maxValue) :
    ∃ c ∈ ['1', '2', '3', '4'], digits n = [c] := by
  have hcases : n = 1 ∨ n = 2 ∨ n = 3 ∨ n = 4 := by
    unfold minValue at hleast
    unfold maxValue at hmost
    omega
  rcases hcases with rfl | rfl | rfl | rfl
  · exact ⟨'1', by decide, rfl⟩
  · exact ⟨'2', by decide, rfl⟩
  · exact ⟨'3', by decide, rfl⟩
  · exact ⟨'4', by decide, rfl⟩

theorem isGeneratedLine_next (generator : Generator) :
    IsGeneratedLine generator.next.1.line := by
  obtain ⟨hleast, hmost, hleast', hmost'⟩ := generator.next_mem
  obtain ⟨quantity, hquantity, hdigits⟩ := exists_digits_eq hleast hmost
  obtain ⟨price, hprice, hdigits'⟩ := exists_digits_eq hleast' hmost'
  have hside : generator.next.1.side.code ∈ ['B', 'S'] := by
    cases generator.next.1.side <;> decide
  refine ⟨_, hside, quantity, hquantity, price, hprice, ?_⟩
  simp [line, fields, terminator, hdigits, hdigits']

/-! ## The stream of lines -/

/-- The text of any orders is read back as these orders.  If it is cut, those are read whose
lines are whole, and the part of the next line that is left is read as none.  So a line tells
its order and no line begins with another.  A line is of bytes of seven bits, five of them
besides the digits of its numbers, and a generated one has seven bytes. -/
theorem decode_whole_and_cut :
    (∀ orders, decode (lines orders) = (orders, [])) ∧
    (∀ orders text rest, lines orders = text ++ rest → rest ≠ [] →
      ∃ before order after taken missing,
        orders = before ++ order :: after ∧ text = lines before ++ taken ∧
        order.line = taken ++ missing ∧ missing ≠ [] ∧
        decode text = (before, taken) ∧ readLine? taken = none) ∧
    (Function.Injective line ∧
      ∀ order other : Order, order.line <+: other.line → order = other) ∧
    (∀ order : Order, (∀ c ∈ order.line, c.toNat < 128) ∧
      (String.ofList order.line).utf8ByteSize =
        5 + (digits order.quantity).length + (digits order.price).length) ∧
    ∀ generator : Generator, IsGeneratedLine generator.next.1.line ∧
      (String.ofList generator.next.1.line).utf8ByteSize = 7 := by
  refine ⟨decode_lines, fun orders text rest htext hrest => ?_,
    ⟨line_injective, fun _ _ => eq_of_line_prefix⟩,
    fun order => ⟨fun _ => toNat_lt_of_mem_line, utf8ByteSize_line order⟩,
    fun generator => ⟨isGeneratedLine_next generator, ?_⟩⟩
  · obtain ⟨before, order, after, taken, missing, horders, rfl, hline, hmissing⟩ :=
      exists_cut htext hrest
    have hnone := readLine?_of_cut hline hmissing
    refine ⟨before, order, after, taken, missing, horders, rfl, hline, hmissing, ?_, hnone⟩
    rw [decode_lines_append, decode_of_readLine?_eq_none hnone, List.append_nil]
  · rw [utf8ByteSize_of_ascii fun _ => toNat_lt_of_mem_line, generator.length_line_next,
      Generator.lineWidth]

theorem decode_cut_in_price :
    lines [⟨.buy, 3, 2⟩, ⟨.sell, 70, 12⟩] =
        ("B,3,2\r\nS,70,1".toList ++ "2\r\n".toList) ∧
      decode "B,3,2\r\nS,70,1".toList = ([⟨.buy, 3, 2⟩], "S,70,1".toList) ∧
      readLine? "S,70,1".toList = none := by
  have htext : lines [⟨.buy, 3, 2⟩, ⟨.sell, 70, 12⟩] =
      "B,3,2\r\nS,70,1".toList ++ "2\r\n".toList := by decide
  obtain ⟨before, order, after, taken, missing, horders, hcut, hline, hmissing, hdecode, hnone⟩ :=
    decode_whole_and_cut.2.1 _ _ _ htext (by decide)
  -- The cut lies in the second line: it is behind the first and before the end of the second.
  rcases before with - | ⟨first, - | ⟨second, others⟩⟩
  · obtain ⟨rfl, -⟩ := List.cons.inj horders
    obtain rfl : _ = taken := hcut
    have hlength := congrArg List.length hline
    have hfirst : (line ⟨.buy, 3, 2⟩).length = 7 := by decide
    have htext : "B,3,2\r\nS,70,1".toList.length = 13 := by decide
    rw [hfirst, List.length_append, htext] at hlength
    omega
  · obtain ⟨rfl, -⟩ := List.cons.inj horders
    have hlast : lines [⟨.buy, 3, 2⟩] ++ "S,70,1".toList = lines [⟨.buy, 3, 2⟩] ++ taken := hcut
    obtain rfl := List.append_cancel_left hlast
    exact ⟨htext, hdecode, hnone⟩
  · simp at horders

end OrderFlow.Order
