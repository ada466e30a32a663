import OrderFlow.Order

/-!
# Cutting a text into lines

`Order.splitLines` cuts a text behind every line feed.  A line on the wire has one
line feed, at its end, so the lines of some orders are found again in their text.
-/

namespace OrderFlow.Order

/-- The lines of a text, each with the line feed that ends it.  What stands after the last line
feed is a line too, unless it is empty. -/
def splitLines : List Char → List (List Char)
  | [] => []
  | c :: rest =>
      if c = '\n' then ['\n'] :: splitLines rest
      else
        match splitLines rest with
        | [] => [[c]]
        | line :: others => (c :: line) :: others

theorem splitLines_append_newline {front : List Char} (h : '\n' ∉ front) (rest : List Char) :
    splitLines (front ++ '\n' :: rest) = (front ++ ['\n']) :: splitLines rest := by
  induction front with
  | nil => simp [splitLines]
  | cons c front ih =>
      rw [List.mem_cons, not_or] at h
      simp [splitLines, ih h.2, Ne.symm h.1]

theorem newline_not_mem_digits (n : Nat) : '\n' ∉ digits n := by
  intro hmem
  have hdigit := Nat.isDigit_of_mem_toDigits (by decide) (by decide) hmem
  exact absurd hdigit (by decide)

theorem newline_not_mem_fields (order : Order) : '\n' ∉ order.fields := by
  have hside : '\n' ≠ order.side.code := by
    cases order.side <;> decide
  simp [fields, hside, newline_not_mem_digits]

theorem splitLines_line_append (order : Order) (rest : List Char) :
    splitLines (order.line ++ rest) = order.line :: splitLines rest := by
  have hfront : '\n' ∉ order.fields ++ ['\r'] := by
    simp [newline_not_mem_fields]
  have hsplit := splitLines_append_newline hfront rest
  simpa [line, terminator] using hsplit

theorem splitLines_lines_append (orders : List Order) (rest : List Char) :
    splitLines (lines orders ++ rest) = orders.map line ++ splitLines rest := by
  induction orders with
  | nil => rfl
  | cons order orders ih =>
      rw [lines_cons, List.append_assoc, splitLines_line_append, ih, List.map_cons,
        List.cons_append]

/-- The lines of some orders are found again in their text. -/
theorem splitLines_lines (orders : List Order) : splitLines (lines orders) = orders.map line := by
  have happend := splitLines_lines_append orders []
  rwa [List.append_nil, splitLines, List.append_nil] at happend

/-! ## Complete lines -/

/-- How many lines of a text are complete: a complete line ends as lines do on the wire. -/
def completeLines (text : List Char) : Nat :=
  (splitLines text).countP fun line => terminator.isSuffixOf line

theorem splitLines_of_newline_not_mem {text : List Char} (h : '\n' ∉ text) :
    splitLines text = if text = [] then [] else [text] := by
  induction text with
  | nil => rfl
  | cons c rest ih =>
      rw [List.mem_cons, not_or] at h
      rw [splitLines, if_neg (Ne.symm h.1), ih h.2]
      by_cases hrest : rest = []
      · simp [hrest]
      · simp [hrest]

theorem completeLines_of_newline_not_mem {text : List Char} (h : '\n' ∉ text) :
    completeLines text = 0 := by
  have hsuffix : ¬ terminator <:+ text := fun hsuffix =>
    h (hsuffix.subset (by simp [terminator]))
  rw [completeLines, splitLines_of_newline_not_mem h]
  split
  · rfl
  · simpa using hsuffix

/-- Every line that was sent is complete, whatever follows it. -/
theorem completeLines_lines_append (orders : List Order) (rest : List Char) :
    completeLines (lines orders ++ rest) = orders.length + completeLines rest := by
  have hlines : (orders.map line).countP (fun line => terminator.isSuffixOf line) =
      orders.length := by
    rw [List.countP_map, List.countP_eq_length]
    intro order _
    simp [line]
  rw [completeLines, splitLines_lines_append, List.countP_append, hlines, completeLines]

theorem completeLines_lines (orders : List Order) :
    completeLines (lines orders) = orders.length := by
  have happend := completeLines_lines_append orders []
  rwa [List.append_nil] at happend

/-- A line of which something is missing has no line feed. -/
theorem newline_not_mem_of_cut {order : Order} {taken rest : List Char}
    (hline : order.line = taken ++ rest) (hrest : rest ≠ []) : '\n' ∉ taken := by
  have hsplit : (order.fields ++ ['\r']) ++ ['\n'] = taken ++ rest := by
    rw [← hline]
    simp [line, terminator]
  rcases List.eq_nil_or_concat rest with rfl | ⟨middle, last, rfl⟩
  · exact absurd rfl hrest
  · rw [List.concat_eq_append, ← List.append_assoc] at hsplit
    have hfront := List.append_inj_left' hsplit rfl
    intro hmem
    have hall : '\n' ∈ order.fields ++ ['\r'] := by
      rw [hfront]
      exact List.mem_append_left _ hmem
    simp [newline_not_mem_fields] at hall

/-- A text cut in a line has the lines before it complete, and no other. -/
theorem completeLines_cut {order : Order} {taken rest : List Char} (before : List Order)
    (hline : order.line = taken ++ rest) (hrest : rest ≠ []) :
    completeLines (lines before ++ taken) = before.length := by
  rw [completeLines_lines_append,
    completeLines_of_newline_not_mem (newline_not_mem_of_cut hline hrest), Nat.add_zero]

end OrderFlow.Order
