import OrderFlow.Order

/-!
# Reading orders back from the wire

`readLine?` takes one whole line off the front of a text, and `decode` as many
as there are; what is left is the undecoded remainder.  Reading is exact:
`readLine?` accepts a text just if it starts with the line of an order.
-/

namespace OrderFlow.Order

/-- Takes a given character off the front. -/
def expect? (c : Char) : List Char → Option (List Char)
  | [] => none
  | d :: rest => if d = c then some rest else none

theorem eq_cons_of_expect? {c : Char} {text rest : List Char}
    (h : expect? c text = some rest) : text = c :: rest := by
  cases text with
  | nil => cases h
  | cons d tail =>
      simp only [expect?] at h
      split at h
      · rename_i hd
        cases h
        rw [hd]
      · cases h

/-- Takes a side's letter off the front. -/
def readSide? : List Char → Option (Side × List Char)
  | [] => none
  | c :: rest => (Side.ofCode? c).map (·, rest)

theorem eq_cons_of_readSide? {text rest : List Char} {side : Side}
    (h : readSide? text = some (side, rest)) : text = side.code :: rest := by
  cases text with
  | nil => cases h
  | cons c tail =>
      obtain ⟨found, hfound, hpair⟩ := Option.map_eq_some_iff.1 h
      cases hpair
      rw [Side.code_of_ofCode? hfound]

/-- Takes a number in its shortest decimal form off the front. -/
def readNumber? (text : List Char) : Option (Nat × List Char) :=
  let run := text.takeWhile Char.isDigit
  let value := Nat.ofDigitChars 10 run 0
  if digits value = run then some (value, text.dropWhile Char.isDigit) else none

theorem eq_append_of_readNumber? {text rest : List Char} {value : Nat}
    (h : readNumber? text = some (value, rest)) : text = digits value ++ rest := by
  simp only [readNumber?] at h
  split at h
  · rename_i hrun
    cases h
    rw [hrun, List.takeWhile_append_dropWhile]
  · cases h

/-- Takes one whole line off the front; `none` unless a whole line is there. -/
def readLine? (text : List Char) : Option (Order × List Char) := do
  let (side, text) ← readSide? text
  let text ← expect? ',' text
  let (quantity, text) ← readNumber? text
  let text ← expect? ',' text
  let (price, text) ← readNumber? text
  let text ← expect? '\r' text
  let text ← expect? '\n' text
  return (⟨side, quantity, price⟩, text)

/-- A line that was read stood at the front of the text. -/
theorem eq_line_append_of_readLine? {text rest : List Char} {order : Order}
    (h : readLine? text = some (order, rest)) : text = order.line ++ rest := by
  simp only [readLine?, Option.bind_eq_bind, Option.bind_eq_some_iff, Prod.exists,
    Option.pure_def, Option.some.injEq, Prod.mk.injEq] at h
  obtain ⟨side, t₁, h₁, t₂, h₂, quantity, t₃, h₃, t₄, h₄, price, t₅, h₅, t₆, h₆, t₇, h₇,
    horder, hrest⟩ := h
  subst horder hrest
  rw [eq_cons_of_readSide? h₁, eq_cons_of_expect? h₂, eq_append_of_readNumber? h₃,
    eq_cons_of_expect? h₄, eq_append_of_readNumber? h₅, eq_cons_of_expect? h₆,
    eq_cons_of_expect? h₇]
  simp [line, fields, terminator]

theorem length_lt_of_readLine? {text rest : List Char} {order : Order}
    (h : readLine? text = some (order, rest)) : rest.length < text.length := by
  rw [eq_line_append_of_readLine? h, List.length_append]
  have := List.length_pos_iff.2 order.line_ne_nil
  omega

/-- All orders whose whole line stands at the front, and the text left after them. -/
def decode (text : List Char) : List Order × List Char :=
  match h : readLine? text with
  | none => ([], text)
  | some (order, rest) =>
      have := length_lt_of_readLine? h
      let (orders, remainder) := decode rest
      (order :: orders, remainder)
  termination_by text.length

end OrderFlow.Order
