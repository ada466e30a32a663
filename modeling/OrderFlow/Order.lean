/-!
# Orders and their wire form

An order is a side, a quantity and a price.  On the wire it is one line,
`<side>,<quantity>,<price>` ended by carriage return and line feed.  The text is
a list of ASCII characters, so that a character is a byte and a line can be cut
anywhere.
-/

namespace OrderFlow

/-- The side of the market an order stands on. -/
inductive Side where
  | buy
  | sell
  deriving DecidableEq

namespace Side

/-- The letter a side is written with. -/
def code : Side → Char
  | .buy => 'B'
  | .sell => 'S'

/-- The side a letter stands for. -/
def ofCode? (c : Char) : Option Side :=
  if c = 'B' then some .buy else if c = 'S' then some .sell else none

theorem ofCode?_code (side : Side) : ofCode? side.code = some side := by
  cases side <;> rfl

theorem code_of_ofCode? {c : Char} {side : Side} (h : ofCode? c = some side) :
    side.code = c := by
  unfold ofCode? at h
  split at h
  · cases h; exact Eq.symm ‹c = 'B'›
  · split at h
    · cases h; exact Eq.symm ‹c = 'S'›
    · cases h

end Side

/-- An order for a quantity at a price, on one side of the market. -/
structure Order where
  side : Side
  quantity : Nat
  price : Nat
  deriving DecidableEq

namespace Order

/-- The decimal digits of a number, the leading one first. -/
def digits (n : Nat) : List Char :=
  Nat.toDigits 10 n

/-- The fields of an order, separated by commas. -/
def fields (order : Order) : List Char :=
  order.side.code :: ',' :: (digits order.quantity ++ ',' :: digits order.price)

/-- What ends a line on the wire. -/
def terminator : List Char :=
  ['\r', '\n']

/-- The line an order is sent as. -/
def line (order : Order) : List Char :=
  order.fields ++ terminator

/-- The text of a list of orders, one line after the other. -/
def lines (orders : List Order) : List Char :=
  orders.flatMap line

theorem length_line (order : Order) :
    order.line.length = 5 + (digits order.quantity).length + (digits order.price).length := by
  simp [line, fields, terminator]
  omega

theorem line_ne_nil (order : Order) : order.line ≠ [] := by
  simp [line, fields]

@[simp] theorem lines_nil : lines [] = [] := rfl

@[simp] theorem lines_cons (order : Order) (orders : List Order) :
    lines (order :: orders) = order.line ++ lines orders := by
  simp [lines]

@[simp] theorem lines_append (xs ys : List Order) :
    lines (xs ++ ys) = lines xs ++ lines ys := by
  simp [lines]

end Order

end OrderFlow
