import OrderFlow.Log
import OrderFlow.Text.Marks
import OrderFlow.Text.Unprintable

/-!
# Texts in double quotes

In a quoted text every character can be seen.  The quote and the backslash stand
behind a backslash, a few controls have a letter, and whatever has no visible
shape of its own is given by its code point.
-/

namespace OrderFlow.Text

/-- Whether a character is seen as what it is. -/
def isShown (c : Char) : Bool :=
  !(unprintable.covers c.toNat || marks.covers c.toNat || fillers.covers c.toNat)

/-- A character by its code point. -/
def byCodePoint (c : Char) : List Char :=
  '\\' :: 'u' :: '\x7b' :: (Record.hex c.toNat ++ ['\x7d'])

/-- A character inside double quotes. -/
def quoteChar (c : Char) : List Char :=
  if c = '"' ∨ c = '\\' then ['\\', c]
  else if c = '\n' then ['\\', 'n']
  else if c = '\r' then ['\\', 'r']
  else if c = '\t' then ['\\', 't']
  else if c = '\x00' then ['\\', '0']
  else if isShown c then [c]
  else byCodePoint c

/-- A text in double quotes. -/
def quote (text : String) : String :=
  "\"" ++ String.ofList (text.toList.flatMap quoteChar) ++ "\""

end OrderFlow.Text
