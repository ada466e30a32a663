/-!
# Texts without terminal sequences

A terminal takes some stretches of a text as orders to itself: escape sequences,
control sequences and the strings sent to a device or to the terminal program.  The plain
form of a text is what is left without them and without control characters.  Blanks and
line ends stay, and one of them inside an escape or control sequence breaks it off.
-/

namespace OrderFlow.Text

/-- What a terminal is in the middle of. -/
inductive Sequence where
  /-- Nothing: characters are shown. -/
  | shown
  /-- An escape sequence that has only begun. -/
  | escape
  /-- An escape sequence that goes on. -/
  | intermediate
  /-- A control sequence. -/
  | control
  /-- The head of a device string. -/
  | deviceHead
  /-- The parameters of a device string. -/
  | deviceParameters
  /-- The last part of the head of a device string. -/
  | deviceIntermediate
  /-- A string that the terminal takes or ignores. -/
  | content
  /-- A string for the terminal program. -/
  | command
  deriving DecidableEq

namespace Sequence

/-- The blanks and line ends that are shown although they are control characters. -/
def isBreak (c : Char) : Bool :=
  c = '\t' || c = '\n' || c = '\x0c' || c = '\r'

/-- Whether a code point lies in a range. -/
def within (least greatest : Nat) (c : Char) : Bool :=
  least ≤ c.toNat && c.toNat ≤ greatest

/-- Whether a character is a control character of ASCII. -/
def isControl (c : Char) : Bool :=
  c.toNat < 0x20 || c = '\x7f'

/-- Whether a character ends a string: the byte 0x9C is part of its UTF-8 form. -/
def endsContent (c : Char) : Bool :=
  (String.utf8EncodeChar c).contains 0x9C

/-- What the character after the beginning of an escape sequence leads to. -/
def afterEscape (c : Char) : Sequence :=
  if within 0x20 0x2f c then .intermediate
  else if c = '[' then .control
  else if c = ']' then .command
  else if c = 'P' then .deviceHead
  else if c = 'X' || c = '^' || c = '_' then .content
  else if within 0x30 0x7e c then .shown
  else .escape

/-- What a character leads to, and whether it is shown. -/
def step (sequence : Sequence) (c : Char) : Sequence × Bool :=
  if c = '\x1b' then (.escape, false)
  else if c = '\x18' || c = '\x1a' then (.shown, false)
  else
    match sequence with
    | .shown => (.shown, isBreak c || !isControl c)
    | .escape => if isBreak c then (.shown, true) else (afterEscape c, false)
    | .intermediate =>
        if isBreak c then (.shown, true)
        else (if within 0x30 0x7e c then .shown else .intermediate, false)
    | .control =>
        if isBreak c then (.shown, true)
        else (if within 0x40 0x7e c then .shown else .control, false)
    | .deviceHead =>
        (if within 0x20 0x2f c then .deviceIntermediate
          else if within 0x30 0x3f c then .deviceParameters
          else if within 0x40 0x7e c then .content
          else .deviceHead, false)
    | .deviceParameters =>
        (if within 0x20 0x2f c then .deviceIntermediate
          else if within 0x3c 0x7e c then .content
          else .deviceParameters, false)
    | .deviceIntermediate =>
        (if within 0x30 0x7e c then .content else .deviceIntermediate, false)
    | .content => (if endsContent c then .shown else .content, false)
    | .command => (if c = '\x07' then .shown else .command, false)

end Sequence

/-- The characters that are shown, in the middle of a sequence. -/
def plainFrom : Sequence → List Char → List Char
  | _, [] => []
  | sequence, c :: rest =>
      let (next, isSeen) := sequence.step c
      if isSeen then c :: plainFrom next rest else plainFrom next rest

/-- The plain form of a text. -/
def plain (text : List Char) : List Char :=
  plainFrom .shown text

end OrderFlow.Text
