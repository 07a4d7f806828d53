import TextEmbed.Utf8

/-!
# Control sequences

Text that goes to a terminal may hold control sequences, which set colours or move the cursor.
`plain` removes them, and every control character that isn't white space, so that a message shows
the same everywhere.

White space shows also inside a control sequence, though not inside a control string. In a text it
ends the sequence. In a stream it only interrupts the sequence, which goes on at the next character
that wouldn't show outside of all sequences.

The program doesn't do this by itself. The library for command lines (clap) and the streams that it
prints to clear their messages, and `plain` is written after what they leave.
-/

namespace TextEmbed.Text

/-- What is cleared of control sequences. -/
inductive Medium where
  /-- A text as a value. -/
  | text
  /-- A text on its way to a stream. -/
  | stream
  deriving DecidableEq, Repr

/-- Where a text stands with respect to control sequences. -/
inductive ControlState where
  /-- Outside of control sequences. -/
  | ground
  /-- Behind an escape character. -/
  | escape
  /-- Behind an escape character and intermediate characters. -/
  | intermediate
  /-- In a control sequence, which a letter or a similar character ends. -/
  | sequence
  /-- At the start of a device control string. -/
  | deviceEntry
  /-- In the parameters of a device control string. -/
  | deviceParameters
  /-- Behind intermediate characters of a device control string. -/
  | deviceIntermediate
  /-- In a control string, which an escape character ends, or the byte that does as well. -/
  | string
  /-- In a command to the operating system, which an escape character or a bell ends. -/
  | command
  deriving DecidableEq, Repr

namespace ControlState

/-- White space among the control characters; the vertical tab is none. -/
def isSpacing (c : Char) : Bool :=
  c == '\t' || c == '\n' || c == '\x0c' || c == '\r'

/-- Whether white space shows in a state. -/
def passesSpacing : ControlState → Bool
  | ground | escape | intermediate | sequence => true
  | deviceEntry | deviceParameters | deviceIntermediate | string | command => false

/-- Whether the character `c` shows in a state. -/
def shows (state : ControlState) (c : Char) : Bool :=
  if c < ' ' then state.passesSpacing && isSpacing c
  else state == ground && c != '\x7f'

/-- The byte that ends a control string. -/
def stringTerminator : UInt8 := 0x9C

/-- Whether the encoding of a character holds the byte that ends a control string. -/
def holdsTerminator (c : Char) : Bool :=
  (Utf8.encode [c]).contains stringTerminator

/-- The state behind a character that doesn't show. -/
def next (state : ControlState) (c : Char) : ControlState :=
  if '\x7f' < c then
    if state = string ∧ holdsTerminator c then ground else state
  else if c == '\x18' || c == '\x1a' then ground
  else if c == '\x1b' then escape
  else
    match state with
    | ground => ground
    | escape =>
      if c == '[' then sequence
      else if c == ']' then command
      else if c == 'P' then deviceEntry
      else if c == 'X' || c == '^' || c == '_' then string
      else if c < ' ' || c == '\x7f' then escape
      else if c ≤ '/' then intermediate
      else ground
    | intermediate => if '0' ≤ c && c ≤ '~' then ground else intermediate
    | sequence => if '@' ≤ c && c ≤ '~' then ground else sequence
    | deviceEntry =>
      if c < ' ' || c == '\x7f' then deviceEntry
      else if c ≤ '/' then deviceIntermediate
      else if c ≤ '?' then deviceParameters
      else string
    | deviceParameters =>
      if c < ' ' || c == '\x7f' then deviceParameters
      else if c ≤ '/' then deviceIntermediate
      else if c ≤ ';' then deviceParameters
      else string
    | deviceIntermediate => if '0' ≤ c && c ≤ '~' then string else deviceIntermediate
    | string => string
    | command => if c == '\x07' then ground else command

/-- The state that is left for later behind a character that shows. In a stream, a character beyond
ASCII ends the sequence that white space has interrupted. -/
def behindShown (medium : Medium) (state : ControlState) (c : Char) : ControlState :=
  match medium with
  | .text => ground
  | .stream => if '\x7f' < c then ground else state

/-- The characters that show, from a state on. In a row of characters that show (`inRow`), the next
one shows if it does in the ground state; one that doesn't is read in the state left before. -/
def visible (medium : Medium) (state : ControlState) (inRow : Bool) : List Char → List Char
  | [] => []
  | c :: rest =>
    if shows (if inRow then ground else state) c then
      c :: visible medium (state.behindShown medium c) true rest
    else visible medium (state.next c) false rest

end ControlState

/-- A text without control sequences and control characters other than white space. -/
def plain (medium : Medium) (text : List Char) : List Char :=
  ControlState.visible medium .ground false text

/-- A colour, and a bell behind it, don't show. -/
example : plain .text "\x1b[31mred\x1b[0m\x07!".toList = "red!".toList := by decide

/-- A tab inside a control sequence ends it in a text. In a stream the sequence goes on at the
delete character and takes the letter behind. -/
example : plain .text "\x1b[\t\x7fbc".toList = "\tbc".toList ∧
    plain .stream "\x1b[\t\x7fbc".toList = "\tc".toList := by decide

end TextEmbed.Text
