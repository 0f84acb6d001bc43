/-! # Text that a terminal only shows

Some characters are orders to a terminal: controls, and the sequences and strings that the escape
character opens.  `plain` takes them out of a text and leaves what is shown. -/

namespace EgressControl.Text.Terminal

/-- White space that moves the place of writing. -/
def isMove (c : Char) : Bool := c = '\t' || c = '\n' || c = '\x0c' || c = '\r'

/-- Whether a character outside of every sequence is left: every one but the ASCII controls
that do not move the place of writing. -/
def isVisible (c : Char) : Bool := isMove c || (' ' ≤ c && c ≠ '\x7f')

/-- What the escape character has opened and nothing has closed yet. -/
inductive State where
  /-- Nothing is open. -/
  | ground
  /-- The escape character itself has been read. -/
  | escape
  /-- A sequence of the escape character, intermediate characters and a final one. -/
  | escapeSequence
  /-- A control sequence, which runs to its final character. -/
  | controlSequence
  /-- The head of a device control string, before any character of it. -/
  | deviceHead
  /-- The head of a device control string, with parameters. -/
  | deviceParameters
  /-- The head of a device control string, with intermediate characters. -/
  | deviceIntermediates
  /-- A string that runs to the string terminator. -/
  | controlString
  /-- A command to the operating system, which runs to the bell. -/
  | systemCommand
  deriving DecidableEq, Repr

/-- What is open behind the escape character and one that is not intermediate. -/
def State.opened (c : Char) : State :=
  if c = '[' then .controlSequence
  else if c = ']' then .systemCommand
  else if c = 'P' then .deviceHead
  else if c = 'X' || c = '^' || c = '_' then .controlString
  else .ground

/-- Whether the string terminator, the byte `0x9c`, stands in the encoding of a character. -/
def holdsTerminator (c : Char) : Bool := (String.utf8EncodeChar c).contains 0x9c

/-- What is open behind a character.  A new escape character opens anew and the two cancelling
controls close, wherever they stand.  Intermediate characters are those from the space to the
slash, parameters those from `0` to `?`, final ones those from `@` to the tilde; what has no place
in a sequence leaves it open. -/
def State.next (s : State) (c : Char) : State :=
  if c = '\x1b' then .escape
  else if c = '\x18' || c = '\x1a' then .ground
  else match s with
  | .ground => .ground
  | .escape =>
    if ' ' ≤ c && c ≤ '/' then .escapeSequence
    else if '0' ≤ c && c ≤ '~' then .opened c
    else .escape
  | .escapeSequence => if '0' ≤ c && c ≤ '~' then .ground else .escapeSequence
  | .controlSequence => if '@' ≤ c && c ≤ '~' then .ground else .controlSequence
  | .deviceHead =>
    if ' ' ≤ c && c ≤ '/' then .deviceIntermediates
    else if '0' ≤ c && c ≤ '?' then .deviceParameters
    else if '@' ≤ c && c ≤ '~' then .controlString
    else .deviceHead
  | .deviceParameters =>
    if ' ' ≤ c && c ≤ '/' then .deviceIntermediates
    -- A private marker behind a parameter spoils the head, and the string is passed over.
    else if '<' ≤ c && c ≤ '~' then .controlString
    else .deviceParameters
  | .deviceIntermediates => if '0' ≤ c && c ≤ '~' then .controlString else .deviceIntermediates
  | .controlString => if holdsTerminator c then .ground else .controlString
  | .systemCommand => if c = '\x07' then .ground else .systemCommand

/-- Whether a character is left.  White space that moves the place of writing is carried out
inside of a sequence too, but not inside of a string. -/
def State.shows (s : State) (c : Char) : Bool :=
  match s with
  | .ground => isVisible c
  | .escape | .escapeSequence | .controlSequence => isMove c
  | .deviceHead | .deviceParameters | .deviceIntermediates => false
  | .controlString | .systemCommand => false

/-- Where the reading of a text stands. -/
structure Reader where
  /-- What is open. -/
  state : State := .ground
  /-- Whether the last character that was read is left. -/
  showing : Bool := false

/-- Reads a character, and says whether it is left.  Visible characters that follow one that is
left are left too, also when that one was white space in an open sequence.  A character beyond
ASCII closes the sequence then; otherwise the next invisible character finds it open. -/
def Reader.step (r : Reader) (c : Char) : Bool × Reader :=
  if r.showing && isVisible c then
    (true, { r with state := if c ≤ '\x7f' then r.state else .ground })
  else
    (r.state.shows c, ⟨r.state.next c, r.state.shows c⟩)

/-- What is left of a text behind what has been read. -/
def Reader.plain (r : Reader) : List Char → List Char
  | [] => []
  | c :: cs =>
    let (left, r) := r.step c
    if left then c :: r.plain cs else r.plain cs

/-- What is left of a text. -/
def plain (cs : List Char) : List Char := Reader.plain {} cs

end EgressControl.Text.Terminal
