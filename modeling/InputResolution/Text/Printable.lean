import InputResolution.Text.Pieces

namespace InputResolution.Text

/-! Text as a terminal shows it.  Escape sequences and control characters steer
the terminal and leave nothing to be seen.  Of the control characters only those
remain that are blank space. -/

/-- Where a reader stands that looks for escape sequences. -/
inductive EscapePlace where
  | outside
  | opened
  | intermediate
  /-- In a control sequence, up to a character from `@` to `~`. -/
  | control
  /-- In a command to the operating system, up to a bell. -/
  | command
  | deviceControl
  | controlString
  deriving DecidableEq, Repr

def between (first last c : Char) : Bool :=
  first ≤ c && c ≤ last

def isBlankControl (c : Char) : Bool :=
  c == '\t' || c == '\n' || c == '\x0c' || c == '\r'

def isPrintable (c : Char) : Bool :=
  between ' ' '~' c || isBlankControl c || 0x80 ≤ c.toNat

namespace EscapePlace

def afterOpening (c : Char) : EscapePlace :=
  if c == '[' then .control
  else if c == ']' then .command
  else if c == 'P' then .deviceControl
  else if c == 'X' || c == '^' || c == '_' then .controlString
  else if between ' ' '/' c then .intermediate
  else if between '0' '~' c then .outside
  else .opened

/-- The byte that ends a control string may stand inside the encoding of a
character. -/
def endsControlString (c : Char) : Bool :=
  (String.utf8EncodeChar c).contains 0x9C

def within (place : EscapePlace) (c : Char) : EscapePlace :=
  match place with
  | .outside => .outside
  | .opened => afterOpening c
  | .intermediate => if between '0' '~' c then .outside else .intermediate
  | .control => if between '@' '~' c then .outside else .control
  | .command => if c == '\x07' then .outside else .command
  | .deviceControl =>
      if between '@' '~' c then .controlString else .deviceControl
  | .controlString => if endsControlString c then .outside else .controlString

/-- Blank space breaks off a sequence that has no content of its own. -/
def endsAtBlank : EscapePlace → Bool
  | .opened => true
  | .intermediate => true
  | .control => true
  | _ => false

def step (place : EscapePlace) (c : Char) : EscapePlace × Bool :=
  if c == '\x1b' then (.opened, false)
  else if c == '\x18' || c == '\x1a' then (.outside, false)
  else if place == .outside then (.outside, isPrintable c)
  else if place.endsAtBlank && isBlankControl c then (.outside, true)
  else (place.within c, false)

end EscapePlace

def printableFrom (place : EscapePlace) : Text → Text
  | [] => []
  | c :: rest =>
      let (next, isShown) := place.step c
      if isShown then c :: printableFrom next rest else printableFrom next rest

/-- A sequence that the text does not finish is left out as well. -/
def printable (text : Text) : Text :=
  printableFrom .outside text

end InputResolution.Text
