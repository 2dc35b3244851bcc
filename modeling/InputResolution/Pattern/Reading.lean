import InputResolution.Pattern.Bracket

namespace InputResolution.Pattern

/-! Which texts are patterns that can be used.  Counted repetitions are not
among them, because their braces have a meaning of their own where patterns are
given. -/

structure Part where
  height : Nat
  isRepeatable : Bool
  deriving DecidableEq, Repr

structure Group where
  flags : Flags
  alternatives : List Nat
  parts : List Part
  deriving DecidableEq, Repr

namespace Group

def start (flags : Flags) : Group := ⟨flags, [], []⟩

def add (group : Group) (height : Nat) : Group :=
  { group with parts := ⟨height, true⟩ :: group.parts }

/-- A change of flags takes a place in the row, but nothing can be repeated
there. -/
def addFlags (group : Group) (flags : Flags) : Group :=
  { group with flags, parts := ⟨0, false⟩ :: group.parts }

def repeatLast? (group : Group) : Option Group :=
  match group.parts with
  | ⟨height, true⟩ :: parts =>
      some { group with parts := ⟨height + 1, true⟩ :: parts }
  | _ => none

def closeAlternative (group : Group) : Group :=
  { group with
    alternatives :=
  rowHeight (group.parts.map Part.height) :: group.alternatives
    parts := [] }

def height (group : Group) : Nat :=
  rowHeight group.closeAlternative.alternatives

end Group

/-! Openings of groups, read from the character after the parenthesis. -/

inductive Opening where
  | group (flags : Flags)
  | namedGroup (name : Text)
  /-- No group, but a change of flags up to the end of the one around it. -/
  | change (flags : Flags)
  deriving DecidableEq, Repr

def continuesName (c : Char) : Bool :=
  c == '_' || c == '.' || c == '[' || c == ']' || Text.isAlphanumeric c

def isName : Text → Bool
  | [] => false
  | c :: rest => (c == '_' || Text.isAlphabetic c) && rest.all continuesName

def namedOpening? (text : Text) : Option (Opening × Text) :=
  match Text.cut? '>' text with
  | none => none
  | some (name, rest) =>
      if isName name then some (.namedGroup name, rest) else none

def endsFlags (c : Char) : Bool :=
  c == ':' || c == ')'

def flaggedOpening? (flags : Flags) (text : Text) :
    Option (Opening × Text) := do
  let letters := text.takeWhile (! endsFlags ·)
  let changed ← flags.change? letters
  match text.dropWhile (! endsFlags ·) with
  | ':' :: rest => some (.group changed, rest)
  | ')' :: rest =>
      if letters.isEmpty then none else some (.change changed, rest)
  | _ => none

def opening? (flags : Flags) (text : Text) : Option (Opening × Text) :=
  match flags.skipBlank text with
  | '?' :: 'P' :: '<' :: rest => namedOpening? rest
  | '?' :: '<' :: rest => namedOpening? rest
  | '?' :: rest => flaggedOpening? flags rest
  | rest => some (.group flags, rest)

/-! Patterns. -/

structure Reader where
  group : Group
  outer : List Group
  names : List Text
  deriving DecidableEq, Repr

namespace Reader

def start : Reader := ⟨.start .start, [], []⟩

def openGroup (reader : Reader) (flags : Flags) : Reader :=
  { reader with group := .start flags, outer := reader.group :: reader.outer }

/-- No two groups have one name. -/
def take? (reader : Reader) : Opening → Option Reader
  | .group flags => some (reader.openGroup flags)
  | .namedGroup name =>
      if reader.names.contains name then none
      else some { reader.openGroup reader.group.flags with
        names := name :: reader.names }
  | .change flags => some { reader with group := reader.group.addFlags flags }

def closeGroup? (reader : Reader) : Option Reader :=
  match reader.outer with
  | [] => none
  | enclosing :: outer =>
      some { reader with
        group := enclosing.add (reader.group.height + 1), outer }

def addAtom? (reader : Reader) (atom : Atom) : Option Reader :=
  if atom.isUsable reader.group.flags then
    some { reader with group := reader.group.add 0 }
  else none

def isFinished (reader : Reader) : Bool :=
  reader.outer.isEmpty && reader.group.height ≤ heightLimit

end Reader

def isRepetition (c : Char) : Bool :=
  c == '*' || c == '+' || c == '?'

/-- A question mark right after a repetition belongs to it. -/
def afterRepetition : Text → Text
  | '?' :: rest => rest
  | rest => rest

def part? (reader : Reader) (c : Char) (rest : Text) : Option (Reader × Text) :=
  let flags := reader.group.flags
  if isRepetition c then
    reader.group.repeatLast?.map fun group =>
      ({ reader with group }, afterRepetition rest)
  else
    match c with
    | '(' => do
        let (opening, rest) ← opening? flags rest
        let reader ← reader.take? opening
        some (reader, rest)
    | ')' => reader.closeGroup?.map (·, rest)
    | '|' => some ({ reader with group := reader.group.closeAlternative }, rest)
    | '[' => (bracket? flags rest).map fun (height, rest) =>
        ({ reader with group := reader.group.add height }, rest)
    | '\x7b' => none
    | '\\' => do
        let (atom, rest) ← escape? flags rest
        let reader ← reader.addAtom? atom
        some (reader, rest)
    | '.' => (reader.addAtom? .anyCharacter).map (·, rest)
    | '^' => (reader.addAtom? .edge).map (·, rest)
    | '$' => (reader.addAtom? .edge).map (·, rest)
    | c => (reader.addAtom? (.character c)).map (·, rest)

def readWithin? : (characters : Nat) → Reader → Text → Option Reader
  | 0, _, _ => none
  | characters + 1, reader, text =>
      match reader.group.flags.skipBlank text with
      | [] => some reader
      | c :: rest => do
          let (reader, rest) ← part? reader c rest
          readWithin? characters reader rest

def isUsable (text : Text) : Bool :=
  (readWithin? (text.length + 1) .start text).any Reader.isFinished

end InputResolution.Pattern
