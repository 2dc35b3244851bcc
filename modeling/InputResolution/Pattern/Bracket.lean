import InputResolution.Pattern.Atom
import InputResolution.Pattern.Height

namespace InputResolution.Pattern

/-! Classes of characters in brackets: characters, ranges, sets with a name and
further brackets, with operators between them. -/

structure Bracket where
  members : List Nat
  left : Option Nat
  /-- Nothing but minus signs has been read. -/
  isFresh : Bool
  deriving DecidableEq, Repr

namespace Bracket

def start : Bracket := ⟨[], none, true⟩

def add (bracket : Bracket) (height : Nat) : Bracket :=
  { bracket with members := height :: bracket.members, isFresh := false }

def contentHeight (bracket : Bracket) : Nat :=
  match bracket.left with
  | none => rowHeight bracket.members
  | some left => max left (rowHeight bracket.members) + 1

def height (bracket : Bracket) : Nat :=
  bracket.contentHeight + 1

def addOperator (bracket : Bracket) : Bracket :=
  ⟨[], some bracket.contentHeight, false⟩

/-- A bracket begins with any number of minus signs that stand for themselves,
and a closing bracket stands for itself where there would be no member
otherwise. -/
def takesLiterally (bracket : Bracket) (c : Char) : Bool :=
  bracket.isFresh && (c == '-' || (c == ']' && bracket.members.isEmpty))

def addLiteral (bracket : Bracket) (c : Char) : Bracket :=
  { bracket with members := 0 :: bracket.members, isFresh := c == '-' }

end Bracket

/-! Members. -/

/-- Outside Unicode mode a class is one of bytes, and none of them may be part
of a longer character. -/
def Atom.isMember (flags : Flags) (atom : Atom) : Bool :=
  atom.isUsable flags &&
    match atom with
    | .character c => flags.isUnicode || isAscii c
    | .byte c => flags.isUnicode || isAscii c
    | .characterSet _ => true
    | _ => false

def memberAtom? (flags : Flags) : Text → Option (Atom × Text)
  | [] => none
  | '\\' :: rest => escape? flags rest
  | c :: rest => some (.character c, rest)

def afterMinus? (flags : Flags) (text : Text) : Option Char :=
  if flags.isVerbose then
    match text.dropWhile Text.isWhitespace with
    | '#' :: rest => (rest.dropWhile Text.isWhitespace).head?
    | rest => rest.head?
  else text.head?

def isRange (flags : Flags) (first last : Atom) : Bool :=
  first.isMember flags && last.isMember flags &&
    match first.character?, last.character? with
    | some first, some last => first ≤ last
    | _, _ => false

/-- The text after one atom or one range.  A minus sign makes no range before a
closing bracket or another minus sign. -/
def afterMember? (flags : Flags) (text : Text) : Option Text := do
  let (first, rest) ← memberAtom? flags text
  match flags.skipBlank rest with
  | '-' :: more =>
      match afterMinus? flags more with
      | some ']' => if first.isMember flags then some rest else none
      | some '-' => if first.isMember flags then some rest else none
      | _ => do
          let (last, rest) ← memberAtom? flags (flags.skipBlank more)
          if isRange flags first last then some rest else none
  | _ => if first.isMember flags then some rest else none

def setNames : List Text :=
  ["alnum".toList, "alpha".toList, "ascii".toList, "blank".toList,
    "cntrl".toList,
    "digit".toList, "graph".toList, "lower".toList, "print".toList,
    "punct".toList,
    "space".toList, "upper".toList, "word".toList, "xdigit".toList]

def afterSetName? (text : Text) : Option Text :=
  match text.dropWhile (· != ':') with
  | ':' :: ']' :: rest =>
      if setNames.contains (text.takeWhile (· != ':')) then some rest else none
  | _ => none

def namedSet? : Text → Option (Bool × Text)
  | ':' :: '^' :: rest => (afterSetName? rest).map (true, ·)
  | ':' :: rest => (afterSetName? rest).map (false, ·)
  | _ => none

/-- A complement has characters outside ASCII. -/
def isNamedSetUsable (flags : Flags) (isComplement : Bool) : Bool :=
  if flags.isUnicode then ! flags.ignoresCase else ! isComplement

def afterOpening? (flags : Flags) (text : Text) : Option Text :=
  match flags.skipBlank text with
  | '^' :: rest => if flags.isUnicode then some rest else none
  | rest => some rest

def bracketWithin? (flags : Flags) :
    (characters : Nat) → Bracket → (outer : List Bracket) → Text →
    Option (Nat × Text)
  | 0, _, _, _ => none
  | characters + 1, bracket, outer, text =>
      match flags.skipBlank text with
      | [] => none
      | c :: rest =>
          if bracket.takesLiterally c then
            if (Atom.character c).isMember flags then
              bracketWithin? flags characters (bracket.addLiteral c) outer rest
            else none
          else
            match c :: rest, outer with
            | '[' :: rest, _ =>
                match namedSet? rest with
                | some (isComplement, rest) =>
                    if isNamedSetUsable flags isComplement then
                      bracketWithin? flags characters (bracket.add 0) outer rest
                    else none
                | none => do
                    let rest ← afterOpening? flags rest
                    bracketWithin? flags characters .start (bracket :: outer)
                        rest
            | ']' :: rest, [] => some (bracket.height, rest)
            | ']' :: rest, enclosing :: outer =>
                bracketWithin? flags characters (enclosing.add bracket.height)
                  outer rest
            | '&' :: '&' :: rest, _ =>
                bracketWithin? flags characters bracket.addOperator outer rest
            | '-' :: '-' :: rest, _ =>
                bracketWithin? flags characters bracket.addOperator outer rest
            | '~' :: '~' :: rest, _ =>
                bracketWithin? flags characters bracket.addOperator outer rest
            | text, _ => do
                let rest ← afterMember? flags text
                bracketWithin? flags characters (bracket.add 0) outer rest

def bracket? (flags : Flags) (text : Text) : Option (Nat × Text) := do
  let rest ← afterOpening? flags text
  bracketWithin? flags (text.length + 1) .start [] rest

end InputResolution.Pattern
