import InputResolution.Text.CharacterClass

namespace InputResolution.Pattern

/-! Flags of patterns.  A pattern turns them on and off for the rest of the
group that it does so in, or for one group. -/

structure Flags where
  ignoresCase : Bool
  /-- The pattern stands for characters, and not for bytes. -/
  isUnicode : Bool
  /-- Blank space and comments in the pattern mean nothing. -/
  isVerbose : Bool
  deriving DecidableEq, Repr

namespace Flags

def start : Flags := ⟨false, true, false⟩

/-- The letters of all flags.  Besides the three: lines have ends of their own,
a dot takes line feeds too, repetitions take as little as they can, and a line
may end in a carriage return. -/
def letters : Text := "iuxmsUR".toList

def set (value : Bool) (flags : Flags) (letter : Char) : Flags :=
  if letter = 'i' then { flags with ignoresCase := value }
  else if letter = 'u' then { flags with isUnicode := value }
  else if letter = 'x' then { flags with isVerbose := value }
  else flags

def areLetters (text : Text) : Bool :=
  text.all letters.contains && decide text.Nodup

/-- The flags after those letters are turned on that stand before a minus sign,
and those off that stand after it.  No letter stands twice, and a minus sign not
at the end. -/
def change? (flags : Flags) (text : Text) : Option Flags :=
  match Text.pieces (· == '-') text with
  | [on] => if areLetters on then some (on.foldl (set true) flags) else none
  | [on, off] =>
      if areLetters (on ++ off) && ! off.isEmpty then
        some (off.foldl (set false) (on.foldl (set true) flags))
      else none
  | _ => none

def afterBlank (isComment : Bool) : Text → Text
  | [] => []
  | c :: rest =>
      if isComment then afterBlank (c != '\n') rest
      else if c == '#' then afterBlank true rest
      else if Text.isWhitespace c then afterBlank false rest
      else c :: rest

def skipBlank (flags : Flags) (text : Text) : Text :=
  if flags.isVerbose then afterBlank false text else text

end Flags

end InputResolution.Pattern
