import InputResolution.Pattern.Flags
import InputResolution.Text.CodePoint

namespace InputResolution.Pattern

/-! The smallest parts of patterns.  Only ASCII is known here by letter case and
by what is a digit, a blank or part of a word; what needs more cannot be used.
Neither can what stands for a byte that is no character. -/

inductive Atom where
  | character (c : Char)
  /-- A character given by the two digits of a byte. -/
  | byte (c : Char)
  | anyCharacter
  | characterSet (isComplement : Bool)
  | edge
  | wordEdge
  deriving DecidableEq, Repr

def isAscii (c : Char) : Bool :=
  c.toNat ≤ 0x7F

def Atom.isUsable (flags : Flags) : Atom → Bool
  | .character _ => ! (flags.isUnicode && flags.ignoresCase)
  | .byte c => if flags.isUnicode then ! flags.ignoresCase else isAscii c
  | .anyCharacter => flags.isUnicode
  | .characterSet isComplement => ! flags.isUnicode && ! isComplement
  | .edge => true
  | .wordEdge => ! flags.isUnicode

def Atom.character? : Atom → Option Char
  | .character c => some c
  | .byte c => some c
  | _ => none

/-! Escapes, read from the character after the backslash. -/

/-- Every mark stands for itself after a backslash, but for two that mean edges
of words. -/
def isEscapable (c : Char) : Bool :=
  isAscii c && ! c.isAlphanum && c != '<' && c != '>'

def namedCharacter? : Char → Option Char
  | 'a' => some '\x07'
  | 'f' => some '\x0c'
  | 'n' => some '\n'
  | 'r' => some '\r'
  | 't' => some '\t'
  | 'v' => some '\x0b'
  | _ => none

def letterAtom? (c : Char) : Option Atom :=
  match namedCharacter? c with
  | some meant => some (.character meant)
  | none =>
      if c == 'd' || c == 's' || c == 'w' then some (.characterSet false)
      else if c == 'D' || c == 'S' || c == 'W' then some (.characterSet true)
      else if c == 'A' || c == 'z' then some .edge
      else if c == 'b' || c == 'B' || c == '<' || c == '>' then some .wordEdge
      else none

def code? (flags : Flags) :
    (digits : Nat) → (value : Nat) → Text → Option (Nat × Text)
  | 0, value, text => some (value, text)
  | digits + 1, value, text =>
      match flags.skipBlank text with
      | [] => none
      | c :: rest =>
          (Text.hexDigit? c).bind fun digit =>
            code? flags digits (value * 16 + digit) rest

def escape? (flags : Flags) : Text → Option (Atom × Text)
  | [] => none
  | c :: rest =>
      if isEscapable c then some (.character c, rest)
      else
        match Text.codeLength? c with
        | none => (letterAtom? c).map (·, rest)
        | some digits => do
            let (value, rest) ← code? flags digits 0 rest
            let meant ← Text.codePoint? value
            some (if c = 'x' then .byte meant else .character meant, rest)

end InputResolution.Pattern
