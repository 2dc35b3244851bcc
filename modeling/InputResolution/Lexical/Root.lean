import InputResolution.Text.Pieces

namespace InputResolution.Lexical

/-! What stands before the segments of a path, and how it is split off a raw
text. -/

inductive Style where
  | posix
  | windows
  deriving DecidableEq, Repr

def Style.separates : Style → Char → Bool
  | .posix, c => c == '/'
  | .windows, c => c == '/' || c == '\\'

@[simp] theorem Style.separates_slash (style : Style) :
    style.separates '/' = true := by
  cases style <;> rfl

inductive Root where
  | relative
  | slash
  | doubleSlash
  | drive (letter : Char)
  deriving DecidableEq, Repr

namespace Root

def isRooted : Root → Bool
  | .relative => false
  | _ => true

/-- Drives agree whatever the case of their letters; other roots agree when they
are equal. -/
def agrees : Root → Root → Bool
  | .drive first, .drive second => first.toLower == second.toLower
  | first, second => first == second

def text : Root → Text
  | .relative => []
  | .slash => ['/']
  | .doubleSlash => ['/', '/']
  | .drive letter => [letter, ':', '/']

@[simp] theorem isRooted_relative : relative.isRooted = false := rfl

@[simp] theorem isRooted_slash : slash.isRooted = true := rfl

@[simp] theorem isRooted_doubleSlash : doubleSlash.isRooted = true := rfl

@[simp] theorem isRooted_drive (letter : Char) :
    (drive letter).isRooted = true := rfl

theorem isRooted_eq_false_iff {root : Root} :
    root.isRooted = false ↔ root = .relative := by
  cases root <;> simp

@[simp] theorem agrees_self (root : Root) : root.agrees root = true := by
  cases root <;> simp [agrees]

@[simp] theorem agrees_drive (first second : Char) :
    (drive first).agrees (drive second) = (first.toLower == second.toLower) :=
  rfl

theorem agrees_comm (first second : Root) :
    first.agrees second = second.agrees first := by
  cases first <;> cases second <;> simp [agrees, eq_comm, Bool.beq_eq_decide_eq]

theorem agrees_trans {first second third : Root}
    (hfirst : first.agrees second = true)
    (hsecond : second.agrees third = true) : first.agrees third = true := by
  cases first <;> cases second <;> cases third <;> simp_all [agrees]

end Root

/-- A drive is an ASCII letter followed by a colon, in the style that has
drives. -/
def splitDrive? : Style → Text → Option (Char × Text)
  | .windows, letter :: ':' :: rest =>
      if letter.isAlpha then some (letter, rest) else none
  | _, _ => none

/-- Splits the root off a raw text.  Exactly two leading separators are a root
of their own; any other positive number of them is a single slash. -/
def splitRoot (style : Style) (raw : Text) : Root × Text :=
  match splitDrive? style raw with
  | some (letter, rest) => (.drive letter, rest)
  | none =>
      match (raw.takeWhile style.separates).length with
      | 0 => (.relative, raw)
      | 2 => (.doubleSlash, raw.dropWhile style.separates)
      | _ => (.slash, raw.dropWhile style.separates)

@[simp] theorem splitDrive?_posix (raw : Text) :
    splitDrive? .posix raw = none := rfl

end InputResolution.Lexical
