import InputResolution.Lexical.Root

namespace InputResolution.Lexical

/-! Lexically normalized paths.  A raw text is read piece by piece: empty pieces
and single dots are passed over, a double dot leaves the last segment, any other
piece is a new segment.  Nothing here looks at a file system, and nothing here
fails. -/

def dot : Text := ['.']

def dotDot : Text := ['.', '.']

/-- A normalized path: its root, its segments in order, and whether the text it
came from left the last segment open, as a directory is written. -/
structure Path where
  root : Root
  segments : List Text
  trailing : Bool
  deriving DecidableEq, Repr

/-- Leaving the top of a rooted path stays there; leaving the top of a relative
one is recorded. -/
def leave (rooted : Bool) (segments : List Text) : List Text :=
  match segments.getLast? with
  | none => if rooted then [] else [dotDot]
  | some last =>
      if last = dotDot then
        if rooted then segments else segments ++ [dotDot]
      else segments.dropLast

def enter (rooted : Bool) (segments : List Text) (piece : Text) : List Text :=
  if piece = [] ∨ piece = dot then segments
  else if piece = dotDot then leave rooted segments
  else segments ++ [piece]

/-- A text leaves its last segment open when its last piece is empty, a dot or a
double dot. -/
def leavesOpen (pieces : List Text) : Bool :=
  match pieces.getLast? with
  | none => false
  | some last => decide (last = [] ∨ last = dot ∨ last = dotDot)

namespace Path

def isRooted (path : Path) : Bool :=
  path.root.isRooted

def ofRoot (root : Root) : Path :=
  ⟨root, [], false⟩

def append (style : Style) (path : Path) (raw : Text) : Path :=
  let pieces := Text.pieces style.separates raw
  let segments := pieces.foldl (enter path.isRooted) path.segments
  ⟨path.root, segments, !segments.isEmpty && leavesOpen pieces⟩

def parse (style : Style) (raw : Text) : Path :=
  let split := splitRoot style raw
  (ofRoot split.1).append style split.2

/-- A single slash is rooted on the drive of the working directory, where there
are drives. -/
def adoptDrive (style : Style) (workDir path : Path) : Path :=
  match style, path.root, workDir.root with
  | .windows, .slash, .drive letter => { path with root := .drive letter }
  | _, _, _ => path

/-- A text with a root of its own is parsed alone; any other text continues the
working directory, and the empty text is the working directory. -/
def resolve (style : Style) (workDir : Path) (raw : Text) : Path :=
  if (splitRoot style raw).1.isRooted then
    adoptDrive style workDir (parse style raw)
  else if raw.isEmpty then workDir
  else workDir.append style raw

def strip? (path directory : Path) : Option Path :=
  if path.root.agrees directory.root ∧ directory.segments <+: path.segments then
    let rest := path.segments.drop directory.segments.length
    some ⟨.relative, rest, path.trailing && !rest.isEmpty⟩
  else none

@[simp] theorem isRooted_ofRoot (root : Root) :
    (ofRoot root).isRooted = root.isRooted := rfl

@[simp] theorem root_append (style : Style) (path : Path) (raw : Text) :
    (path.append style raw).root = path.root := rfl

@[simp] theorem isRooted_append (style : Style) (path : Path) (raw : Text) :
    (path.append style raw).isRooted = path.isRooted := rfl

@[simp] theorem root_parse (style : Style) (raw : Text) :
    (parse style raw).root = (splitRoot style raw).1 := rfl

@[simp] theorem adoptDrive_posix (workDir path : Path) :
    adoptDrive .posix workDir path = path := rfl

end Path

@[simp] theorem enter_nil (rooted : Bool) (segments : List Text) :
    enter rooted segments [] = segments := by
  simp [enter]

@[simp] theorem enter_dot (rooted : Bool) (segments : List Text) :
    enter rooted segments dot = segments := by
  simp [enter]

@[simp] theorem enter_dotDot (rooted : Bool) (segments : List Text) :
    enter rooted segments dotDot = leave rooted segments := by
  simp [enter, dotDot, dot]

theorem enter_of_ordinary {piece : Text} (hne : piece ≠ []) (hdot : piece ≠ dot)
    (hdotDot : piece ≠ dotDot) (rooted : Bool) (segments : List Text) :
    enter rooted segments piece = segments ++ [piece] := by
  simp [enter, hne, hdot, hdotDot]

@[simp] theorem leave_nil (rooted : Bool) :
    leave rooted [] = if rooted then [] else [dotDot] := rfl

theorem leave_append_singleton (rooted : Bool) (segments : List Text)
    {last : Text} (h : last ≠ dotDot) :
    leave rooted (segments ++ [last]) = segments := by
  simp [leave, h]

end InputResolution.Lexical
