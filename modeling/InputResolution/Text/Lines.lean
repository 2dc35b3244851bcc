import InputResolution.Text.Pieces

namespace InputResolution.Text

/-! Lines of a text.  A line ends at a line feed, and a carriage return right
before that line feed belongs to the ending.  The text after the last line feed
is a line only if it is not empty, and keeps a carriage return of its own. -/

def dropReturn (line : Text) : Text :=
  if line.getLast? = some '\r' then line.dropLast else line

def lines (text : Text) : List Text :=
  let pieces := Text.pieces (· == '\n') text
  let unterminated := pieces.getLastD []
  pieces.dropLast.map dropReturn ++ if unterminated.isEmpty then []
  else [unterminated]

def firstLine (text : Text) : Text :=
  (lines text).headD []

def unlines (lines : List Text) : Text :=
  lines.flatMap fun line => line ++ ['\n']

@[simp] theorem unlines_nil : unlines [] = [] := rfl

@[simp] theorem unlines_append (first second : List Text) :
    unlines (first ++ second) = unlines first ++ unlines second := by
  simp [unlines]

end InputResolution.Text
