import InputResolution.Text.Pieces

namespace InputResolution

/-! Import remappings, written as an optional context and a colon, a pattern, an
equals sign and a target.  The first equals sign ends the pattern; the first
colon before it ends the context. -/

structure Remapping where
  context : Text
  pattern : Text
  target : Text
  deriving DecidableEq, Repr

namespace Remapping

/-- A token is meant as a remapping when it holds an equals sign. -/
def isWrittenAs (token : Text) : Bool :=
  token.contains '='

def parse? (token : Text) : Option Remapping :=
  match Text.cut? '=' token with
  | none => none
  | some (head, target) =>
      let (context, pattern) := (Text.cut? ':' head).getD ([], head)
      if pattern.isEmpty then none else some ⟨context, pattern, target⟩

def text (remapping : Remapping) : Text :=
  (if remapping.context.isEmpty then [] else remapping.context ++ [':']) ++
    remapping.pattern ++ '=' :: remapping.target

/-- The directory that holds the target.  A target that ends in a double dot is
a directory itself; an empty target has none. -/
def directory? (remapping : Remapping) : Option Text :=
  let pieces := Text.pieces (· == '/') remapping.target
  if remapping.target.isEmpty then none
  else if pieces.getLast? = some ['.', '.'] then some remapping.target
  else
    match pieces.dropLast with
    | [] => some ['.']
    | [[]] => some ['/']
    | above => some (Text.join '/' above)

end Remapping

end InputResolution
