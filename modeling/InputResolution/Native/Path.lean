import InputResolution.Text.Pieces

namespace InputResolution.Native

/-! Paths as the host reads them.  A native path is kept as its text; what it
denotes is its list of components, in which repeated slashes, a slash at the end
and dots other than a leading one do not count. -/

inductive Component where
  | root
  | current
  | parent
  | name (text : Text)
  deriving DecidableEq, Repr

/-- Pieces after the first one that are no component of their own. -/
def isIdle (piece : Text) : Bool :=
  piece == [] || piece == ['.']

def bodyComponent (piece : Text) : Component :=
  if piece = ['.', '.'] then .parent else .name piece

def bodyComponents (pieces : List Text) : List Component :=
  (pieces.filter (! isIdle ·)).map bodyComponent

def slashPieces (path : Text) : List Text :=
  Text.pieces (· == '/') path

/-- The component of the first piece.  An empty first piece is the root if a
slash follows it. -/
def leadingComponents (first : Text) (others : List Text) : List Component :=
  if first = [] then if others.isEmpty then [] else [.root]
  else if first = ['.'] then [.current]
  else [bodyComponent first]

def components (path : Text) : List Component :=
  match slashPieces path with
  | [] => []
  | first :: others => leadingComponents first others ++ bodyComponents others

def isAbsolute (path : Text) : Bool :=
  path.head? == some '/'

/-- An absolute child stands for itself; any other is put behind the base, with
a slash between them where the base does not end in one. -/
def join (base child : Text) : Text :=
  if isAbsolute child then child
  else if base.isEmpty || base.getLast? == some '/' then base ++ child
  else base ++ '/' :: child

def dropIdle (pieces : List Text) : List Text :=
  (pieces.reverse.dropWhile isIdle).reverse

/-- What is left of a path without its last component, as it was spelled.  A
root is never taken away, and the empty path has nothing to take away. -/
def parent? (path : Text) : Option Text :=
  match slashPieces path with
  | [] => none
  | first :: others =>
      match dropIdle others with
      | [] => if first = [] then none else some []
      | body =>
          let left := dropIdle body.dropLast
          some (if first = [] ∧ left = [] then ['/']
            else Text.join '/' (first :: left))

def startsWith (path directory : Text) : Bool :=
  (components directory).isPrefixOf (components path)

@[simp] theorem components_nil : components [] = [] := rfl

theorem components_slash (rest : Text) :
    components ('/' :: rest) = .root :: bodyComponents (slashPieces rest) := by
  have hpieces : slashPieces ('/' :: rest) = [] :: slashPieces rest :=
    Text.pieces_cons_of_separates rest rfl
  have hne : slashPieces rest ≠ [] := Text.pieces_ne_nil _ _
  simp [components, hpieces, leadingComponents, hne]

theorem join_of_isAbsolute (base : Text) {child : Text}
    (h : isAbsolute child = true) :
    join base child = child := by
  simp [join, h]

end InputResolution.Native
