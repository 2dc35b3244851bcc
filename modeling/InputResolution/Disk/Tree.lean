import InputResolution.Disk.FileSystem
import InputResolution.Native.Path

namespace InputResolution.Disk

/-! File systems held in memory.  A tree says which entry is at which place; a
path is followed through it from the top, link by link. -/

/-- A real place: the names on the way down from the top. -/
abbrev Place := List Text

inductive Node where
  | directory
  | file (content : Utf8.Bytes)
  | link (target : Text)
  | special
  deriving DecidableEq, Repr

/-- A node with the failures it answers some requests with. -/
structure Entry where
  node : Node
  readFailure : Option Text
  placeFailure : Option Text
  deriving DecidableEq, Repr

def Entry.ofNode (node : Node) : Entry :=
  ⟨node, none, none⟩

/-- The latest entry of a place stands first. -/
structure Tree where
  entries : List (Place × Entry)
  deriving Repr

def Place.ofPath (path : Text) : Place :=
  (Native.slashPieces path).filter (! ·.isEmpty)

def Place.text (place : Place) : Text :=
  if place.isEmpty then ['/'] else place.flatMap fun name => '/' :: name

namespace Tree

def empty : Tree := ⟨[]⟩

/-- The top is a directory even where nothing says so. -/
def entry? (tree : Tree) (place : Place) : Option Entry :=
  match tree.entries.lookup place with
  | some entry => some entry
  | none => if place.isEmpty then some (.ofNode .directory) else none

def isDirectory (tree : Tree) (place : Place) : Bool :=
  (tree.entry? place).any (·.node == .directory)

def put (tree : Tree) (place : Place) (entry : Entry) : Tree :=
  ⟨(place, entry) :: tree.entries.filter (·.1 ≠ place)⟩

def addMissing (tree : Tree) (place : Place) : Tree :=
  if (tree.entry? place).isSome then tree
  else tree.put place (.ofNode .directory)

def above (place : Place) : List Place :=
  (List.range place.length).map place.take

/-- Missing directories above the place come with it. -/
def insert (tree : Tree) (place : Place) (entry : Entry) : Tree :=
  ((above place).foldl addMissing tree).put place entry

def erase (tree : Tree) (place : Place) : Tree :=
  ⟨tree.entries.filter fun item => ! place.isPrefixOf item.1⟩

/-! Following a path.  Every piece, an empty one too, has to start from a
directory.  A link puts the pieces of its target before the remaining ones. -/

/-- Follows pieces up to the first link, and hands the rest to `follow`. -/
def stepsWith (tree : Tree) (follow : Place → List Text → Option Place) :
    Place → List Text → Option Place
  | place, [] => some place
  | place, piece :: others =>
      if ! tree.isDirectory place then none
      else if piece = [] ∨ piece = ['.'] then stepsWith tree follow place others
      else if piece = ['.', '.'] then
        stepsWith tree follow place.dropLast others
      else
        match tree.entry? (place ++ [piece]) with
        | none => none
        | some entry =>
            match entry.node with
            | .link [] => none
            | .link target =>
                follow (if Native.isAbsolute target then [] else place)
                  (Native.slashPieces target ++ others)
            | _ => stepsWith tree follow (place ++ [piece]) others

def steps (tree : Tree) : (links : Nat) → Place → List Text → Option Place
  | 0 => stepsWith tree fun _ _ => none
  | links + 1 => stepsWith tree (steps tree links)

def linkLimit : Nat := 40

/-- Every path starts at the top.  The empty path and one with a null character
lead nowhere. -/
def locate? (tree : Tree) (path : Text) : Option Place :=
  if path.isEmpty ∨ '\x00' ∈ path then none
  else tree.steps linkLimit [] (Native.slashPieces path)

def find? (tree : Tree) (path : Text) : Option Entry :=
  (tree.locate? path).bind tree.entry?

def absent : Text := "no such entry".toList

def canonicalize (tree : Tree) (path : Text) : Except Text Text :=
  match tree.locate? path with
  | none => .error absent
  | some place =>
      match (tree.entry? place).bind (·.placeFailure) with
      | some failure => .error failure
      | none => .ok place.text

def kindOf (tree : Tree) (path : Text) : EntryKind :=
  match tree.find? path with
  | none => .missing
  | some entry =>
      match entry.node with
      | .file _ => .file
      | _ => .other

def read (tree : Tree) (path : Text) : Except Text Utf8.Bytes :=
  match tree.find? path with
  | none => .error absent
  | some entry =>
      match entry.readFailure, entry.node with
      | some failure, _ => .error failure
      | none, .file content => .ok content
      | none, _ => .error "not a regular file".toList

def fileSystem (tree : Tree) : FileSystem where
  canonicalize := tree.canonicalize
  kindOf := tree.kindOf
  read := tree.read

end Tree

end InputResolution.Disk
