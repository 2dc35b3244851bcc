import InputResolution.Text.Utf8

namespace InputResolution.Disk

/-! What resolution asks of a file system.  Nothing ties the three answers
together, so whatever is shown of resolution holds of a disk that misbehaves
too. -/

inductive EntryKind where
  | missing
  | file
  | other
  deriving DecidableEq, Repr

structure FileSystem where
  /-- The real place of a path, with every link and double dot followed. -/
  canonicalize : Text → Except Text Text
  kindOf : Text → EntryKind
  read : Text → Except Text Utf8.Bytes

/-- A file system that looks at nothing whose path takes so many bytes or more.
The real place of a path is found step by step and has no such limit. -/
def FileSystem.withPathLimit (fs : FileSystem) (bytes : Nat) : FileSystem :=
  let isTooLong (path : Text) : Bool :=
    bytes ≤ (String.ofList path).utf8ByteSize
  { fs with
    kindOf := fun path => if isTooLong path then .missing else fs.kindOf path
    read := fun path =>
      if isTooLong path then .error "path too long".toList else fs.read path }

end InputResolution.Disk
