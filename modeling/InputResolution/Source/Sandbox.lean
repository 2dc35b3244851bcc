import InputResolution.Disk.FileSystem
import InputResolution.Native.DirectorySet

namespace InputResolution.Sandbox

/-! The directories that may be read from because a loaded file lies in them. -/

/-- The directory of a real place.  The top is its own directory. -/
def directoryOf (place : Text) : Text :=
  (Native.parent? place).getD place

structure Admission where
  directory : Text
  isNew : Bool
  directories : Native.DirectorySet
  deriving DecidableEq, Repr

/-- Allows the directory in which the file really lies, with every link
followed. -/
def allowFile (fs : Disk.FileSystem) (directories : Native.DirectorySet)
    (file : Text) :
    Except Text Admission :=
  match fs.canonicalize file with
  | .error reason => .error reason
  | .ok place =>
      let directory := directoryOf place
      .ok ⟨directory, ! directories.contains directory,
        directories.insert directory⟩

def permits (directories : Native.DirectorySet) (file : Text) : Bool :=
  match Native.parent? file with
  | none => false
  | some directory => directories.toList.any (Native.startsWith directory)

end InputResolution.Sandbox
