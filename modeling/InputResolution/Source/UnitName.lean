import InputResolution.Lexical.Print
import InputResolution.Native.Path

namespace InputResolution

/-! Names of source units.  A path is named by what is left of it inside the
first directory that holds it: the base path, or the working directory where no
base path is set, and then each include path.  A path that none of them holds
keeps its portable text.  Naming is lexical, opening is not: the native path is
the token as typed, so that a double dot after a link follows the real
layout. -/

def stdinUnitName : Text := "<stdin>".toList

structure UnitNaming where
  style : Lexical.Style
  workDir : Lexical.Path
  basePath : Option Lexical.Path
  includePaths : List Lexical.Path
  deriving DecidableEq, Repr

namespace UnitNaming

def make (style : Lexical.Style) (workDir : Text) (basePath : Option Text)
    (includePaths : List Text) : UnitNaming :=
  let workDir := Lexical.Path.parse style workDir
  let normalize := Lexical.Path.resolve style workDir
  ⟨style, workDir, (basePath.filter (! ·.isEmpty)).map normalize,
    includePaths.map normalize⟩

def normalize (naming : UnitNaming) (path : Text) : Lexical.Path :=
  Lexical.Path.resolve naming.style naming.workDir path

def primary (naming : UnitNaming) : Lexical.Path :=
  naming.basePath.getD naming.workDir

/-- The directories that names are relative to, in the order they are tried. -/
def directories (naming : UnitNaming) : List Lexical.Path :=
  naming.primary :: naming.includePaths

def name (naming : UnitNaming) (path : Text) : Text :=
  let normalized := naming.normalize path
  match naming.directories.findSome? normalized.strip? with
  | some rest => rest.text
  | none => normalized.portableText naming.workDir

def nativePath (naming : UnitNaming) (path : Text) : Text :=
  Native.join naming.workDir.text path

end UnitNaming

end InputResolution
