import InputResolution.Proofs.Lexical.Joining
import InputResolution.Source.UnitName

namespace InputResolution.UnitNaming

open Lexical.Path (parse)
open Native (isAbsolute)

/-! What is opened for a path, read lexically.  Naming continues a directory
that was normalized before, opening puts raw text behind the text of that
directory.  Main statement: without drives the two agree, whatever the working
directory; only for the empty path, which is opened as a directory, can they
differ, and then in the open end alone. -/

variable {naming : UnitNaming} {path : Text}

theorem nativePath_of_isAbsolute (h : isAbsolute path = true) :
    naming.nativePath path = path :=
  Native.join_of_isAbsolute _ h

theorem parse_nativePath_of_relative
    (hworkDir : naming.workDir.WellFormed .posix)
    (h : isAbsolute path = false) :
    parse .posix (naming.nativePath path) = naming.workDir.append .posix path :=
  hworkDir.parse_join h

theorem parse_nativePath_of_ne_nil (hstyle : naming.style = .posix)
    (hworkDir : naming.workDir.WellFormed .posix) (hne : path ≠ []) :
    parse .posix (naming.nativePath path) = naming.normalize path := by
  rw [normalize, hstyle]
  cases habsolute : isAbsolute path with
  | true =>
      rw [nativePath_of_isAbsolute habsolute,
        Lexical.Path.resolve_of_isAbsolute habsolute]
  | false =>
      rw [parse_nativePath_of_relative hworkDir habsolute,
        Lexical.Path.resolve_of_relative habsolute hne]

theorem parse_nativePath_nil (hworkDir : naming.workDir.WellFormed .posix) :
    parse .posix (naming.nativePath []) =
      { naming.workDir with trailing := !naming.workDir.segments.isEmpty } := by
  rw [parse_nativePath_of_relative hworkDir rfl]
  simp [Lexical.Path.append, Lexical.leavesOpen]

/-- The text that is opened for a path is read as the path that is named. -/
theorem parse_nativePath (workDir : Text) (basePath : Option Text)
    (includePaths : List Text) (path : Text) :
    let naming := make .posix workDir basePath includePaths
    (parse .posix (naming.nativePath path)).Coincides (naming.normalize path) ∧
      (path ≠ [] →
        parse .posix (naming.nativePath path) = naming.normalize path) := by
  intro naming
  have hworkDir : naming.workDir.WellFormed .posix :=
    Lexical.Path.wellFormed_parse .posix workDir
  have hread : path ≠ [] →
      parse .posix (naming.nativePath path) = naming.normalize path :=
    parse_nativePath_of_ne_nil rfl hworkDir
  refine ⟨?_, hread⟩
  by_cases hnil : path = []
  · rw [hnil, parse_nativePath_nil hworkDir]
    exact ⟨rfl, rfl⟩
  · rw [hread hnil]
    exact ⟨rfl, rfl⟩

/-- From a relative directory that is written as a dot, from two slashes, and
for the empty path, which is opened with a slash that the working directory does
not end in. -/
theorem parse_nativePath_from_dot :
    parse .posix
          ((make .posix ['.', '/'] none []).nativePath
            ['.', '.', '/', 'x', '/']) =
        (make .posix ['.', '/'] none []).normalize ['.', '.', '/', 'x', '/'] ∧
      parse .posix
          ((make .posix ['/', '/'] none []).nativePath ['h', '/', '.', '.']) =
        (make .posix ['/', '/'] none []).normalize ['h', '/', '.', '.'] ∧
      parse .posix ((make .posix ['/', 'w'] none []).nativePath []) ≠
        (make .posix ['/', 'w'] none []).normalize [] :=
  ⟨(parse_nativePath ['.', '/'] none [] ['.', '.', '/', 'x', '/']).2
      (by decide),
    (parse_nativePath ['/', '/'] none [] ['h', '/', '.', '.']).2 (by decide),
    by decide⟩

end InputResolution.UnitNaming
