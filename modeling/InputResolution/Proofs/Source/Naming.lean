import InputResolution.Proofs.Lexical.Containment
import InputResolution.Source.UnitName

namespace InputResolution

open Native (moves endsIdle isAbsolute slashPieces)
open Lexical (dotDot enter)

/-! How a name goes together with the directory that it is relative to. -/

namespace UnitNaming

/-- The first directory that holds a path, which its name is relative to. -/
def holder? (naming : UnitNaming) (path : Text) : Option Lexical.Path :=
  naming.directories.find? fun directory =>
    directory.Holds (naming.normalize path)

structure Rooted (naming : UnitNaming) : Prop where
  workDir : naming.workDir.WellFormed naming.style
  isRooted : naming.workDir.isRooted = true

theorem rooted_make {style : Lexical.Style} {workDir : Text}
    (h : (Lexical.Path.parse style workDir).isRooted = true)
    (basePath : Option Text) (includePaths : List Text) :
    (make style workDir basePath includePaths).Rooted where
  workDir := Lexical.Path.wellFormed_parse style workDir
  isRooted := h

namespace Rooted

variable {naming : UnitNaming}

theorem wellFormed_normalize (h : naming.Rooted) (path : Text) :
    (naming.normalize path).WellFormed naming.style :=
  h.workDir.resolve path

theorem isRooted_normalize (h : naming.Rooted) (path : Text) :
    (naming.normalize path).isRooted = true := by
  rw [normalize, Lexical.Path.isRooted_resolve, h.isRooted, Bool.or_true]

end Rooted

structure Posix (naming : UnitNaming) : Prop where
  style : naming.style = .posix
  workDir : naming.workDir.WellFormed .posix
  isRooted : naming.workDir.isRooted = true
  directories : ∀ directory ∈ naming.directories, directory.WellFormed .posix

theorem posix_make {workDir : Text} (h : isAbsolute workDir = true)
    (basePath : Option Text) (includePaths : List Text) :
    (make .posix workDir basePath includePaths).Posix where
  style := rfl
  workDir := Lexical.Path.wellFormed_parse .posix workDir
  isRooted := (Lexical.isRooted_splitRoot_posix workDir).trans h
  directories := by
    have hworkDir := Lexical.Path.wellFormed_parse .posix workDir
    intro directory hdirectory
    rcases List.mem_cons.mp hdirectory with hprimary | hinclude
    · rw [hprimary, primary]
      simp only [make]
      cases basePath.filter (! ·.isEmpty) with
      | none => exact hworkDir
      | some base => exact hworkDir.resolve base
    · obtain ⟨includePath, -, rfl⟩ := List.mem_map.mp hinclude
      exact hworkDir.resolve includePath

namespace Posix

variable {naming : UnitNaming} {path : Text}

theorem rooted (h : naming.Posix) : naming.Rooted where
  workDir := h.style ▸ h.workDir
  isRooted := h.isRooted

theorem wellFormed_normalize (h : naming.Posix) (path : Text) :
    (naming.normalize path).WellFormed .posix :=
  h.style ▸ h.rooted.wellFormed_normalize path

theorem isRooted_normalize (h : naming.Posix) (path : Text) :
    (naming.normalize path).isRooted = true :=
  h.rooted.isRooted_normalize path

theorem segments_normalize (h : naming.Posix) (path : Text) :
    (naming.normalize path).segments =
      (slashPieces (naming.nativePath path)).foldl (enter true) [] := by
  rw [normalize, h.style]
  exact Lexical.Path.segments_resolve_posix h.workDir h.isRooted path

theorem dotDot_mem_nativePath (h : naming.Posix)
    (hmem : dotDot ∈ slashPieces (naming.nativePath path)) :
    dotDot ∈ slashPieces path := by
  cases habsolute : isAbsolute path with
  | true => rwa [nativePath, Native.join_of_isAbsolute _ habsolute] at hmem
  | false =>
      rw [← Native.dotDot_mem_moves_iff, nativePath,
        Native.moves_join _ habsolute, h.workDir.moves_text] at hmem
      rcases List.mem_append.mp hmem with hworkDir | hpath
      · exact absurd hworkDir (h.workDir.settled.stays h.isRooted)
      · exact Native.dotDot_mem_moves_iff.mp hpath

end Posix

theorem name_of_holder?_eq_some {naming : UnitNaming} {path : Text}
    {directory : Lexical.Path} (h : naming.holder? path = some directory) :
    ∃ rest, (naming.normalize path).strip? directory = some rest ∧
      naming.name path = rest.text := by
  obtain ⟨hholds, before, after, hdirectories, hbefore⟩ :=
    List.find?_eq_some_iff_append.mp h
  obtain ⟨rest, hrest⟩ := Option.isSome_iff_exists.mp
    (Lexical.Path.isSome_strip?_iff.mpr (of_decide_eq_true hholds))
  have hfound : naming.directories.findSome? (naming.normalize path).strip? =
      some rest := by
    refine List.findSome?_eq_some_iff.mpr
      ⟨before, directory, after, hdirectories, hrest, ?_⟩
    intro other hother
    have hfails : ¬ other.Holds (naming.normalize path) := by
      simpa using hbefore other hother
    rwa [← Lexical.Path.isSome_strip?_iff,
      Option.not_isSome_iff_eq_none] at hfails
  refine ⟨rest, hrest, ?_⟩
  simp only [name, hfound]

theorem name_of_holder?_eq_none {naming : UnitNaming} {path : Text}
    (h : naming.holder? path = none) :
    naming.name path = (naming.normalize path).portableText naming.workDir := by
  have hfound :
      naming.directories.findSome? (naming.normalize path).strip? = none := by
    apply List.findSome?_eq_none_iff.mpr
    intro directory hdirectory
    have hfails : ¬ directory.Holds (naming.normalize path) := by
      simpa using List.find?_eq_none.mp h directory hdirectory
    rwa [← Lexical.Path.isSome_strip?_iff,
      Option.not_isSome_iff_eq_none] at hfails
  simp only [name, hfound]

theorem Rooted.isAbsolute_name {naming : UnitNaming} (h : naming.Rooted)
    (path : Text) :
    isAbsolute (naming.name path) = (naming.holder? path).isNone := by
  cases hholder : naming.holder? path with
  | none =>
      rw [name_of_holder?_eq_none hholder]
      exact Lexical.Path.isAbsolute_portableText (h.isRooted_normalize path) _
  | some directory =>
      obtain ⟨rest, hrest, hname⟩ := name_of_holder?_eq_some hholder
      rw [hname]
      exact (h.wellFormed_normalize path).isAbsolute_strip? hrest

theorem Rooted.exists_holder {naming : UnitNaming} (h : naming.Rooted)
    {path : Text} (hrelative : isAbsolute (naming.name path) = false) :
    ∃ directory, naming.holder? path = some directory := by
  rw [h.isAbsolute_name, Option.isNone_eq_false_iff] at hrelative
  exact Option.isSome_iff_exists.mp hrelative

/-- The directory itself is named by a dot, open or not. -/
theorem name_eq_dot {naming : UnitNaming} {path : Text}
    {directory : Lexical.Path} (h : naming.holder? path = some directory)
    (hsegments : (naming.normalize path).segments = directory.segments) :
    naming.name path = Lexical.dot := by
  obtain ⟨rest, hrest, hname⟩ := name_of_holder?_eq_some h
  obtain ⟨-, hparts, hroot, -⟩ := Lexical.Path.strip?_eq_some_iff.mp hrest
  have hnil : rest.segments = [] := by simpa [hsegments] using hparts
  rw [hname, Lexical.Path.text, if_pos ⟨hroot, hnil⟩]

namespace Posix

variable {naming : UnitNaming} {path : Text}

theorem wellFormed_holder (h : naming.Posix) {directory : Lexical.Path}
    (hholder : naming.holder? path = some directory) :
    directory.WellFormed .posix :=
  h.directories directory (List.mem_of_find?_eq_some hholder)

theorem root_eq_of_holder (h : naming.Posix) {directory : Lexical.Path}
    (hholder : naming.holder? path = some directory) :
    (naming.normalize path).root = directory.root := by
  have hholds : directory.Holds (naming.normalize path) :=
    of_decide_eq_true (List.find?_eq_some_iff_append.mp hholder).1
  exact (h.wellFormed_normalize path).root_eq_of_agrees
    (h.wellFormed_holder hholder) hholds.1

theorem isRooted_holder (h : naming.Posix) {directory : Lexical.Path}
    (hholder : naming.holder? path = some directory) :
    directory.isRooted = true := by
  have hrooted := h.isRooted_normalize path
  rwa [Lexical.Path.isRooted, h.root_eq_of_holder hholder] at hrooted

theorem same_of_segments_eq (h : naming.Posix) {directory : Lexical.Path}
    (hholder : naming.holder? path = some directory)
    (hsegments : (naming.normalize path).segments = directory.segments) :
    (naming.normalize path).Coincides directory :=
  ⟨h.root_eq_of_holder hholder, hsegments⟩

theorem isAbsolute_name (h : naming.Posix) (path : Text) :
    isAbsolute (naming.name path) = (naming.holder? path).isNone :=
  h.rooted.isAbsolute_name path

theorem name_of_isAbsolute (h : naming.Posix)
    (habsolute : isAbsolute (naming.name path) = true) :
    naming.name path = (naming.normalize path).text := by
  rw [h.isAbsolute_name, Option.isNone_iff_eq_none] at habsolute
  rw [name_of_holder?_eq_none habsolute]
  exact (h.wellFormed_normalize path).portableText_posix
    (h.isRooted_normalize path) _

theorem exists_holder (h : naming.Posix)
    (hrelative : isAbsolute (naming.name path) = false) :
    ∃ directory, naming.holder? path = some directory :=
  h.rooted.exists_holder hrelative

/-- The moves of a name are what the directory that holds the path leaves of
it. -/
theorem segments_eq_append_moves_name (h : naming.Posix)
    {directory : Lexical.Path}
    (hholder : naming.holder? path = some directory) :
    (naming.normalize path).segments =
      directory.segments ++ moves (slashPieces (naming.name path)) := by
  obtain ⟨rest, hrest, hname⟩ := name_of_holder?_eq_some hholder
  rw [hname, ((h.wellFormed_normalize path).strip? hrest).moves_text]
  exact (Lexical.Path.strip?_eq_some_iff.mp hrest).2.1

/-- A name is open only if its path is, unless it is the directory's own. -/
theorem endsIdle_name (h : naming.Posix) {directory : Lexical.Path}
    (hholder : naming.holder? path = some directory)
    (hne : (naming.normalize path).segments ≠ directory.segments)
    (htrailing : (naming.normalize path).trailing = false) :
    endsIdle (slashPieces (naming.name path)) = false := by
  obtain ⟨rest, hrest, hname⟩ := name_of_holder?_eq_some hholder
  obtain ⟨-, hsegments, -, hopen⟩ := Lexical.Path.strip?_eq_some_iff.mp hrest
  have hrestNe : rest.segments ≠ [] := by
    intro hnil
    rw [hnil, List.append_nil] at hsegments
    exact hne hsegments
  rw [hname, ((h.wellFormed_normalize path).strip? hrest).endsIdle_text hrestNe,
    hopen, htrailing, Bool.false_and]

end Posix

end UnitNaming

end InputResolution
