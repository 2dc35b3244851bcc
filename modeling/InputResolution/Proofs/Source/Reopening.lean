import InputResolution.Proofs.Disk.WeaklyCanonical
import InputResolution.Proofs.Source.Naming
import InputResolution.Proofs.Source.ResolutionRun

namespace InputResolution

open Disk (Place Tree)
open Native (moves endsIdle isAbsolute slashPieces)
open Lexical (leavesOpen)

/-! Names against the files they were given for.  Naming is lexical and opening
is not; where no link or no double dot can set the two apart, a name leads back
to its file, and two files share no name. -/

namespace UnitNaming.Posix

variable {naming : UnitNaming} {tree : Tree} {path other : Text} {place : Place}

theorem leavesOpen_nativePath
    (hplace : tree.locate? (naming.nativePath path) = some place)
    (hfile : tree.isDirectory place = false) :
    leavesOpen (slashPieces (naming.nativePath path)) = false := by
  rw [Bool.eq_false_iff]
  intro hopen
  have hleads := (Tree.locate?_eq_some_iff.mp hplace).2.2
  have hdirectory := hleads.isDirectory_final .top
    (fun _ hpiece => Native.slash_notMem_piece hpiece) hopen
  rw [hfile] at hdirectory
  cases hdirectory

theorem trailing_normalize (h : naming.Posix)
    (hplace : tree.locate? (naming.nativePath path) = some place)
    (hfile : tree.isDirectory place = false) :
    (naming.normalize path).trailing = false := by
  rw [Bool.eq_false_iff]
  intro htrailing
  rw [normalize, h.style] at htrailing
  have hopen := leavesOpen_nativePath hplace hfile
  rw [nativePath,
    Lexical.leavesOpen_congr (Native.getLast?_slashPieces_join _ path),
    Lexical.Path.leavesOpen_of_trailing_resolve htrailing] at hopen
  cases hopen

theorem segments_ne_nil (h : naming.Posix)
    (hplace : tree.locate? (naming.nativePath path) = some place)
    (hfile : tree.isDirectory place = false) :
    (naming.normalize path).segments ≠ [] := by
  rw [h.segments_normalize]
  exact Lexical.foldl_enter_ne_nil true [] (Native.slashPieces_ne_nil _)
    (leavesOpen_nativePath hplace hfile)

/-- Whatever moves along the segments of a path to a file leads to that file
too. -/
theorem locate?_of_moves (h : naming.Posix)
    (hplace : tree.locate? (naming.nativePath path) = some place)
    (hfile : tree.isDirectory place = false)
    (hplain : tree.LinkFree ∨ .parent ∉ Native.components path)
    (hmoves : moves (slashPieces other) = (naming.normalize path).segments)
    (hends : endsIdle (slashPieces other) = false) :
    tree.locate? other = some place := by
  have hne : other ≠ [] := by
    rintro rfl
    exact h.segments_ne_nil hplace hfile hmoves.symm
  have hlexical : tree.LinkFree ∨
      Lexical.dotDot ∉ slashPieces (naming.nativePath path) :=
    hplain.imp_right fun hparent hmem =>
      hparent
        (Native.parent_mem_components_iff.mpr (h.dotDot_mem_nativePath hmem))
  refine Tree.locate?_of_lexical hplace hlexical hne ?_ ?_
  · rw [hmoves, h.segments_normalize]
  · rw [hends]
    intro hfalse
    cases hfalse

theorem locate?_normalize (h : naming.Posix)
    (hplace : tree.locate? (naming.nativePath path) = some place)
    (hfile : tree.isDirectory place = false)
    (hplain : tree.LinkFree ∨ .parent ∉ Native.components path) :
    tree.locate? (naming.normalize path).text = some place := by
  have hpath := h.wellFormed_normalize path
  refine h.locate?_of_moves hplace hfile hplain hpath.moves_text ?_
  rw [hpath.endsIdle_text (h.segments_ne_nil hplace hfile),
    h.trailing_normalize hplace hfile]

theorem locate?_join_name (h : naming.Posix)
    (hplace : tree.locate? (naming.nativePath path) = some place)
    (hfile : tree.isDirectory place = false)
    (hplain : tree.LinkFree ∨ .parent ∉ Native.components path)
    {directory : Lexical.Path} (hholder : naming.holder? path = some directory)
    (hne : (naming.normalize path).segments ≠ directory.segments) :
    tree.locate? (Native.join directory.text (naming.name path)) =
      some place := by
  have hrelative : isAbsolute (naming.name path) = false := by
    rw [h.isAbsolute_name, hholder]
    rfl
  refine h.locate?_of_moves hplace hfile hplain ?_ ?_
  · rw [Native.moves_join _ hrelative, (h.wellFormed_holder hholder).moves_text,
      h.segments_eq_append_moves_name hholder]
  · rw [endsIdle, Native.getLast?_slashPieces_join]
    exact h.endsIdle_name hholder hne (h.trailing_normalize hplace hfile)

end UnitNaming.Posix

/-- A path and its name lead to the same file: the name as it stands if it
begins with a slash, and from the first directory that holds the path if it does
not.  The directory itself is left out, which is named by a dot. -/
structure UnitNaming.Reopens (naming : UnitNaming) (tree : Tree) (path : Text) :
    Prop where
  exists_file : ∃ file, tree.canonicalize (naming.nativePath path) = .ok file
  of_isAbsolute : isAbsolute (naming.name path) = true →
    tree.canonicalize (naming.name path) =
      tree.canonicalize (naming.nativePath path)
  of_relative : isAbsolute (naming.name path) = false →
    ∃ directory, naming.holder? path = some directory ∧
      (¬ ((naming.normalize path).root = directory.root ∧
          (naming.normalize path).segments = directory.segments) →
        tree.canonicalize (Native.join directory.text (naming.name path)) =
          tree.canonicalize (naming.nativePath path))

namespace Resolver

theorem posix_naming {workDir : Text} (tree : Tree)
    (h : isAbsolute workDir = true) (options : Options) :
    ((make tree.fileSystem workDir).naming options).Posix :=
  UnitNaming.posix_make
    (Disk.isAbsolute_weaklyCanonical tree.givesAbsolute h) _ _

/-- The name of a file opens it again, if there is no link or no double dot to
set the two apart. -/
theorem reopens_of_resolve {tree : Tree} {workDir : Text} {options : Options}
    {stdin : Stdin} {resolution : Resolution} {path : Text}
    (hworkDir : isAbsolute workDir = true) (hmode : options.mode = .compiler)
    (hresolve : ((make tree.fileSystem workDir).resolve options stdin).result =
      .ok resolution)
    (hpath : path ∈ resolution.paths)
    (hfile : tree.kindOf
      (((make tree.fileSystem workDir).naming options).nativePath path) = .file)
    (hplain : tree.LinkFree ∨ .parent ∉ Native.components path) :
    ((make tree.fileSystem workDir).naming options).Reopens tree path := by
  have hposix := posix_naming tree hworkDir options
  obtain ⟨place, hplace, hplainFile⟩ := Tree.exists_locate?_of_kindOf hfile
  refine ⟨?_, ?_, ?_⟩
  · obtain ⟨hrefusal, -⟩ := taken_of_resolve hmode hresolve
    obtain ⟨-, -, -, hreal⟩ :=
      Loader.file_of_refusal?_eq_none (hrefusal path hpath)
        (beq_iff_eq.mpr hfile)
    obtain ⟨file, hcanonical, -⟩ := hreal rfl
    exact ⟨file, hcanonical⟩
  · intro habsolute
    apply Tree.canonicalize_congr
    rw [hposix.name_of_isAbsolute habsolute,
      hposix.locate?_normalize hplace hplainFile hplain]
    exact hplace.symm
  · intro hrelative
    obtain ⟨directory, hholder⟩ := hposix.exists_holder hrelative
    refine ⟨directory, hholder, ?_⟩
    intro hother
    apply Tree.canonicalize_congr
    rw [hposix.locate?_join_name hplace hplainFile hplain hholder
      fun hsegments => hother (hposix.same_of_segments_eq hholder hsegments)]
    exact hplace.symm

def twinTree : Tree :=
  ⟨[([['w']], .ofNode .directory), ([['w'], ['f']], .ofNode (.file [105])),
    ([['b']], .ofNode .directory), ([['b'], ['f']], .ofNode (.file [104]))]⟩

def twinOptions : Options :=
  ⟨.compiler, false, some ['/', 'b', '/', '.'], [], [],
    [['.', '.', '/', 'b', '/', 'f'], ['f']]⟩

theorem linkFree_twinTree : twinTree.LinkFree :=
  Tree.linkFree_of_entries (by simp [twinTree, Disk.Entry.ofNode])

theorem reopens_of_resolve_twinTree :
    ∃ resolution, ((make twinTree.fileSystem ['/', 'w']).resolve twinOptions
        (.ok [])).result = .ok resolution ∧
      ['.', '.', '/', 'b', '/', 'f'] ∈ resolution.paths ∧ twinTree.LinkFree ∧
      UnitNaming.Reopens
        ((make twinTree.fileSystem ['/', 'w']).naming twinOptions) twinTree
        ['.', '.', '/', 'b', '/', 'f'] := by
  refine ⟨_, rfl, List.mem_cons_self, linkFree_twinTree, ?_⟩
  exact @reopens_of_resolve twinTree _ twinOptions (.ok []) _ _ rfl rfl rfl
    List.mem_cons_self rfl (.inl linkFree_twinTree)

end Resolver

end InputResolution
