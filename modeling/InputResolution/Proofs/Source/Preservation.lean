import InputResolution.Proofs.Source.Identity
import InputResolution.Proofs.Source.Reopening

namespace InputResolution

open Disk (Place Tree)
open Native (isAbsolute)

/-! A name that comes again replaces the content it had.  Main statement:
without include paths that loses no file, since only the paths of one file share
a name. -/

namespace UnitNaming.Posix

variable {naming : UnitNaming} {tree : Tree} {first second : Text}

theorem locate?_eq_of_name_eq (h : naming.Posix)
    (hincludes : naming.includePaths = [])
    (hname : naming.name first = naming.name second)
    (hfirst : tree.kindOf (naming.nativePath first) = .file)
    (hsecond : tree.kindOf (naming.nativePath second) = .file)
    (hplainFirst : tree.LinkFree ∨ .parent ∉ Native.components first)
    (hplainSecond : tree.LinkFree ∨ .parent ∉ Native.components second) :
    tree.locate? (naming.nativePath first) =
      tree.locate? (naming.nativePath second) := by
  obtain ⟨place, hplace, hplain⟩ := Tree.exists_locate?_of_kindOf hfirst
  obtain ⟨other, hother, hotherPlain⟩ := Tree.exists_locate?_of_kindOf hsecond
  have hsegments := (h.coincides_of_name_eq hincludes hname).1.2
  have hpath := h.wellFormed_normalize second
  have hshared : tree.locate? (naming.normalize second).text = some place := by
    refine h.locate?_of_moves hplace hplain hplainFirst
      (hpath.moves_text.trans hsegments.symm) ?_
    rw [hpath.endsIdle_text (h.segments_ne_nil hother hotherPlain),
      h.trailing_normalize hother hotherPlain]
  rw [hplace, hother, ← hshared,
    h.locate?_normalize hother hotherPlain hplainSecond]

end UnitNaming.Posix

namespace Loader

/-- The name of a file holds the content of the last file of that name, which is
its own where the files of one name hold the same. -/
theorem get?_name_foldl_take {loader : Loader} {paths : List Text} {path : Text}
    (hpath : path ∈ paths) (hfile : loader.isFile path = true)
    (hsame : ∀ other ∈ paths, loader.isFile other = true →
      loader.naming.name other = loader.naming.name path →
        loader.content other = loader.content path) (first : Loaded) :
    (paths.foldl (loader.take .compiler) first).sources.get?
        (loader.naming.name path) =
      some (loader.content path) := by
  obtain ⟨last, hlast⟩ := exists_lastNamed? hpath hfile
  obtain ⟨hmem, hlastFile, hname⟩ := lastNamed?_eq_some hlast
  rw [get?_foldl_take, hlast, Option.map_some, Option.some_or,
    hsame last hmem hlastFile hname]

end Loader

/-- Every file of a resolution without include paths is there under its name,
and only one file is. -/
theorem Resolver.preserves_of_resolve {tree : Tree} {workDir : Text}
    {options : Options} {stdin : Stdin} {resolution : Resolution}
    (hworkDir : isAbsolute workDir = true) (hmode : options.mode = .compiler)
    (hincludes : options.includePaths = [])
    (hresolve : ((make tree.fileSystem workDir).resolve options stdin).result =
      .ok resolution)
    (hplain : tree.LinkFree ∨
      ∀ path ∈ resolution.paths, .parent ∉ Native.components path) :
    let naming := (make tree.fileSystem workDir).naming options
    (∀ path ∈ resolution.paths, tree.kindOf (naming.nativePath path) = .file →
        ∃ bytes, tree.read (naming.nativePath path) = .ok bytes ∧
          resolution.sources.get? (naming.name path) =
            some (Utf8.decodeLossy bytes)) ∧
      ∀ first ∈ resolution.paths, ∀ second ∈ resolution.paths,
        tree.kindOf (naming.nativePath first) = .file →
          tree.kindOf (naming.nativePath second) = .file →
            tree.canonicalize (naming.nativePath first) ≠
                tree.canonicalize (naming.nativePath second) →
              naming.name first ≠ naming.name second := by
  intro naming
  have hposix : naming.Posix := posix_naming tree hworkDir options
  have hnone : naming.includePaths = [] := by
    simp [naming, Resolver.naming, UnitNaming.make, hincludes]
  have hlocate : ∀ first ∈ resolution.paths, ∀ second ∈ resolution.paths,
      tree.kindOf (naming.nativePath first) = .file →
        tree.kindOf (naming.nativePath second) = .file →
          naming.name first = naming.name second →
            tree.locate? (naming.nativePath first) =
              tree.locate? (naming.nativePath second) := by
    intro first hfirst second hsecond hfirstFile hsecondFile hname
    exact hposix.locate?_eq_of_name_eq hnone hname hfirstFile hsecondFile
      (hplain.imp_right fun h => h first hfirst)
        (hplain.imp_right fun h => h second hsecond)
  constructor
  · intro path hpath hfile
    obtain ⟨hrefusal, first, -, hsources, -⟩ := taken_of_resolve hmode hresolve
    obtain ⟨bytes, hread, hcontent, -⟩ :=
      Loader.file_of_refusal?_eq_none (hrefusal path hpath)
        (beq_iff_eq.mpr hfile)
    refine ⟨bytes, hread, ?_⟩
    rw [hsources, ← hcontent]
    refine Loader.get?_name_foldl_take hpath (beq_iff_eq.mpr hfile) ?_ first
    intro other hother hotherFile hname
    have hread := Tree.read_congr
      (hlocate other hother path hpath (beq_iff_eq.mp hotherFile) hfile hname)
    exact congrArg (fun answer => Utf8.decodeLossy (answer.toOption.getD []))
      hread
  · intro first hfirst second hsecond hfirstFile hsecondFile hdifferent hname
    exact hdifferent (Tree.canonicalize_congr
      (hlocate first hfirst second hsecond hfirstFile hsecondFile hname))

theorem Resolver.preserves_of_resolve_twinTree :
    ∃ resolution, ((make twinTree.fileSystem ['/', 'w']).resolve twinOptions
        (.ok [])).result = .ok resolution ∧ twinTree.LinkFree ∧
      (∃ bytes, twinTree.read ['/', 'w', '/', 'f'] = .ok bytes ∧
        resolution.sources.get? ['/', 'w', '/', 'f'] =
          some (Utf8.decodeLossy bytes)) ∧
      ((make twinTree.fileSystem ['/', 'w']).naming twinOptions).name
          ['.', '.', '/', 'b', '/', 'f'] ≠
        ((make twinTree.fileSystem ['/', 'w']).naming twinOptions).name
            ['f'] := by
  have hpreserves :=
    @preserves_of_resolve twinTree ['/', 'w'] twinOptions (.ok []) _ rfl rfl rfl
    rfl (.inl linkFree_twinTree)
  refine ⟨_, rfl, linkFree_twinTree, ?_, ?_⟩
  · exact hpreserves.1 ['f'] (List.mem_cons_of_mem _ List.mem_cons_self) rfl
  · refine hpreserves.2 _ List.mem_cons_self _
      (List.mem_cons_of_mem _ List.mem_cons_self) rfl rfl ?_
    intro heq
    cases heq

end InputResolution
