import InputResolution.Proofs.Source.Confinement
import InputResolution.Proofs.Source.Modes
import Mathlib.Data.List.Forall2

namespace InputResolution

open Disk (Tree)
open Native (Respells SamePath)

/-! Paths that are spelled anew.  Repetitions are told by the text of a path, so
two spellings of one path are two paths to read.  Main statement: that is never
seen in what a request is resolved to, and neither is which spelling was typed,
where each name stands for one file. -/

/-- A token that names a path may be spelled anew; any other token stays as it
is. -/
inductive RespellsToken : Text → Text → Prop
  | path (hpath : NamesPath token)
      (hspelling : Relation.ReflTransGen Respells token other) :
      RespellsToken token other
  | kept (hkind : ¬ NamesPath token) : RespellsToken token token

namespace RespellsToken

variable {token other : Text}

theorem samePath (h : RespellsToken token other) : SamePath token other := by
  cases h with
  | path _ hspelling => exact Native.samePath_of_reflTransGen hspelling
  | kept => exact .refl token

theorem isDirective_iff (h : RespellsToken token other) :
    IsDirective token ↔ IsDirective other :=
  h.samePath.mem_iff (by decide) (by decide)

theorem eq_stdinMarker_iff (h : RespellsToken token other) :
    token = stdinMarker ↔ other = stdinMarker := by
  cases h with
  | kept => exact Iff.rfl
  | path hpath hspelling =>
      refine iff_of_false hpath.1 ?_
      rcases hspelling.cases_tail with rfl | ⟨_, -, hlast⟩
      · exact hpath.1
      · rintro rfl
        exact absurd hlast.slash_mem (by decide)

theorem namesPath_iff (h : RespellsToken token other) :
    NamesPath token ↔ NamesPath other := by
  rw [NamesPath, NamesPath, Ne, Ne, h.eq_stdinMarker_iff, h.isDirective_iff]

theorem eq_of_isDirective (h : RespellsToken token other)
    (hdirective : IsDirective token) :
    token = other := by
  cases h with
  | path hpath => exact absurd hdirective hpath.2
  | kept => rfl

variable {tokens others : List Text}

theorem filter_namesPath (h : List.Forall₂ RespellsToken tokens others) :
    List.Forall₂ SamePath (tokens.filter fun token => NamesPath token)
      (others.filter fun token => NamesPath token) := by
  have hkept :
      List.Forall₂ RespellsToken (tokens.filter fun token => NamesPath token)
      (others.filter fun token => NamesPath token) :=
    List.rel_filter (fun _ _ h => by simpa using h.namesPath_iff) h
  exact hkept.imp fun _ _ h => h.samePath

theorem filter_isDirective (h : List.Forall₂ RespellsToken tokens others) :
    (tokens.filter fun token => IsDirective token) =
      others.filter fun token => IsDirective token := by
  induction h with
  | nil => rfl
  | @cons token other _ _ hhead _ ih =>
      by_cases hdirective : IsDirective token
      · obtain rfl := hhead.eq_of_isDirective hdirective
        simp [hdirective, ih]
      · have hother : ¬ IsDirective other :=
          fun h => hdirective (hhead.isDirective_iff.mpr h)
        simp [hdirective, hother, ih]

theorem stdinMarker_mem_iff (h : List.Forall₂ RespellsToken tokens others) :
    stdinMarker ∈ tokens ↔ stdinMarker ∈ others := by
  induction h with
  | nil => exact Iff.rfl
  | cons hhead _ ih =>
      have hmarker := hhead.eq_stdinMarker_iff
      rw [List.mem_cons, List.mem_cons, ih, eq_comm, hmarker, eq_comm]

theorem forall_not_namesPath_iff
    (h : List.Forall₂ RespellsToken tokens others) :
    (∀ token ∈ tokens, ¬ NamesPath token) ↔
      ∀ token ∈ others, ¬ NamesPath token := by
  induction h with
  | nil => simp
  | cons hhead _ ih =>
      rw [List.forall_mem_cons, List.forall_mem_cons, hhead.namesPath_iff, ih]

end RespellsToken

theorem Options.fault?_of_respelled {options : Options} {tokens : List Text}
    (hmode : options.mode = .compiler)
    (h : List.Forall₂ RespellsToken options.tokens tokens) :
    { options with tokens := tokens }.fault? = options.fault? := by
  have hdirectives :
      { options with tokens := tokens }.directives = options.directives :=
    (RespellsToken.filter_isDirective h).symm
  have hasks : { options with tokens := tokens }.AsksStdin ↔
      options.AsksStdin :=
    (RespellsToken.stdinMarker_mem_iff h).symm
  have hpaths : { options with tokens := tokens }.paths = [] ↔
      options.paths = [] := by
    rw [paths_eq_nil_iff, paths_eq_nil_iff]
    exact (RespellsToken.forall_not_namesPath_iff h).symm
  have hinputs : { options with tokens := tokens }.inputsFault? =
      options.inputsFault? := by
    simp only [inputsFault?, hmode] at hpaths hasks ⊢
    simp only [hpaths, hasks]
  have hdirectories : { options with tokens := tokens }.directoriesFault? =
      options.directoriesFault? := rfl
  rw [fault?, fault?, tokensFault?_eq, tokensFault?_eq, hdirectives, hinputs,
    hdirectories]

namespace Loader

/-- Paths that a loader tells apart by nothing but their texts. -/
structure TakesAlike (loader : Loader) (first second : Text) : Prop where
  name : loader.naming.name first = loader.naming.name second
  kindOf : loader.fs.kindOf (loader.naming.nativePath first) =
    loader.fs.kindOf (loader.naming.nativePath second)
  read : loader.fs.read (loader.naming.nativePath first) =
    loader.fs.read (loader.naming.nativePath second)
  canonicalize : loader.fs.canonicalize (loader.naming.nativePath first) =
    loader.fs.canonicalize (loader.naming.nativePath second)

theorem takesAlike_of_samePath {tree : Tree} {naming : UnitNaming}
    (ignoreMissing : Bool) (hstyle : naming.style = .posix)
    {first second : Text} (h : SamePath first second) :
    (onTree tree naming ignoreMissing).TakesAlike first second := by
  have hplace : tree.locate? (naming.nativePath first) =
      tree.locate? (naming.nativePath second) :=
    Tree.locate?_congr (h.leadsAlike_join naming.workDir.text)
  have hnormal : naming.normalize first = naming.normalize second := by
    rw [UnitNaming.normalize, UnitNaming.normalize, hstyle,
      Lexical.Path.resolve_posix_congr naming.workDir h]
  have hname : naming.name first = naming.name second := by
    rw [UnitNaming.name, UnitNaming.name, hnormal]
  exact ⟨hname, Tree.kindOf_congr hplace, Tree.read_congr hplace,
    Tree.canonicalize_congr hplace⟩

variable {loader : Loader}

namespace TakesAlike

variable {first second : Text}

theorem isFile_eq (h : loader.TakesAlike first second) :
    loader.isFile first = loader.isFile second := by
  rw [isFile, isFile, h.kindOf]

theorem content_eq (h : loader.TakesAlike first second) :
    loader.content first = loader.content second :=
  content_congr h.read

theorem directory_eq (h : loader.TakesAlike first second) :
    loader.directory first = loader.directory second := by
  rw [directory, directory, h.canonicalize]

theorem refusal?_eq_none_iff (h : loader.TakesAlike first second)
    (mode : Mode) :
    loader.refusal? mode first = none ↔ loader.refusal? mode second = none := by
  unfold refusal? fileRefusal?
  rw [h.kindOf, h.read, h.canonicalize]
  cases loader.fs.kindOf (loader.naming.nativePath second) with
  | file =>
      cases loader.fs.read (loader.naming.nativePath second) with
      | error reason => simp
      | ok bytes =>
          cases mode <;>
            cases loader.fs.canonicalize (loader.naming.nativePath second) <;>
            simp
  | missing | other => cases loader.ignoreMissing <;> simp

theorem map_files_eq {typed retyped : List Text}
    (h : List.Forall₂ loader.TakesAlike typed retyped) {f : Text → Text}
    (hf : ∀ {first second}, loader.TakesAlike first second →
      f first = f second) :
    (typed.filter loader.isFile).map f =
      (retyped.filter loader.isFile).map f := by
  induction h with
  | nil => rfl
  | cons hhead _ ih =>
      rw [List.filter_cons, List.filter_cons, hhead.isFile_eq]
      split
      · rw [List.map_cons, List.map_cons, hf hhead, ih]
      · exact ih

end TakesAlike

def OneContentEach (loader : Loader) (paths : List Text) : Prop :=
  ∀ first ∈ paths, ∀ second ∈ paths, loader.isFile first = true →
    loader.isFile second = true →
    loader.naming.name first = loader.naming.name second →
      loader.content first = loader.content second

structure Respelled (loader : Loader) (plan other : Plan) : Prop where
  mode : plan.mode = .compiler
  otherMode : other.mode = .compiler
  readsStdin : plan.readsStdin = other.readsStdin
  paths : ∃ typed retyped, plan.paths = typed.eraseDups ∧
    other.paths = retyped.eraseDups ∧
    List.Forall₂ loader.TakesAlike typed retyped

namespace Respelled

variable {plan other : Plan} {stdin : Stdin} {loaded otherLoaded : Loaded}

theorem exists_after (h : loader.Respelled plan other) {path : Text}
    (hpath : path ∈ plan.paths) :
    ∃ spelling ∈ other.paths, loader.TakesAlike path spelling := by
  obtain ⟨typed, retyped, htyped, hretyped, halike⟩ := h.paths
  rw [htyped, List.mem_eraseDups] at hpath
  simpa only [hretyped, List.mem_eraseDups] using
    exists_related_of_mem halike hpath

theorem exists_before (h : loader.Respelled plan other) {spelling : Text}
    (hspelling : spelling ∈ other.paths) :
    ∃ path ∈ plan.paths, loader.TakesAlike path spelling := by
  obtain ⟨typed, retyped, htyped, hretyped, halike⟩ := h.paths
  rw [hretyped, List.mem_eraseDups] at hspelling
  have hflip : List.Forall₂ (flip loader.TakesAlike) retyped typed :=
    halike.flip
  simpa only [htyped, List.mem_eraseDups, flip] using
    exists_related_of_mem hflip hspelling

theorem any_isFile_eq (h : loader.Respelled plan other) :
    plan.paths.any loader.isFile = other.paths.any loader.isFile := by
  rw [Bool.eq_iff_iff, List.any_eq_true, List.any_eq_true]
  constructor
  · rintro ⟨path, hpath, hfile⟩
    obtain ⟨spelling, hspelling, halike⟩ := h.exists_after hpath
    exact ⟨spelling, hspelling, halike.isFile_eq ▸ hfile⟩
  · rintro ⟨spelling, hspelling, hfile⟩
    obtain ⟨path, hpath, halike⟩ := h.exists_before hspelling
    exact ⟨path, hpath, halike.isFile_eq.symm ▸ hfile⟩

theorem opening_eq (h : loader.Respelled plan other) (stdin : Stdin) :
    opening plan stdin = opening other stdin :=
  opening_congr (h.mode.trans h.otherMode.symm) h.readsStdin stdin

theorem exists_load (h : loader.Respelled plan other)
    (hload : (loader.load plan stdin).result = .ok loaded) :
    ∃ otherLoaded, (loader.load other stdin).result = .ok otherLoaded := by
  obtain ⟨first, hopening, hrefusal, rfl, hsome⟩ := load_eq_ok hload
  refine ⟨_, load_of_forall (h.opening_eq stdin ▸ hopening) ?_ ?_⟩
  · intro spelling hspelling
    obtain ⟨path, hpath, halike⟩ := h.exists_before hspelling
    rw [h.otherMode, ← halike.refusal?_eq_none_iff, ← h.mode]
    exact hrefusal path hpath
  · rw [isEmpty_foldl_take] at hsome ⊢
    rw [← h.any_isFile_eq, hsome]

theorem names_eq (h : loader.Respelled plan other)
    (hload : (loader.load plan stdin).result = .ok loaded)
    (hother : (loader.load other stdin).result = .ok otherLoaded) :
    loaded.sources.names = otherLoaded.sources.names := by
  obtain ⟨typed, retyped, htyped, hretyped, halike⟩ := h.paths
  rw [(holdsSources_of_load h.mode hload).names,
    (holdsSources_of_load h.otherMode hother).names, namesRead, namesRead,
    h.readsStdin, htyped, hretyped, eraseDups_append_map_filter,
    eraseDups_append_map_filter, TakesAlike.map_files_eq halike TakesAlike.name]

theorem allowedDirectories_eq {tree : Tree} {naming : UnitNaming}
    {ignoreMissing : Bool}
    (h : (onTree tree naming ignoreMissing).Respelled plan other)
    (hload : ((onTree tree naming ignoreMissing).load plan stdin).result =
      .ok loaded)
    (hother : ((onTree tree naming ignoreMissing).load other stdin).result =
      .ok otherLoaded) :
    loaded.allowedDirectories = otherLoaded.allowedDirectories := by
  obtain ⟨first, hopening, hrefusal, rfl, -⟩ := load_eq_ok hload
  obtain ⟨otherFirst, hotherOpening, -, rfl, -⟩ := load_eq_ok hother
  rw [h.mode] at hrefusal
  rw [h.mode, h.otherMode, allowedDirectories_foldl_take,
    allowedDirectories_foldl_take, allowedDirectories_opening hopening,
    allowedDirectories_opening hotherOpening]
  refine Native.DirectorySet.foldl_insert_congr (fun _ _ => Sandbox.spelled_inj)
    (spelled_directories hrefusal) fun directory => ?_
  obtain ⟨typed, retyped, htyped, hretyped, halike⟩ := h.paths
  have hfiles := TakesAlike.map_files_eq halike TakesAlike.directory_eq
  have hmem (paths : List Text) :
      directory ∈ (paths.eraseDups.filter
          (onTree tree naming ignoreMissing).isFile).map
          (onTree tree naming ignoreMissing).directory ↔
        directory ∈ (paths.filter (onTree tree naming ignoreMissing).isFile).map
          (onTree tree naming ignoreMissing).directory := by
    simp only [List.mem_map, List.mem_filter, List.mem_eraseDups]
  rw [htyped, hretyped, hmem, hmem, hfiles]

theorem map_content_lastNamed?_eq (h : loader.Respelled plan other)
    (hone : loader.OneContentEach plan.paths) (name : Text) :
    (loader.lastNamed? plan.paths name).map loader.content =
      (loader.lastNamed? other.paths name).map loader.content := by
  cases hlast : loader.lastNamed? plan.paths name with
  | none =>
      rw [lastNamed?_eq_none_iff] at hlast
      have hnone : loader.lastNamed? other.paths name = none := by
        rw [lastNamed?_eq_none_iff]
        intro spelling hspelling hfile
        obtain ⟨path, hpath, halike⟩ := h.exists_before hspelling
        rw [← halike.name]
        exact hlast path hpath (halike.isFile_eq.trans hfile)
      rw [hnone]
  | some path =>
      -- The last file of the name there may be another one: a spelling that is
      -- new there can come after `path`, so the files of one name have to read
      -- the same.
      obtain ⟨hpath, hfile, rfl⟩ := lastNamed?_eq_some hlast
      obtain ⟨spelling, hspelling, halike⟩ := h.exists_after hpath
      obtain ⟨last, hotherLast⟩ :=
        exists_lastNamed? hspelling (halike.isFile_eq.symm.trans hfile)
      rw [halike.name, hotherLast]
      obtain ⟨hmem, hlastFile, hlastName⟩ := lastNamed?_eq_some hotherLast
      obtain ⟨earlier, hearlier, hearlierAlike⟩ := h.exists_before hmem
      have hcontent : loader.content earlier = loader.content path :=
        hone earlier hearlier path hpath
          (hearlierAlike.isFile_eq.trans hlastFile) hfile
          (hearlierAlike.name.trans (hlastName.trans halike.name.symm))
      exact congrArg some (hcontent.symm.trans hearlierAlike.content_eq)

theorem get?_eq (h : loader.Respelled plan other)
    (hload : (loader.load plan stdin).result = .ok loaded)
    (hother : (loader.load other stdin).result = .ok otherLoaded)
    (hone : loader.OneContentEach plan.paths) (name : Text) :
    loaded.sources.get? name = otherLoaded.sources.get? name := by
  obtain ⟨first, hopening, -, rfl, -⟩ := load_eq_ok hload
  obtain ⟨otherFirst, hotherOpening, -, rfl, -⟩ := load_eq_ok hother
  obtain rfl : first = otherFirst := by
    rw [h.opening_eq, hotherOpening] at hopening
    exact (Except.ok.inj hopening).symm
  rw [h.mode, h.otherMode, get?_foldl_take, get?_foldl_take,
    h.map_content_lastNamed?_eq hone]

end Respelled

end Loader

def UnitNaming.NamesOneFile (naming : UnitNaming) (tree : Tree)
    (paths : List Text) : Prop :=
  ∀ first ∈ paths, ∀ second ∈ paths,
    tree.kindOf (naming.nativePath first) = .file →
    tree.kindOf (naming.nativePath second) = .file →
      naming.name first = naming.name second →
        tree.canonicalize (naming.nativePath first) =
          tree.canonicalize (naming.nativePath second)

theorem Loader.oneContentEach_of_namesOneFile {tree : Tree}
    {naming : UnitNaming} {ignoreMissing : Bool} {paths : List Text}
    (hone : naming.NamesOneFile tree paths)
    (hrefusal : ∀ path ∈ paths,
      (onTree tree naming ignoreMissing).refusal? .compiler path = none) :
    (onTree tree naming ignoreMissing).OneContentEach paths := by
  intro first hfirst second hsecond hfirstFile hsecondFile hname
  have hplace := hone first hfirst second hsecond (beq_iff_eq.mp hfirstFile)
    (beq_iff_eq.mp hsecondFile) hname
  obtain ⟨place, -, -, hcanonical, -⟩ :=
    standing_of_refusal?_eq_none (hrefusal second hsecond)
      (beq_iff_eq.mp hsecondFile)
  exact content_congr (Tree.read_congr
    (Tree.locate?_eq_of_canonicalize (hplace.trans hcanonical) hcanonical))

/-- Two resolutions that may differ in the paths they list and in what is read
under a name. -/
structure Resolution.OutlinedAlike (first second : Resolution) : Prop where
  names : first.sources.names = second.sources.names
  allowedDirectories : first.allowedDirectories = second.allowedDirectories
  remappings : first.remappings = second.remappings
  basePath : first.basePath = second.basePath
  includePaths : first.includePaths = second.includePaths

namespace Resolver

theorem respelled_plan {tree : Tree} {workDir : Text} {options : Options}
    {tokens : List Text} (hmode : options.mode = .compiler)
    (htokens : List.Forall₂ RespellsToken options.tokens tokens) :
    ((make tree.fileSystem workDir).loader options).Respelled options.plan
      { options with tokens := tokens }.plan where
  mode := hmode
  otherMode := hmode
  readsStdin := by
    rw [Options.plan, Options.plan, decide_eq_decide,
      Options.readsStdin_iff_of_compiler hmode,
      RespellsToken.stdinMarker_mem_iff htokens]
    exact (@Options.readsStdin_iff_of_compiler { options with tokens := tokens }
      hmode).symm
  paths :=
    ⟨_, _, rfl, rfl, (RespellsToken.filter_namesPath htokens).imp fun _ _ h =>
      Loader.takesAlike_of_samePath options.ignoreMissing rfl h⟩

/-- Whatever links there are, a request whose paths are spelled anew is resolved
to the same sources, the same allowed directories and the same remappings. -/
theorem resolve_respelled {tree : Tree} {workDir : Text} {options : Options}
    {tokens : List Text} {stdin : Stdin} {resolution : Resolution}
    (hmode : options.mode = .compiler)
    (htokens : List.Forall₂ RespellsToken options.tokens tokens)
    (h : ((make tree.fileSystem workDir).resolve options stdin).result =
      .ok resolution) :
    ∃ other,
      ((make tree.fileSystem workDir).resolve { options with tokens := tokens }
          stdin).result = .ok other ∧
      resolution.OutlinedAlike other ∧
      (((make tree.fileSystem workDir).naming options).NamesOneFile tree
          resolution.paths →
        ∀ name, resolution.sources.get? name = other.sources.get? name) := by
  obtain ⟨plan, loaded, hplan, hload, rfl⟩ := resolve_eq_ok h
  obtain ⟨hfault, rfl⟩ := Plan.ofOptions_eq_ok hplan
  have hrespelled := @respelled_plan tree workDir options tokens hmode htokens
  obtain ⟨otherLoaded, hother⟩ := hrespelled.exists_load hload
  have hremappings :
      options.remappings = { options with tokens := tokens }.remappings := by
    rw [Options.remappings_eq, Options.remappings_eq]
    exact congrArg (·.filterMap Remapping.parse?)
      (RespellsToken.filter_isDirective htokens)
  refine ⟨describe { options with tokens := tokens }
    ((make tree.fileSystem workDir).naming options)
    { options with tokens := tokens }.plan otherLoaded, ?_, ?_, ?_⟩
  · have hloader :
        (make tree.fileSystem workDir).loader
            { options with tokens := tokens } =
        (make tree.fileSystem workDir).loader options := rfl
    rw [result_resolve, Options.fault?_of_respelled hmode htokens, hfault,
      hloader, hother]
    rfl
  · exact ⟨hrespelled.names_eq hload hother,
      hrespelled.allowedDirectories_eq hload hother,
      hremappings, rfl, rfl⟩
  · intro hone
    obtain ⟨hrefusal, -⟩ := taken_of_resolve hmode h
    exact hrespelled.get?_eq hload hother
      (Loader.oneContentEach_of_namesOneFile hone hrefusal)

/-- The working directory holds a link to a directory with a file, and there is
a second file of that name. -/
def linkedDirectoryTree : Tree :=
  ⟨[([['w']], .ofNode .directory), ([['w'], ['l']], .ofNode (.link ['/', 'd'])),
    ([['d']], .ofNode .directory), ([['d'], ['f']], .ofNode (.file [104])),
    ([['e']], .ofNode .directory), ([['e'], ['f']], .ofNode (.file [105]))]⟩

def repeatedOptions : Options :=
  ⟨.compiler, false, none, [], [],
    [['l', '/', 'f'], ['a', '=', 'b'], ['l', '/', 'f']]⟩

def repeatedRespelled : List Text :=
  [['.', '/', 'l', '/', '/', 'f'], ['a', '=', 'b'], ['l', '/', '.', '/', 'f']]

theorem respells_repeatedOptions :
    List.Forall₂ RespellsToken repeatedOptions.tokens repeatedRespelled := by
  have hdoubled : Respells ['l', '/', 'f'] ['l', '/', '/', 'f'] :=
    @Respells.doubled ['l'] ['f'] ⟨'l', by decide⟩
  have hleading :
      Respells ['l', '/', '/', 'f'] ['.', '/', 'l', '/', '/', 'f'] :=
    @Respells.dotted [] 'l' ['/', '/', 'f'] (.inl rfl) (by decide)
  have hinner : Respells ['l', '/', 'f'] ['l', '/', '.', '/', 'f'] :=
    @Respells.dotted ['l', '/'] 'f' [] (.inr rfl) (by decide)
  exact .cons (.path (by decide) (.tail (.single hdoubled) hleading))
    (.cons (.kept (by decide))
      (.cons (.path (by decide) (.single hinner)) .nil))

theorem resolve_respelled_linkedDirectoryTree :
    ∃ resolution other,
      ((make linkedDirectoryTree.fileSystem ['/', 'w']).resolve repeatedOptions
          (.ok [])).result = .ok resolution ∧
        ((make linkedDirectoryTree.fileSystem ['/', 'w']).resolve
          { repeatedOptions with tokens := repeatedRespelled }
          (.ok [])).result = .ok other ∧
        resolution.paths.length = 1 ∧ other.paths.length = 2 ∧
        resolution.OutlinedAlike other ∧
        ∀ name, resolution.sources.get? name = other.sources.get? name := by
  obtain ⟨other, hother, houtlined, hsources⟩ :=
    @resolve_respelled linkedDirectoryTree ['/', 'w']
    repeatedOptions repeatedRespelled (.ok []) _ rfl respells_repeatedOptions
      rfl
  refine ⟨_, other, rfl, hother, rfl, ?_, houtlined, hsources ?_⟩
  · obtain rfl := Except.ok.inj hother
    rfl
  · intro first hfirst second hsecond _ _ _
    rw [List.mem_singleton.mp hfirst, List.mem_singleton.mp hsecond]

/-- Where two files share a name, a new spelling of the first one brings its
content back. -/
example :
    let content (tokens : List Text) : Option Text :=
      ((make linkedDirectoryTree.fileSystem ['/', 'w']).resolve
        ⟨.compiler, false, some ['/', 'd'], [['/', 'e']], [], tokens⟩
        (.ok [])).result.toOption.bind (·.sources.get? ['f'])
    content [['/', 'd', '/', 'f'], ['/', 'e', '/', 'f'], ['/', 'd', '/', 'f']] =
      some ['i'] ∧
      content [['/', 'd', '/', 'f'], ['/', 'e', '/', 'f'],
        ['/', 'd', '/', '/', 'f']] = some ['h'] :=
  ⟨rfl, rfl⟩

end Resolver

end InputResolution
