import InputResolution.Proofs.Disk.Locating
import InputResolution.Proofs.Native.DirectorySet
import InputResolution.Proofs.Source.ResolutionRun

namespace InputResolution

open Disk (Place Tree)

/-! The directories that loaded files open to imports, in a tree with any links.
Main statement: they are the directories of the real places of the files and
nothing more, and what they permit can be read off the texts. -/

namespace Sandbox

/-- A directory as `canonicalize` would spell it. -/
def Spelled (directory : Text) : Prop :=
  ∃ place, Place.Named place ∧ directory = place.text

theorem spelled_inj {first second : Text} (hfirst : Spelled first)
    (hsecond : Spelled second)
    (h : Native.components first = Native.components second) :
    first = second := by
  obtain ⟨firstPlace, hfirstNamed, rfl⟩ := hfirst
  obtain ⟨secondPlace, hsecondNamed, rfl⟩ := hsecond
  exact (Place.components_text_inj hfirstNamed hsecondNamed).mp h

theorem permits_top (allowed : Native.DirectorySet) :
    permits allowed (Place.text []) = false := rfl

theorem permits_text {allowed : Native.DirectorySet} {place : Place}
    (hplace : place.Named) (hne : place ≠ []) :
    permits allowed place.text =
      allowed.toList.any (Native.startsWith (Place.text place.dropLast)) := by
  rw [permits, Place.parent?_text hplace hne]

/-- Whole components decide, so a slash has to follow the text of a member. -/
theorem permits_text_iff {allowed : Native.DirectorySet}
    (hallowed : ∀ member ∈ allowed.toList, Spelled member) {place : Place}
    (hplace : place.Named) (hne : place ≠ []) :
    permits allowed place.text = true ↔
      ∃ member ∈ allowed.toList, member = ['/'] ∨
        member ++ ['/'] <+: place.text := by
  rw [permits_text hplace hne, List.any_eq_true]
  apply exists_congr
  intro member
  apply and_congr_right
  intro hmember
  obtain ⟨directory, hdirectory, rfl⟩ := hallowed member hmember
  rw [Place.startsWith_text_iff hdirectory hplace.dropLast]
  by_cases htop : directory = []
  · subst htop
    exact iff_of_true List.nil_prefix (Or.inl rfl)
  · have htext : directory.text ≠ ['/'] := fun heq =>
      htop (Place.text_injective hdirectory Place.named_nil heq)
    rw [Place.prefix_text_iff hdirectory hplace htop hne]
    simp [htext]

theorem permits_singleton {directory tail : Text} {place : Place}
    (hdirectory : Spelled directory) (hplace : place.Named)
    (htop : directory ≠ ['/']) (htext : place.text = directory ++ tail)
    (htail : tail.head? ≠ some '/') :
    permits ⟨[directory]⟩ place.text = false := by
  by_cases hne : place = []
  · rw [hne, permits_top]
  · rw [Bool.eq_false_iff]
    intro hpermits
    have honly : ∀ member ∈ [directory], Spelled member := by
      intro member hmember
      exact List.mem_singleton.mp hmember ▸ hdirectory
    obtain ⟨member, hmember, hcovers⟩ :=
      (permits_text_iff honly hplace hne).mp hpermits
    obtain rfl := List.mem_singleton.mp hmember
    rcases hcovers with heq | hbelow
    · exact htop heq
    · rw [htext, List.prefix_append_right_inj] at hbelow
      obtain ⟨rest, rfl⟩ := hbelow
      exact htail rfl

/-- The directories that the regular files among some paths open. -/
structure Confines (tree : Tree) (naming : UnitNaming) (paths : List Text)
    (allowed : Native.DirectorySet) : Prop where
  mem_iff : ∀ directory, directory ∈ allowed.toList ↔
    ∃ path ∈ paths, tree.kindOf (naming.nativePath path) = .file ∧
      ∃ file, tree.canonicalize (naming.nativePath path) = .ok file ∧
        directory = directoryOf file
  canonical : ∀ directory ∈ allowed.toList, ∀ place,
    tree.canonicalize directory = .ok place → place = directory
  permits_iff : ∀ query file, tree.canonicalize query = .ok file →
    file ≠ ['/'] →
    (permits allowed file = true ↔
      ∃ directory ∈ allowed.toList, directory = ['/'] ∨
        directory ++ ['/'] <+: file)
  permits_file : ∀ path ∈ paths, tree.kindOf (naming.nativePath path) = .file →
    ∃ file, tree.canonicalize (naming.nativePath path) = .ok file ∧
      permits allowed file = true
  refuses_sibling : ∀ directory ∈ allowed.toList, directory ≠ ['/'] →
    ∀ query tail, tree.canonicalize query = .ok (directory ++ tail) →
      tail.head? ≠ some '/' →
        permits ⟨[directory]⟩ (directory ++ tail) = false

end Sandbox

namespace Loader

open Sandbox (Spelled Confines)

abbrev onTree (tree : Tree) (naming : UnitNaming) (ignoreMissing : Bool) :
    Loader :=
  ⟨tree.fileSystem, naming, ignoreMissing⟩

variable {tree : Tree} {naming : UnitNaming} {ignoreMissing : Bool}
  {paths : List Text}

theorem standing_of_refusal?_eq_none {path : Text}
    (hrefusal : (onTree tree naming ignoreMissing).refusal? .compiler path =
      none)
    (hfile : tree.kindOf (naming.nativePath path) = .file) :
    ∃ place, tree.Standing place ∧ place ≠ [] ∧
      tree.canonicalize (naming.nativePath path) = .ok place.text ∧
      (onTree tree naming ignoreMissing).directory path =
        Place.text place.dropLast := by
  obtain ⟨-, -, -, hreal⟩ :=
    file_of_refusal?_eq_none hrefusal (beq_iff_eq.mpr hfile)
  obtain ⟨file, hcanonical, hdirectory⟩ := hreal rfl
  obtain ⟨place, hplace, rfl⟩ := Tree.canonicalize_eq_ok hcanonical
  have hstanding := Tree.standing_of_locate? hplace
  refine ⟨place, hstanding, ?_, hcanonical, ?_⟩
  · rintro rfl
    obtain ⟨other, hother, hplain⟩ := Tree.exists_locate?_of_kindOf hfile
    obtain rfl : [] = other := Option.some.inj (hplace.symm.trans hother)
    rw [Tree.isDirectory_top_of_locate? hplace] at hplain
    cases hplain
  · rw [hdirectory, Place.directoryOf_text hstanding.named]

theorem spelled_directories
    (hrefusal : ∀ path ∈ paths,
      (onTree tree naming ignoreMissing).refusal? .compiler path = none) :
    ∀ directory ∈ (paths.filter (onTree tree naming ignoreMissing).isFile).map
      (onTree tree naming ignoreMissing).directory, Spelled directory := by
  intro directory hmember
  obtain ⟨path, hpath, rfl⟩ := List.mem_map.mp hmember
  obtain ⟨hmem, hfile⟩ := List.mem_filter.mp hpath
  obtain ⟨place, hstanding, -, -, hdirectory⟩ :=
    standing_of_refusal?_eq_none (hrefusal path hmem) (beq_iff_eq.mp hfile)
  exact ⟨place.dropLast, hstanding.named.dropLast, hdirectory⟩

theorem mem_allowedDirectories
    (hrefusal : ∀ path ∈ paths,
      (onTree tree naming ignoreMissing).refusal? .compiler path = none)
    {first : Loaded} (hfirst : first.allowedDirectories = .empty)
    (member : Text) :
    member ∈ (paths.foldl ((onTree tree naming ignoreMissing).take .compiler)
        first).allowedDirectories.toList ↔
      ∃ path ∈ paths, tree.kindOf (naming.nativePath path) = .file ∧
        member = (onTree tree naming ignoreMissing).directory path := by
  have hfile {path : Text} :
      (onTree tree naming ignoreMissing).isFile path = true ↔
      tree.kindOf (naming.nativePath path) = .file := beq_iff_eq
  rw [allowedDirectories_foldl_take, hfirst,
    Native.DirectorySet.mem_foldl_insert (fun _ _ => Sandbox.spelled_inj)
      (spelled_directories hrefusal) (by simp)]
  simp only [Native.DirectorySet.toList_empty, List.not_mem_nil, or_false,
    List.mem_map, List.mem_filter, hfile, and_assoc]
  apply exists_congr
  intro path
  simp only [eq_comm]

theorem confines_of_mem_iff {allowed : Native.DirectorySet}
    (hrefusal : ∀ path ∈ paths,
      (onTree tree naming ignoreMissing).refusal? .compiler path = none)
    (hmem : ∀ member, member ∈ allowed.toList ↔
      ∃ path ∈ paths, tree.kindOf (naming.nativePath path) = .file ∧
        member = (onTree tree naming ignoreMissing).directory path) :
    Confines tree naming paths allowed := by
  have hstands : ∀ member ∈ allowed.toList,
      ∃ place, tree.Standing place ∧ member = place.text := by
    intro member hmember
    obtain ⟨path, hpath, hfile, rfl⟩ := (hmem member).mp hmember
    obtain ⟨place, hstanding, -, -, hdirectory⟩ :=
      standing_of_refusal?_eq_none (hrefusal path hpath) hfile
    exact ⟨place.dropLast, hstanding.dropLast, hdirectory⟩
  have hspelled : ∀ member ∈ allowed.toList, Spelled member := by
    intro member hmember
    obtain ⟨place, hstanding, rfl⟩ := hstands member hmember
    exact ⟨place, hstanding.named, rfl⟩
  refine ⟨?_, ?_, ?_, ?_, ?_⟩
  · intro directory
    rw [hmem]
    apply exists_congr
    intro path
    apply and_congr_right
    intro hpath
    apply and_congr_right
    intro hfile
    obtain ⟨place, hstanding, -, hcanonical, hdirectory⟩ :=
      standing_of_refusal?_eq_none (hrefusal path hpath) hfile
    rw [hdirectory, hcanonical, ← Place.directoryOf_text hstanding.named]
    simp
  · intro directory hdirectory place hcanonical
    obtain ⟨above, hstanding, rfl⟩ := hstands directory hdirectory
    exact Tree.canonicalize_text hstanding hcanonical
  · intro query file hcanonical htop
    obtain ⟨place, hplace, rfl⟩ := Tree.canonicalize_eq_ok hcanonical
    have hne : place ≠ [] := by
      rintro rfl
      exact htop rfl
    exact Sandbox.permits_text_iff hspelled
      (Tree.standing_of_locate? hplace).named hne
  · intro path hpath hfile
    obtain ⟨place, hstanding, hne, hcanonical, hdirectory⟩ :=
      standing_of_refusal?_eq_none (hrefusal path hpath) hfile
    refine ⟨place.text, hcanonical, ?_⟩
    rw [Sandbox.permits_text hstanding.named hne, List.any_eq_true]
    refine ⟨Place.text place.dropLast,
      (hmem _).mpr ⟨path, hpath, hfile, hdirectory.symm⟩, ?_⟩
    exact (Place.startsWith_text_iff hstanding.named.dropLast
      hstanding.named.dropLast).mpr
      (List.prefix_refl _)
  · intro directory hdirectory htop query tail hcanonical htail
    obtain ⟨place, hplace, htext⟩ := Tree.canonicalize_eq_ok hcanonical
    rw [htext]
    exact Sandbox.permits_singleton (hspelled directory hdirectory)
      (Tree.standing_of_locate? hplace).named htop htext.symm htail

end Loader

/-- Whatever links the tree holds, a resolution opens the directories in which
its files really lie and no other directory; a document opens none. -/
theorem Resolver.confines_of_resolve {tree : Tree} {workDir : Text}
    {options : Options} {stdin : Stdin} {resolution : Resolution}
    (h : ((Resolver.make tree.fileSystem workDir).resolve options
      stdin).result = .ok resolution) :
    (options.mode = .compiler →
        Sandbox.Confines tree
          ((Resolver.make tree.fileSystem workDir).naming options)
          resolution.paths resolution.allowedDirectories) ∧
      (options.mode = .standardJson →
        resolution.allowedDirectories.toList = []) := by
  constructor
  · intro hmode
    obtain ⟨hrefusal, first, hfirst, -, hallowed⟩ := taken_of_resolve hmode h
    rw [hallowed]
    exact Loader.confines_of_mem_iff hrefusal
      (Loader.mem_allowedDirectories hrefusal hfirst)
  · intro hmode
    obtain ⟨plan, loaded, hplan, hload, rfl⟩ := resolve_eq_ok h
    obtain ⟨first, hopening, -, rfl, -⟩ := Loader.load_eq_ok hload
    simp only [describe, Plan.mode_ofOptions hplan, hmode,
      Loader.allowedDirectories_foldl_take_standardJson,
      Loader.allowedDirectories_opening hopening,
      Native.DirectorySet.toList_empty]

namespace Sandbox

/-- The working directory holds a link to a file elsewhere; that file's
directory has a sibling. -/
def linkedTree : Tree :=
  ⟨[([['w']], .ofNode .directory),
    ([['w'], ['l']], .ofNode (.link ['/', 'd', '/', 'f'])),
    ([['d']], .ofNode .directory), ([['d'], ['f']], .ofNode (.file [104])),
    ([['d', 'x']], .ofNode .directory),
    ([['d', 'x'], ['g']], .ofNode (.file []))]⟩

def linkedOptions : Options :=
  ⟨.compiler, false, none, [], [['/', 'd', 'x']],
    [['l'], ['a', '=', '/', 'd', 'x']]⟩

theorem confines_of_resolve_linkedTree :
    ∃ resolution,
      ((Resolver.make linkedTree.fileSystem ['/', 'w']).resolve linkedOptions
        (.ok [])).result = .ok resolution ∧
      resolution.allowedDirectories.toList = [['/', 'd']] ∧
      Confines linkedTree
        ((Resolver.make linkedTree.fileSystem ['/', 'w']).naming linkedOptions)
        resolution.paths resolution.allowedDirectories :=
  ⟨_, rfl, rfl, (@Resolver.confines_of_resolve linkedTree _ linkedOptions
    (.ok []) _ rfl).1 rfl⟩

end Sandbox

end InputResolution
