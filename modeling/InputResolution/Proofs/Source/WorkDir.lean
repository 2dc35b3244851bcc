import InputResolution.Source.Resolution
import InputResolution.Proofs.Disk.Straight

namespace InputResolution.Resolver

open Disk (Place Tree)

/-! The working directory of a resolver against the links of the disk.  What is
missing of it is read lexically, and a double dot there can lead back to a
link. -/

/-- The working directory is straight exactly where no existing part of it is
reached over a link: so where it exists, and where nothing but names follows its
first missing name. -/
theorem straight_workDir_iff {tree : Tree} {workDir : Text}
    (htop : ∃ top, tree.canonicalize ['/'] = .ok top)
    (hworkDir : Native.isAbsolute workDir = true) :
    (tree.fileSystem.Straight (make tree.fileSystem workDir).workDir ↔
        tree.Unlinked (Place.ofPath (make tree.fileSystem workDir).workDir)) ∧
      ((∃ place, tree.canonicalize workDir = .ok place) ∨
        tree.EndsMissing workDir →
        tree.fileSystem.Straight (make tree.fileSystem workDir).workDir) := by
  have hiff := Tree.straight_weaklyCanonical_iff htop hworkDir
  exact ⟨hiff,
    fun h => hiff.mpr (Tree.unlinked_weaklyCanonical htop hworkDir h)⟩

def linkedTree : Tree :=
  ⟨[([['r']], .ofNode .directory), ([['l']], .ofNode (.link ['/', 'r']))]⟩

theorem straight_workDir_linkedTree :
    linkedTree.canonicalize ['/'] = .ok ['/'] ∧
      Native.isAbsolute ['/', 'l', '/', 'm', '/', 'n'] = true ∧
      linkedTree.EndsMissing ['/', 'l', '/', 'm', '/', 'n'] ∧
      (make linkedTree.fileSystem ['/', 'l', '/', 'm', '/', 'n']).workDir =
        ['/', 'r', '/', 'm', '/', 'n'] ∧
      linkedTree.fileSystem.Straight
        (make linkedTree.fileSystem
            ['/', 'l', '/', 'm', '/', 'n']).workDir := by
  have hmissing : linkedTree.EndsMissing ['/', 'l', '/', 'm', '/', 'n'] :=
    ⟨['/', 'l'], ['/', 'r'], ['m'], [['n']], rfl, rfl, by decide, rfl⟩
  exact ⟨rfl, rfl, hmissing, rfl,
    (straight_workDir_iff ⟨_, rfl⟩ rfl).2 (.inr hmissing)⟩

/-- The missing name is taken back, and what is left is the link. -/
theorem not_straight_workDir_linkedTree :
    linkedTree.canonicalize ['/'] = .ok ['/'] ∧
      Native.isAbsolute ['/', 'm', '/', '.', '.', '/', 'l'] = true ∧
      ¬ linkedTree.fileSystem.Straight
        (make linkedTree.fileSystem
            ['/', 'm', '/', '.', '.', '/', 'l']).workDir := by
  refine ⟨rfl, rfl, fun hstraight => ?_⟩
  have hsame : Native.components ['/', 'r'] = Native.components ['/', 'l'] :=
    hstraight.parts rfl rfl
  revert hsame
  decide

end InputResolution.Resolver
