import InputResolution.Proofs.Disk.Leads
import InputResolution.Proofs.Disk.Place

namespace InputResolution.Disk.Tree

open Native (moves endsIdle isIdle slashPieces IsName)
open Lexical (dotDot enter leave leavesOpen)

/-! Places that paths lead to.  Such a place stands in the tree without links:
every place above it is a directory, and nothing on the way down to it is a
link.  So its text leads back to it. -/

inductive Standing (tree : Tree) : Place → Prop
  | top : Standing tree []
  | child (habove : Standing tree place)
      (hdirectory : tree.isDirectory place = true)
      (hname : IsName name)
        (hentry : tree.entry? (place ++ [name]) = some entry)
      (hnode : ∀ target, entry.node ≠ .link target) :
      Standing tree (place ++ [name])

namespace Standing

theorem named {tree : Tree} {place : Place} (h : Standing tree place) :
    place.Named := by
  induction h with
  | top => exact Place.named_nil
  | child _ _ hname _ _ ih =>
      intro name hmem
      rcases List.mem_append.mp hmem with hplace | hlast
      · exact ih name hplace
      · exact List.mem_singleton.mp hlast ▸ hname

theorem dropLast {tree : Tree} {place : Place} (h : Standing tree place) :
    Standing tree place.dropLast := by
  cases h with
  | top => exact .top
  | child habove => simpa using habove

theorem isDirectory_dropLast {tree : Tree} {place : Place}
    (h : Standing tree place) (hplace : tree.isDirectory place = true) :
    tree.isDirectory place.dropLast = true := by
  cases h with
  | top => exact hplace
  | child _ hdirectory => simpa using hdirectory

theorem leads_append {tree : Tree} {links : Nat} {place final : Place}
    {others : List Text} (h : Standing tree place)
    (hrest : Leads tree links place others final) :
    Leads tree links [] (place ++ others) final := by
  induction h generalizing others with
  | top => exact hrest
  | child _ hdirectory hname hentry hnode ih =>
      rw [List.append_assoc]
      exact ih
        (.down hdirectory hname.moving hname.ne_dotDot hentry hnode hrest)

theorem leads {tree : Tree} {place : Place} (h : Standing tree place)
    (links : Nat) :
    Leads tree links [] place place := by
  have hend : Leads tree links place [] place := .arrived
  simpa using h.leads_append hend

end Standing

namespace Leads

theorem unique {tree : Tree} {links : Nat} {place first second : Place}
    {pieces : List Text} (hfirst : Leads tree links place pieces first)
    (hsecond : Leads tree links place pieces second) : first = second :=
  Option.some.inj (hfirst.steps_eq.symm.trans hsecond.steps_eq)

theorem isDirectory_start {tree : Tree} {links : Nat} {place final : Place}
    {pieces : List Text} (h : Leads tree links place pieces final)
    (hne : pieces ≠ []) :
    tree.isDirectory place = true := by
  cases h with
  | arrived => exact absurd rfl hne
  | idle hdirectory | up hdirectory | down hdirectory | through hdirectory =>
      exact hdirectory

theorem standing_linkStart {tree : Tree} {place : Place}
    (h : Standing tree place) (target : Text) :
    Standing tree (if Native.isAbsolute target then [] else place) := by
  split
  · exact .top
  · exact h

theorem slash_notMem_target_append {target : Text} {others : List Text}
    (h : ∀ piece ∈ others, '/' ∉ piece) :
    ∀ piece ∈ slashPieces target ++ others, '/' ∉ piece := by
  intro piece hpiece
  rcases List.mem_append.mp hpiece with htarget | hothers
  · exact Native.slash_notMem_piece htarget
  · exact h piece hothers

/-- Pieces without a slash, so that each of them is one name, one way up or
idle. -/
theorem standing {tree : Tree} {links : Nat} {place final : Place}
    {pieces : List Text} (h : Leads tree links place pieces final)
    (hplace : Standing tree place) (hpieces : ∀ piece ∈ pieces, '/' ∉ piece) :
    Standing tree final := by
  induction h with
  | arrived => exact hplace
  | idle _ _ _ ih =>
      exact ih hplace fun other hother => hpieces other (by simp [hother])
  | up _ _ ih =>
      exact ih hplace.dropLast fun other hother =>
        hpieces other (by simp [hother])
  | @down place piece _ _ _ _ hdirectory hmoving hdotDot hentry hnode _ ih =>
      have hname : IsName piece := ⟨hmoving, hdotDot, hpieces piece (by simp)⟩
      exact ih (hplace.child hdirectory hname hentry hnode) fun other hother =>
        hpieces other (by simp [hother])
  | through _ _ _ _ _ _ _ ih =>
      exact ih (standing_linkStart hplace _)
        (slash_notMem_target_append fun other hother =>
          hpieces other (by simp [hother]))

theorem isDirectory_final {tree : Tree} {links : Nat} {place final : Place}
    {pieces : List Text} (h : Leads tree links place pieces final)
    (hplace : Standing tree place) (hpieces : ∀ piece ∈ pieces, '/' ∉ piece)
    (hopen : leavesOpen pieces = true) : tree.isDirectory final = true := by
  induction h with
  | arrived => cases hopen
  | @idle place piece links others final hdirectory _ hrest ih =>
      by_cases hothers : others = []
      · subst hothers
        cases hrest
        exact hdirectory
      · exact ih hplace (fun other hother => hpieces other (by simp [hother]))
          (Lexical.leavesOpen_cons hothers ▸ hopen)
  | @up place links others final hdirectory hrest ih =>
      by_cases hothers : others = []
      · subst hothers
        cases hrest
        exact hplace.isDirectory_dropLast hdirectory
      · exact ih hplace.dropLast
          (fun other hother => hpieces other (by simp [hother]))
          (Lexical.leavesOpen_cons hothers ▸ hopen)
  | @down place piece _ links others final hdirectory hmoving hdotDot hentry
        hnode hrest ih =>
      by_cases hothers : others = []
      · rw [hothers, Lexical.leavesOpen_of_moving hmoving hdotDot] at hopen
        cases hopen
      · have hname : IsName piece := ⟨hmoving, hdotDot, hpieces piece (by simp)⟩
        exact ih (hplace.child hdirectory hname hentry hnode)
          (fun other hother => hpieces other (by simp [hother]))
          (Lexical.leavesOpen_cons hothers ▸ hopen)
  | @through place piece _ target links others final hdirectory hmoving hdotDot
        hentry hnode htarget hrest ih =>
      by_cases hothers : others = []
      · rw [hothers, Lexical.leavesOpen_of_moving hmoving hdotDot] at hopen
        cases hopen
      · rw [Lexical.leavesOpen_cons hothers] at hopen
        refine ih (standing_linkStart hplace target) ?_ ?_
        · exact slash_notMem_target_append fun other hother =>
            hpieces other (by simp [hother])
        · rw [Lexical.leavesOpen_append hothers, hopen]

end Leads

end InputResolution.Disk.Tree
