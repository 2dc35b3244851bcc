import InputResolution.Disk.Tree
import InputResolution.Proofs.Lexical.Moves

namespace InputResolution.Disk.Tree

open Native (moves endsIdle isIdle slashPieces)
open Lexical (dotDot enter leave leavesOpen)

/-! Following a path as a relation: what a run of `steps` that arrives has done,
piece by piece. -/

def isLink (tree : Tree) (place : Place) : Prop :=
  ∃ entry target, tree.entry? place = some entry ∧ entry.node = .link target

def LinkFree (tree : Tree) : Prop :=
  ∀ place, ¬ tree.isLink place

theorem linkFree_of_entries {tree : Tree}
    (h : ∀ item ∈ tree.entries, ∀ target, item.2.node ≠ .link target) :
    tree.LinkFree := by
  rintro place ⟨entry, target, hentry, hnode⟩
  unfold entry? at hentry
  split at hentry
  · rename_i found hfound
    cases hentry
    obtain ⟨before, after, hentries, -⟩ := List.lookup_eq_some_iff.mp hfound
    exact h (place, entry) (by simp [hentries]) target hnode
  · split at hentry
    · cases hentry
      cases hnode
    · cases hentry

inductive Leads (tree : Tree) : Nat → Place → List Text → Place → Prop
  | arrived : Leads tree links place [] place
  | idle (hdirectory : tree.isDirectory place = true)
      (hidle : isIdle piece = true)
      (hrest : Leads tree links place others final) :
      Leads tree links place (piece :: others) final
  | up (hdirectory : tree.isDirectory place = true)
      (hrest : Leads tree links place.dropLast others final) :
      Leads tree links place (dotDot :: others) final
  | down (hdirectory : tree.isDirectory place = true)
      (hmoving : isIdle piece = false)
      (hdotDot : piece ≠ dotDot)
        (hentry : tree.entry? (place ++ [piece]) = some entry)
      (hnode : ∀ target, entry.node ≠ .link target)
      (hrest : Leads tree links (place ++ [piece]) others final) :
      Leads tree links place (piece :: others) final
  | through (hdirectory : tree.isDirectory place = true)
      (hmoving : isIdle piece = false)
      (hdotDot : piece ≠ dotDot)
        (hentry : tree.entry? (place ++ [piece]) = some entry)
      (hnode : entry.node = .link target) (htarget : target ≠ [])
      (hrest : Leads tree links (if Native.isAbsolute target then [] else place)
        (slashPieces target ++ others) final) :
      Leads tree (links + 1) place (piece :: others) final

theorem moving_iff {piece : Text} :
    isIdle piece = false ↔ ¬ (piece = [] ∨ piece = ['.']) := by
  simp [isIdle]

theorem leads_of_stepsWith {tree : Tree} {links : Nat}
    {follow : Place → List Text → Option Place}
    (hfollow : ∀ place pieces final, follow place pieces = some final →
      ∃ fewer, links = fewer + 1 ∧ Leads tree fewer place pieces final)
    {place final : Place} {pieces : List Text}
    (h : tree.stepsWith follow place pieces = some final) :
    Leads tree links place pieces final := by
  induction pieces generalizing place with
  | nil =>
      obtain rfl : place = final := by simpa [stepsWith] using h
      exact .arrived
  | cons piece others ih =>
      unfold stepsWith at h
      cases hdirectory : tree.isDirectory place with
      | false => simp [hdirectory] at h
      | true =>
          simp only [hdirectory, Bool.not_true, Bool.false_eq_true,
            if_false] at h
          split at h
          · rename_i hidle
            exact .idle hdirectory (by simpa [isIdle] using hidle) (ih h)
          · rename_i hmoving
            split at h
            · rename_i hup
              subst hup
              exact .up hdirectory (ih h)
            · rename_i hdotDot
              cases hentry : tree.entry? (place ++ [piece]) with
              | none => simp [hentry] at h
              | some entry =>
                  rw [hentry] at h
                  cases hnode : entry.node with
                  | link target =>
                      cases target with
                      | nil => simp [hnode] at h
                      | cons c target =>
                          simp only [hnode] at h
                          obtain ⟨fewer, rfl, hrest⟩ := hfollow _ _ _ h
                          exact .through hdirectory (moving_iff.mpr hmoving)
                            hdotDot hentry hnode
                            (by simp) hrest
                  | directory | file | special =>
                      simp only [hnode] at h
                      exact .down hdirectory (moving_iff.mpr hmoving) hdotDot
                        hentry
                        (by simp [hnode]) (ih h)

theorem leads_of_steps {tree : Tree} {links : Nat} {place final : Place}
    {pieces : List Text} (h : tree.steps links place pieces = some final) :
    Leads tree links place pieces final := by
  induction links generalizing place pieces final with
  | zero => exact leads_of_stepsWith (fun _ _ _ hnone => by cases hnone) h
  | succ links ih =>
      exact leads_of_stepsWith (fun _ _ _ hsome => ⟨links, rfl, ih hsome⟩) h

/-- What `steps` does at a link: it goes on with one link fewer, if it has
one. -/
def afterLink (tree : Tree) : (links : Nat) → Place → List Text → Option Place
  | 0 => fun _ _ => none
  | links + 1 => tree.steps links

theorem steps_eq_stepsWith (tree : Tree) (links : Nat) :
    tree.steps links = tree.stepsWith (tree.afterLink links) := by
  cases links <;> rfl

theorem Leads.steps_eq {tree : Tree} {links : Nat} {place final : Place}
    {pieces : List Text} (h : Leads tree links place pieces final) :
    tree.steps links place pieces = some final := by
  induction h with
  | arrived => simp [steps_eq_stepsWith, stepsWith]
  | idle hdirectory hidle _ ih =>
      rw [steps_eq_stepsWith] at ih ⊢
      rw [stepsWith, if_neg (by simp [hdirectory]),
        if_pos (by simpa [isIdle] using hidle), ih]
  | up hdirectory _ ih =>
      rw [steps_eq_stepsWith] at ih ⊢
      rw [stepsWith, if_neg (by simp [hdirectory]), if_neg (by simp [dotDot]),
        if_pos (show dotDot = ['.', '.'] from rfl), ih]
  | @down place piece entry links others final hdirectory hmoving hdotDot hentry
        hnode _ ih =>
      rw [steps_eq_stepsWith] at ih ⊢
      rw [stepsWith, if_neg (by simp [hdirectory]),
        if_neg (moving_iff.mp hmoving),
        if_neg (show ¬ piece = ['.', '.'] from hdotDot), hentry]
      cases hkind : entry.node with
      | link target => exact absurd hkind (hnode target)
      | directory | file | special => simpa only [hkind] using ih
  | @through place piece entry target links others final hdirectory hmoving
        hdotDot hentry hnode htarget _ ih =>
      rw [steps_eq_stepsWith, stepsWith, if_neg (by simp [hdirectory]),
        if_neg (moving_iff.mp hmoving),
        if_neg (show ¬ piece = ['.', '.'] from hdotDot), hentry]
      cases target with
      | nil => exact absurd rfl htarget
      | cons c target => simpa only [hnode, afterLink] using ih

theorem steps_eq_some_iff {tree : Tree} {links : Nat} {place final : Place}
    {pieces : List Text} :
    tree.steps links place pieces = some final ↔
    Leads tree links place pieces final :=
  ⟨leads_of_steps, Leads.steps_eq⟩

end InputResolution.Disk.Tree
