import InputResolution.Disk.WeaklyCanonical
import InputResolution.Proofs.Disk.Locating
import InputResolution.Proofs.Native.Parts

namespace InputResolution

/-! The way up to a part with a place, step by step, and where it ends.  What a
path from the top is weakly resolved to is again a path from the top. -/

namespace Disk

theorem isAbsolute_descend {place : Text} (component : Native.Component)
    (h : Native.isAbsolute place = true) :
    Native.isAbsolute (descend place component) = true := by
  cases component with
  | root => rfl
  | current => exact h
  | name text => exact Native.isAbsolute_join text h
  | parent =>
      unfold descend
      cases hparent : Native.parent? place with
      | none => exact h
      | some shorter => exact Native.isAbsolute_parent? h hparent

theorem isAbsolute_foldl_descend {place : Text}
    (components : List Native.Component) (h : Native.isAbsolute place = true) :
    Native.isAbsolute (components.foldl descend place) = true := by
  induction components generalizing place with
  | nil => exact h
  | cons component components ih => exact ih (isAbsolute_descend component h)

/-! One step up. -/

section Step

variable {fs : FileSystem} {path left shorter : Text} {last : Native.Component}

theorem climb_of_parent?_eq_none (deep : List Native.Component)
    (h : Native.parent? left = none) :
    climb fs path left (Native.components left).reverse deep = path := by
  rcases Native.parent?_eq_none_iff_components.mp h with hnil | htop
  · rw [hnil]
    rfl
  · rw [htop, List.reverse_singleton, climb, h]

theorem climb_of_ok {place : Text} (path : Text) (deep : List Native.Component)
    (hparent : Native.parent? left = some shorter)
    (hlast : Native.components left = Native.components shorter ++ [last])
    (hplace : fs.canonicalize shorter = .ok place) :
    climb fs path left (Native.components left).reverse deep =
      (last :: deep).foldl descend place := by
  rw [hlast, List.reverse_concat, climb, hparent]
  simp only [hplace]

theorem climb_of_error {reason : Text} (path : Text)
    (deep : List Native.Component)
    (hparent : Native.parent? left = some shorter)
    (hlast : Native.components left = Native.components shorter ++ [last])
    (hplace : fs.canonicalize shorter = .error reason) :
    climb fs path left (Native.components left).reverse deep =
      climb fs path shorter (Native.components shorter).reverse
          (last :: deep) := by
  rw [hlast, List.reverse_concat, climb, hparent]
  simp only [hplace]

end Step

/-! The longest part with a place. -/

def FileSystem.PlacesNone (fs : FileSystem) (path : Text) (count : Nat) :
    Prop :=
  ∀ fewer, fewer < count → ∀ part, Native.ascend? fewer path = some part →
    ∀ place, fs.canonicalize part ≠ .ok place

/-- The first part with a place that is met when components are taken off one by
one. -/
structure Foothold (fs : FileSystem) (path : Text) (count : Nat)
    (base place : Text) : Prop where
  reached : Native.ascend? count path = some base
  placed : fs.canonicalize base = .ok place
  nearest : fs.PlacesNone path count

section Climbing

variable {fs : FileSystem} {path left shorter base place : Text} {count : Nat}

theorem foothold_self (h : fs.canonicalize path = .ok place) :
    Foothold fs path 0 path place where
  reached := rfl
  placed := h
  nearest fewer hfewer := absurd hfewer (Nat.not_lt_zero fewer)

theorem FileSystem.placesNone_of_parent?_eq_none
    (hfails : ∀ place, fs.canonicalize path ≠ .ok place)
    (hparent : Native.parent? path = none) (count : Nat) :
    fs.PlacesNone path count := by
  intro fewer _ part hpart
  cases fewer with
  | zero => exact Option.some.inj hpart ▸ hfails
  | succ fewer =>
      rw [Native.ascend?_succ_of_parent?_eq_none fewer hparent] at hpart
      cases hpart

theorem FileSystem.PlacesNone.step (h : fs.PlacesNone shorter count)
    (hfails : ∀ place, fs.canonicalize path ≠ .ok place)
    (hparent : Native.parent? path = some shorter) :
    fs.PlacesNone path (count + 1) := by
  intro fewer hfewer part hpart
  cases fewer with
  | zero => exact Option.some.inj hpart ▸ hfails
  | succ fewer =>
      rw [Native.ascend?_succ_of_parent? fewer hparent] at hpart
      exact h fewer (Nat.lt_of_succ_lt_succ hfewer) part hpart

theorem FileSystem.PlacesNone.mono {more : Nat} (h : fs.PlacesNone path more)
    (hcount : count ≤ more) : fs.PlacesNone path count :=
  fun fewer hfewer => h fewer (Nat.lt_of_lt_of_le hfewer hcount)

theorem Foothold.step (h : Foothold fs shorter count base place)
    (hfails : ∀ place, fs.canonicalize path ≠ .ok place)
    (hparent : Native.parent? path = some shorter) :
    Foothold fs path (count + 1) base place where
  reached := (Native.ascend?_succ_of_parent? count hparent).trans h.reached
  placed := h.placed
  nearest := h.nearest.step hfails hparent

/-- Climbing stops at the first part with a place, and gives the path itself
where there is none. -/
theorem climb_cases (path : Text) (deep : List Native.Component)
    (hfails : ∀ place, fs.canonicalize left ≠ .ok place) :
    (∃ count base place taken, Foothold fs left count base place ∧
      Native.components left = Native.components base ++ taken ∧
      climb fs path left (Native.components left).reverse deep =
        (taken ++ deep).foldl descend place) ∨
    ((∀ count, fs.PlacesNone left count) ∧
      climb fs path left (Native.components left).reverse deep = path) := by
  induction hlength : (Native.components left).length
    generalizing left deep with
  | zero =>
      have hparent : Native.parent? left = none :=
        Native.parent?_eq_none_iff_components.mpr
          (.inl (List.length_eq_zero_iff.mp hlength))
      exact .inr ⟨FileSystem.placesNone_of_parent?_eq_none hfails hparent,
        climb_of_parent?_eq_none deep hparent⟩
  | succ length ih =>
      cases hparent : Native.parent? left with
      | none =>
          exact .inr ⟨FileSystem.placesNone_of_parent?_eq_none hfails hparent,
            climb_of_parent?_eq_none deep hparent⟩
      | some shorter =>
          obtain ⟨last, -, hlast⟩ := Native.exists_components_of_parent? hparent
          cases hplace : fs.canonicalize shorter with
          | ok place =>
              exact .inl ⟨1, shorter, place, [last],
                (foothold_self hplace).step hfails hparent,
                hlast, climb_of_ok path deep hparent hlast hplace⟩
          | error reason =>
              rw [climb_of_error path deep hparent hlast hplace]
              have hshorter : (Native.components shorter).length = length := by
                simpa [hlast] using hlength
              rcases ih (last :: deep) (by simp [hplace]) hshorter with
                ⟨count, base, place, taken, hfoothold, htaken, hclimb⟩
                  | ⟨hnone, hclimb⟩
              · refine .inl ⟨count + 1, base, place, taken ++ [last],
                  hfoothold.step hfails hparent, ?_, ?_⟩
                · rw [hlast, htaken, List.append_assoc]
                · simpa using hclimb
              · exact .inr ⟨fun count =>
                  ((hnone count).step hfails hparent).mono (Nat.le_succ count),
                  hclimb⟩

theorem weaklyCanonical_cases (fs : FileSystem) (path : Text) :
    (∃ count base place taken, Foothold fs path count base place ∧
      Native.components path = Native.components base ++ taken ∧
      weaklyCanonical fs path = taken.foldl descend place) ∨
    ((∀ count, fs.PlacesNone path count) ∧ weaklyCanonical fs path = path) := by
  cases hplace : fs.canonicalize path with
  | ok place =>
      exact .inl
        ⟨0, path, place, [], foothold_self hplace, (List.append_nil _).symm,
        weaklyCanonical_of_ok hplace⟩
  | error reason =>
      have hfails : ∀ place, fs.canonicalize path ≠ .ok place := by
        simp [hplace]
      simpa only [weaklyCanonical, hplace, List.append_nil] using
        climb_cases path [] hfails

/-- Every place is given from the top. -/
def FileSystem.GivesAbsolute (fs : FileSystem) : Prop :=
  ∀ path place, fs.canonicalize path = .ok place →
    Native.isAbsolute place = true

theorem isAbsolute_weaklyCanonical (hfs : fs.GivesAbsolute)
    (hpath : Native.isAbsolute path = true) :
    Native.isAbsolute (weaklyCanonical fs path) = true := by
  rcases weaklyCanonical_cases fs path with
    ⟨count, base, place, taken, hfoothold, -, hresult⟩ | ⟨-, hresult⟩
  · rw [hresult]
    exact isAbsolute_foldl_descend taken (hfs base place hfoothold.placed)
  · rwa [hresult]

end Climbing

theorem Tree.givesAbsolute (tree : Tree) : tree.fileSystem.GivesAbsolute := by
  intro path place h
  obtain ⟨real, -, rfl⟩ := Tree.canonicalize_eq_ok h
  exact Place.isAbsolute_text real

end Disk

end InputResolution
