import InputResolution.Proofs.Disk.Footing
import InputResolution.Proofs.Lexical.Printing
import Mathlib.Order.Bounds.Basic

namespace InputResolution.Disk

open Native (components isAbsolute ascend? part? moves slashPieces IsName)
open Lexical (enter)

/-! What a path is weakly resolved to.  Main statements: on any file system that
gives places in normal form it is the place of the longest part that has one,
with the other components applied to it name by name; and in a tree without
links that is the lexical normal form of the path, whatever of the path
exists. -/

/-- Every place is given as names behind slashes. -/
def FileSystem.GivesPlaces (fs : FileSystem) : Prop :=
  ∀ path text, fs.canonicalize path = .ok text → ∃ place : Place, place.Named ∧
    text = place.text

theorem Tree.givesPlaces (tree : Tree) : tree.fileSystem.GivesPlaces := by
  intro path text h
  obtain ⟨place, hplace, rfl⟩ := Tree.canonicalize_eq_ok h
  exact ⟨place, (Tree.standing_of_locate? hplace).named, rfl⟩

/-- The part that the first components of a path make has a place. -/
def FileSystem.Places (fs : FileSystem) (path : Text) (kept : Nat)
    (place : Text) : Prop :=
  ∃ part, part? path kept = some part ∧ fs.canonicalize part = .ok place

/-- From the top by names alone, and read lexically as what it is. -/
structure IsPlain (path : Text) : Prop where
  isAbsolute : isAbsolute path = true
  current : .current ∉ components path
  parent : .parent ∉ components path
  text_parse : (Lexical.Path.parse .posix path).text = path

namespace Place

variable {place : Place}

theorem text_eq_cons_join (place : Place) :
    place.text = '/' :: Text.join '/' place := by
  by_cases hne : place = []
  · rw [hne]
    rfl
  · exact text_eq_join hne

def lexical (place : Place) : Lexical.Path :=
  ⟨.slash, place, false⟩

theorem text_lexical (place : Place) : place.lexical.text = place.text := by
  rw [Lexical.Path.text_of_isRooted rfl, text_eq_cons_join]
  simp [lexical, Lexical.Path.relativeText, Lexical.Root.text]

theorem Named.wellFormed_lexical (h : Named place) :
    place.lexical.WellFormed .posix where
  settled := by
    have hsettled : Lexical.Settled .posix true (place.foldl (enter true) []) :=
      (Lexical.settled_nil .posix true).enterAll fun name hname =>
        Text.beq_eq_false_of_notMem (h name hname).unseparated
    rwa [Lexical.foldl_enter_names true [] h] at hsettled
  trailing := by simp [lexical]
  drive := by simp [lexical]

theorem Named.isPlain_text (h : Named place) : IsPlain place.text where
  isAbsolute := isAbsolute_text place
  current := by simp [components_text h]
  parent := by simp [components_text h]
  text_parse := by
    have hparse :
        Lexical.Path.parse .posix place.lexical.text = place.lexical :=
      h.wellFormed_lexical.parse_text_posix (h.wellFormed_lexical.endsOpen rfl)
    rw [text_lexical] at hparse
    rw [hparse, text_lexical]

end Place

def FileSystem.placedParts (fs : FileSystem) (path : Text) : Set Nat :=
  {kept | kept < (components path).length ∧ ∃ place, fs.Places path kept place}

section Longest

variable {fs : FileSystem} {path base place : Text} {count : Nat}

theorem FileSystem.PlacesNone.add_le {kept : Nat} (h : fs.PlacesNone path count)
    (hkept : kept ∈ fs.placedParts path) :
    kept + count ≤ (components path).length := by
  obtain ⟨hshorter, place, part, hpart, hplace⟩ := hkept
  by_contra hlong
  exact h ((components path).length - kept) (by omega) part hpart place hplace

theorem FileSystem.placedParts_eq_empty
    (h : ∀ count, fs.PlacesNone path count) :
    fs.placedParts path = ∅ := by
  refine Set.eq_empty_of_forall_notMem fun kept hkept => ?_
  have hlength := (h ((components path).length + 1)).add_le hkept
  omega

theorem Foothold.length_components (h : Foothold fs path count base place) :
    (components path).length = (components base).length + count := by
  obtain ⟨taken, hlength, htaken⟩ := Native.components_ascend? h.reached
  rw [htaken, List.length_append, hlength]

theorem Foothold.places (h : Foothold fs path count base place) :
    fs.Places path (components base).length place := by
  refine ⟨base, ?_, h.placed⟩
  rw [Native.part?, h.length_components, Nat.add_sub_cancel_left]
  exact h.reached

theorem Foothold.isGreatest (h : Foothold fs path count base place)
    (hfails : ∀ place, fs.canonicalize path ≠ .ok place) :
    IsGreatest (fs.placedParts path) (components base).length := by
  have hlength := h.length_components
  have hcount : count ≠ 0 := by
    rintro rfl
    exact hfails place (Option.some.inj h.reached ▸ h.placed)
  refine ⟨⟨by omega, place, h.places⟩, fun kept hkept => ?_⟩
  have hbound := h.nearest.add_le hkept
  omega

end Longest

structure FileSystem.WeaklyResolves (fs : FileSystem) (path result : Text) :
    Prop where
  parts : Native.KeepsComponents path
  existing : ∀ place, fs.canonicalize path = .ok place → result = place
  partly : (∀ place, fs.canonicalize path ≠ .ok place) →
    (fs.placedParts path).Nonempty →
    ∃ kept real, IsGreatest (fs.placedParts path) kept ∧ Place.Named real ∧
      fs.Places path kept real.text ∧
      result = Place.text (((components path).drop kept).foldl Place.apply real)
  nowhere : (∀ place, fs.canonicalize path ≠ .ok place) →
    fs.placedParts path = ∅ → result = path
  isPlain : (∃ place, fs.canonicalize path = .ok place) ∨
    (fs.placedParts path).Nonempty →
    IsPlain result

/-- A path is weakly resolved from its longest part that has a place. -/
theorem weaklyResolves_weaklyCanonical {fs : FileSystem} (hfs : fs.GivesPlaces)
    (path : Text) :
    fs.WeaklyResolves path (weaklyCanonical fs path) := by
  cases hcanonical : fs.canonicalize path with
  | ok place =>
      obtain ⟨real, hnamed, rfl⟩ := hfs path place hcanonical
      rw [weaklyCanonical_of_ok hcanonical]
      exact {
        parts := Native.keepsComponents path
        existing :=
          fun other hother => Except.ok.inj (hcanonical.symm.trans hother)
        partly := fun hfails => absurd hcanonical (hfails _)
        nowhere := fun hfails => absurd hcanonical (hfails _)
        isPlain := fun _ => hnamed.isPlain_text }
  | error reason =>
      have hfails : ∀ place, fs.canonicalize path ≠ .ok place := by
        simp [hcanonical]
      rcases weaklyCanonical_cases fs path with
        ⟨count, base, place, taken, hfoothold, htaken, hresult⟩
          | ⟨hnone, hresult⟩
      · obtain ⟨real, hnamed, rfl⟩ := hfs base place hfoothold.placed
        have hnames : ∀ name, .name name ∈ taken → IsName name :=
          fun name hname => Native.isName_of_mem_components
            (htaken ▸ List.mem_append_right _ hname)
        obtain ⟨hfold, hfinal⟩ := Place.foldl_descend_text hnamed hnames
        rw [hresult, hfold]
        exact {
          parts := Native.keepsComponents path
          existing := fun other hother => absurd hother (hfails other)
          partly := fun _ _ =>
            ⟨_, real, hfoothold.isGreatest hfails, hnamed, hfoothold.places,
              by rw [htaken, List.drop_left]⟩
          nowhere := fun _ hempty => by
            simpa [hempty] using (hfoothold.isGreatest hfails).1
          isPlain := fun _ => hfinal.isPlain_text }
      · have hempty := FileSystem.placedParts_eq_empty hnone
        rw [hresult]
        exact {
          parts := Native.keepsComponents path
          existing := fun other hother => absurd hother (hfails other)
          partly := fun _ hplaced => absurd hempty hplaced.ne_empty
          nowhere := fun _ _ => rfl
          isPlain := fun hplaced => by simp [hcanonical, hempty] at hplaced }

def deepLinkTree : Tree :=
  ⟨[([['d']], .ofNode .directory), ([['d'], ['e']], .ofNode .directory),
    ([['l']], .ofNode (.link ['/', 'd', '/', 'e']))]⟩

def deepLinkPath : Text :=
  ['.', '/', 'l', '/', 'g', '/', '.', '.', '/', '.', '.', '/', 'f']

theorem weaklyResolves_weaklyCanonical_deepLinkTree :
    deepLinkTree.fileSystem.GivesPlaces ∧
      deepLinkTree.fileSystem.WeaklyResolves deepLinkPath
        (weaklyCanonical deepLinkTree.fileSystem deepLinkPath) ∧
      weaklyCanonical deepLinkTree.fileSystem deepLinkPath =
        ['/', 'd', '/', 'f'] :=
  ⟨deepLinkTree.givesPlaces,
    weaklyResolves_weaklyCanonical deepLinkTree.givesPlaces _, by decide⟩

/-- Without links it makes no difference how much of a path is there. -/
theorem Tree.weaklyCanonical_eq_lexical {tree : Tree} (hlinks : tree.LinkFree)
    (htop : ∃ top, tree.canonicalize ['/'] = .ok top) {path : Text}
    (hpath : isAbsolute path = true) :
    weaklyCanonical tree.fileSystem path =
      '/' :: Text.join '/' (Lexical.Path.parse .posix path).segments := by
  obtain ⟨base, real, below, hfooting, hresult, -⟩ :=
    Tree.exists_footing htop hpath
  have hreal : real = (moves (slashPieces base)).foldl (enter true) [] :=
    (Tree.leads_moves_of_locate? hfooting.located).eq_foldl_enter hlinks .top
      fun _ hmove => Native.slash_notMem_move hmove
  rw [hresult, Place.text_eq_cons_join, Lexical.Path.segments_parse_posix,
    hpath, hfooting.moves, List.foldl_append, hreal]

/-- A directory that is not told where it is, with a regular file. -/
def obstructedTree : Tree :=
  ⟨[([['d']], ⟨.directory, none, some ['n', 'o']⟩),
    ([['d'], ['f']], .ofNode (.file []))]⟩

def obstructedPath : Text :=
  ['/', 'd', '/', 'f', '/', '.', '.', '/', 'g', '/', '.', '/', 'h', '/', '.',
    '.', '/', '/']

theorem Tree.weaklyCanonical_eq_lexical_obstructedTree :
    obstructedTree.LinkFree ∧
      (∃ top, obstructedTree.canonicalize ['/'] = .ok top) ∧
      isAbsolute obstructedPath = true ∧
      weaklyCanonical obstructedTree.fileSystem obstructedPath =
        '/' :: Text.join '/'
          (Lexical.Path.parse .posix obstructedPath).segments := by
  have hlinks : obstructedTree.LinkFree :=
    Tree.linkFree_of_entries (by simp [obstructedTree, Entry.ofNode])
  have htop : ∃ top, obstructedTree.canonicalize ['/'] = .ok top :=
    ⟨['/'], by decide⟩
  exact ⟨hlinks, htop, rfl, Tree.weaklyCanonical_eq_lexical hlinks htop rfl⟩

end InputResolution.Disk
