import InputResolution.Proofs.Disk.WeaklyCanonical

namespace InputResolution.Disk

open Native (components bodyComponent moves endsIdle isAbsolute isIdle
  slashPieces IsName)
open Lexical (dotDot enter)

/-! What a path from the top is weakly resolved to, as a place: the real place
of the longest part that has one, and from there the rest of the moves, read
lexically. -/

namespace Place

theorem getLast?_text_ne_slash {place : Place} (h : Named place)
    (hne : place ≠ []) :
    place.text.getLast? ≠ some '/' := by
  obtain ⟨above, last, rfl⟩ := (List.eq_nil_or_concat place).resolve_left hne
  have hlast : IsName last := h last (by simp)
  intro hslash
  rw [text_eq_flatMap hne, List.concat_eq_append, List.flatMap_append,
    List.flatMap_singleton,
    List.getLast?_append_of_ne_nil _ (by simp)] at hslash
  cases last with
  | nil => exact absurd hlast.moving (by decide)
  | cons c last =>
      rw [List.getLast?_cons_cons] at hslash
      exact hlast.unseparated (List.mem_of_getLast? hslash)

theorem join_text {place : Place} {name : Text} (h : Named place)
    (hname : '/' ∉ name) :
    Native.join place.text name = text (place ++ [name]) := by
  have hrelative : isAbsolute name = false := by
    rw [Bool.eq_false_iff]
    intro habsolute
    obtain ⟨rest, rfl⟩ := Native.isAbsolute_iff.mp habsolute
    simp at hname
  by_cases hne : place = []
  · subst hne
    simp [Native.join, hrelative, text]
  · have hlast := getLast?_text_ne_slash h hne
    rw [text_eq_flatMap hne] at hlast ⊢
    have hbase : (place.flatMap fun name => '/' :: name).isEmpty = false := by
      rw [← text_eq_flatMap hne, text_eq_join hne]
      rfl
    rw [text_eq_flatMap (by simp), Native.join, hrelative, hbase]
    simp [hlast]

def apply (place : Place) : Native.Component → Place
  | .root => []
  | .current => place
  | .parent => place.dropLast
  | .name name => place ++ [name]

theorem Named.apply {place : Place} {component : Native.Component}
    (h : Named place) (hname : ∀ name, component = .name name → IsName name) :
    Named (place.apply component) := by
  cases component with
  | root => exact named_nil
  | current => exact h
  | parent => exact h.dropLast
  | name name =>
      intro other hother
      rcases List.mem_append.mp hother with hplace | hlast
      · exact h other hplace
      · exact List.mem_singleton.mp hlast ▸ hname name rfl

theorem descend_text {place : Place} {component : Native.Component}
    (h : Named place) (hname : ∀ name, component = .name name → IsName name) :
    descend place.text component = text (place.apply component) := by
  cases component with
  | root | current => rfl
  | name name => exact join_text h (hname name rfl).unseparated
  | parent =>
      rw [descend]
      by_cases hne : place = []
      · rw [hne]
        rfl
      · rw [parent?_text h hne]
        rfl

theorem foldl_descend_text {place : Place} {components : List Native.Component}
    (h : Named place) (hnames : ∀ name, .name name ∈ components → IsName name) :
    components.foldl descend place.text = text (components.foldl apply place) ∧
      Named (components.foldl apply place) := by
  induction components generalizing place with
  | nil => exact ⟨rfl, h⟩
  | cons component components ih =>
      have hname : ∀ name, component = .name name → IsName name := by
        rintro name rfl
        exact hnames name List.mem_cons_self
      rw [List.foldl_cons, List.foldl_cons, descend_text h hname]
      exact ih (h.apply hname) fun name hmem =>
        hnames name (List.mem_cons_of_mem _ hmem)

theorem foldl_apply_map {place : Place} {pieces : List Text} (h : Named place)
    (hmoving : ∀ piece ∈ pieces, isIdle piece = false)
    (hslash : ∀ piece ∈ pieces, '/' ∉ piece) :
    (pieces.map bodyComponent).foldl apply place =
      pieces.foldl (enter true) place := by
  induction pieces generalizing place with
  | nil => rfl
  | cons piece pieces ih =>
      have hpiece := hmoving piece List.mem_cons_self
      have hname : ∀ name, bodyComponent piece = .name name → IsName name :=
        fun _ => Native.isName_of_bodyComponent hpiece
          (hslash piece List.mem_cons_self)
      have happly :
          place.apply (bodyComponent piece) = enter true place piece := by
        by_cases hdotDot : piece = dotDot
        · rw [hdotDot, Lexical.enter_dotDot, h.leave_eq]
          rfl
        · have hcomponent : bodyComponent piece = .name piece := if_neg hdotDot
          rw [Lexical.enter_of_moving _ _ hpiece hdotDot, hcomponent]
          rfl
      rw [List.map_cons, List.foldl_cons, List.foldl_cons,
        ih (h.apply hname)
          (fun other hother => hmoving other (List.mem_cons_of_mem _ hother))
          (fun other hother => hslash other (List.mem_cons_of_mem _ hother)),
        happly]

end Place

namespace Tree

theorem canonicalize_of_moves {tree : Tree} {path other place : Text}
    (h : tree.canonicalize path = .ok place) (hne : other ≠ [])
    (hmoves : moves (slashPieces other) = moves (slashPieces path))
    (hends : endsIdle (slashPieces other) = true →
      moves (slashPieces other) = []) :
    tree.canonicalize other = .ok place := by
  obtain ⟨real, hreal, -⟩ := canonicalize_eq_ok h
  rw [← h]
  apply canonicalize_congr
  rw [hreal]
  refine locate?_of_moves hreal hne hmoves fun hidle => ?_
  have harrived := leads_moves_of_locate? hreal
  rw [← hmoves, hends hidle] at harrived
  cases harrived
  exact isDirectory_top_of_locate? hreal

/-- A path stands on a base: the longest part of it that has a real place.
`below` are the moves that are left from there. -/
structure Footing (tree : Tree) (path base : Text) (real : Place)
    (below : List Text) : Prop where
  isAbsolute : isAbsolute base = true
  canonicalize : tree.canonicalize base = .ok real.text
  located : tree.locate? base = some real
  moves : moves (slashPieces path) = moves (slashPieces base) ++ below
  longest : ∀ {between rest : List Text}, between ++ rest = below →
    between ≠ [] → rest ≠ [] →
    ∀ {longer : Text},
      Native.moves (slashPieces longer) =
        Native.moves (slashPieces base) ++ between →
        ∀ place, tree.canonicalize longer ≠ .ok place

section Climbing

variable {tree : Tree} {path : Text}

theorem Footing.named {base : Text} {real : Place} {below : List Text}
    (h : Footing tree path base real below) : real.Named :=
  (standing_of_locate? h.located).named

theorem Footing.mem_moves {base move : Text} {real : Place} {below : List Text}
    (h : Footing tree path base real below) (hmove : move ∈ below) :
    move ∈ Native.moves (slashPieces path) := by
  rw [h.moves]
  exact List.mem_append_right _ hmove

theorem Footing.foldl_descend {base : Text} {real : Place} {below : List Text}
    (h : Footing tree path base real below) :
    (below.map bodyComponent).foldl descend real.text =
      Place.text (below.foldl (enter true) real) ∧
      Place.Named (below.foldl (enter true) real) := by
  have hmoving : ∀ move ∈ below, isIdle move = false := fun _ hmove =>
    Native.isIdle_of_mem_moves (h.mem_moves hmove)
  have hslash : ∀ move ∈ below, '/' ∉ move := fun _ hmove =>
    Native.slash_notMem_move (h.mem_moves hmove)
  have hnames : ∀ name, .name name ∈ below.map bodyComponent → IsName name := by
    intro name hname
    obtain ⟨move, hmove, hcomponent⟩ := List.mem_map.mp hname
    exact Native.isName_of_bodyComponent (hmoving move hmove)
      (hslash move hmove) hcomponent
  rw [← Place.foldl_apply_map h.named hmoving hslash]
  exact Place.foldl_descend_text h.named hnames

theorem exists_footing_of_foothold {count : Nat} {base place : Text}
    {taken : List Native.Component} (hpath : isAbsolute path = true)
    (h : Foothold tree.fileSystem path count base place)
    (htaken : components path = components base ++ taken) :
    ∃ real below, place = Place.text real ∧ taken = below.map bodyComponent ∧
      Footing tree path base real below := by
  have hbase := Native.isAbsolute_ascend? hpath h.reached
  obtain ⟨real, hlocated, rfl⟩ := canonicalize_eq_ok h.placed
  obtain ⟨below, rfl, hmoves⟩ :=
    Native.exists_moves_of_components hpath hbase htaken
  refine ⟨real, below, rfl, rfl, hbase, h.placed, hlocated, hmoves, ?_⟩
  intro between rest hbelow hbetween hrest longer hlonger other hother
  -- A longer path moves along a part that was met before the base, so that part
  -- has a place too.
  obtain ⟨all, hcount, hall⟩ := Native.moves_ascend? hpath h.reached
  obtain rfl : below = all := List.append_cancel_left (hmoves.symm.trans hall)
  rw [← hbelow, List.length_append] at hcount
  rw [← hbelow, ← List.append_assoc, ← hlonger] at hmoves
  have htakable : rest.length ≤ (moves (slashPieces path)).length := by
    simp [hmoves]
  obtain ⟨part, hpart⟩ := Native.exists_ascend?_of_isAbsolute hpath htakable
  obtain ⟨others, hothers, hsplit⟩ := Native.moves_ascend? hpath hpart
  have hsame : moves (slashPieces part) = moves (slashPieces longer) :=
    (List.append_inj' (hsplit.symm.trans hmoves) hothers).1
  have hends : endsIdle (slashPieces part) = true →
      moves (slashPieces part) = [] := by
    obtain ⟨fewer, hfewer⟩ :=
      Nat.exists_eq_succ_of_ne_zero (mt List.length_eq_zero_iff.mp hrest)
    rw [hfewer] at hpart
    exact Native.moves_of_ascend?_succ hpath hpart
  have hpositive := List.length_pos_of_ne_nil hbetween
  exact h.nearest rest.length (by omega) part hpart other
    (canonicalize_of_moves hother
      (Native.ne_nil_of_isAbsolute (Native.isAbsolute_ascend? hpath hpart))
        hsame hends)

theorem not_placesNone (htop : ∃ top, tree.canonicalize ['/'] = .ok top)
    (hpath : isAbsolute path = true) :
    ¬ ∀ count, tree.fileSystem.PlacesNone path count := by
  intro hnone
  obtain ⟨top, htop⟩ := htop
  obtain ⟨part, hpart⟩ :=
    Native.exists_ascend?_of_isAbsolute hpath (Nat.le_refl _)
  obtain ⟨below, hbelow, hmoves⟩ := Native.moves_ascend? hpath hpart
  have hnil : moves (slashPieces part) = [] := by
    have hlength := congrArg List.length hmoves
    rw [List.length_append, hbelow] at hlength
    exact List.length_eq_zero_iff.mp (by omega)
  exact hnone _ _ (Nat.lt_succ_self _) part hpart top
    (canonicalize_of_moves htop
      (Native.ne_nil_of_isAbsolute (Native.isAbsolute_ascend? hpath hpart)) hnil
        fun _ => hnil)

/-- Every path from the top stands on a base, if the top has a place, and is
weakly resolved from there. -/
theorem exists_footing (htop : ∃ top, tree.canonicalize ['/'] = .ok top)
    (hpath : isAbsolute path = true) :
    ∃ base real below, Footing tree path base real below ∧
      weaklyCanonical tree.fileSystem path =
        Place.text (below.foldl (enter true) real) ∧
      Place.Named (below.foldl (enter true) real) := by
  rcases weaklyCanonical_cases tree.fileSystem path with
    ⟨count, base, place, taken, hfoothold, htaken, hresult⟩ | ⟨hnone, -⟩
  · obtain ⟨real, below, rfl, rfl, hfooting⟩ :=
      exists_footing_of_foothold hpath hfoothold htaken
    obtain ⟨hfold, hnamed⟩ := hfooting.foldl_descend
    exact ⟨base, real, below, hfooting, hresult.trans hfold, hnamed⟩
  · exact absurd hnone (not_placesNone htop hpath)

end Climbing

end Tree

end InputResolution.Disk
