import InputResolution.Proofs.Native.Moves
import Mathlib.Data.List.DropRight

namespace InputResolution.Native

/-! Components and the path above, for paths from the top.  Seen by their moves,
the components are the moves behind the root, and the path above has all moves
but the last one. -/

theorem isAbsolute_iff {path : Text} :
    isAbsolute path = true ↔ ∃ rest, path = '/' :: rest := by
  cases path with
  | nil => simp [isAbsolute]
  | cons c rest => simp [isAbsolute]

theorem ne_nil_of_isAbsolute {path : Text} (h : isAbsolute path = true) :
    path ≠ [] := by
  rintro rfl
  cases h

theorem isAbsolute_join {base : Text} (child : Text)
    (h : isAbsolute base = true) :
    isAbsolute (join base child) = true := by
  cases hchild : isAbsolute child with
  | true => rwa [join_of_isAbsolute base hchild]
  | false =>
      obtain ⟨rest, rfl⟩ := isAbsolute_iff.mp h
      rw [join, if_neg (by simp [hchild])]
      split <;> rfl

theorem components_of_isAbsolute {path : Text} (h : isAbsolute path = true) :
    components path =
      .root :: (moves (slashPieces path)).map bodyComponent := by
  obtain ⟨rest, rfl⟩ := isAbsolute_iff.mp h
  rw [components_slash, slashPieces_cons_slash, moves_cons_nil]
  rfl

theorem bodyComponent_injective : Function.Injective bodyComponent := by
  intro first second h
  unfold bodyComponent at h
  split at h <;> split at h
  · rename_i hfirst hsecond
    rw [hfirst, hsecond]
  · cases h
  · cases h
  · exact Component.name.inj h

theorem isAbsolute_of_components_prefix {path : Text} {others : List Component}
    (hne : path ≠ []) (h : components path <+: .root :: others) :
    isAbsolute path = true := by
  obtain ⟨c, rest, rfl⟩ := List.exists_cons_of_ne_nil hne
  by_contra hrelative
  have hc : (c == '/') = false := by simpa [isAbsolute] using hrelative
  obtain ⟨piece, pieces, hpieces⟩ :=
    List.exists_cons_of_ne_nil (slashPieces_ne_nil rest)
  have hcut :
      slashPieces (c :: rest) = Text.prependFirst c (slashPieces rest) :=
    Text.pieces_cons_of_not_separates rest hc
  rw [hpieces, Text.prependFirst] at hcut
  obtain ⟨component, hroot, hleading⟩ :
      ∃ component, component ≠ .root ∧
        leadingComponents (c :: piece) pieces = [component] := by
    unfold leadingComponents bodyComponent
    split
    · contradiction
    · split
      · exact ⟨.current, by simp, rfl⟩
      · split
        · exact ⟨.parent, by simp, rfl⟩
        · exact ⟨.name (c :: piece), by simp, rfl⟩
  rw [components, hcut] at h
  simp only [hleading, List.singleton_append, List.cons_prefix_cons] at h
  exact hroot h.1

theorem startsWith_iff {path part : Text} (hpath : isAbsolute path = true)
    (hpart : isAbsolute part = true) :
    startsWith path part = true ↔
    moves (slashPieces part) <+: moves (slashPieces path) := by
  rw [startsWith, List.isPrefixOf_iff_prefix, components_of_isAbsolute hpath,
    components_of_isAbsolute hpart, List.prefix_cons_inj,
    List.prefix_map_iff_of_injective bodyComponent_injective]

theorem isAbsolute_of_startsWith {path part : Text}
    (hpath : isAbsolute path = true) (hne : part ≠ [])
    (h : startsWith path part = true) : isAbsolute part = true := by
  rw [startsWith, List.isPrefixOf_iff_prefix,
    components_of_isAbsolute hpath] at h
  exact isAbsolute_of_components_prefix hne h

/-! Pieces without the idle ones at their end. -/

theorem dropIdle_eq_rdropWhile (pieces : List Text) :
    dropIdle pieces = pieces.rdropWhile isIdle := rfl

theorem dropIdle_subset (pieces : List Text) : dropIdle pieces ⊆ pieces :=
  (List.rdropWhile_prefix isIdle pieces).subset

theorem moves_dropIdle (pieces : List Text) :
    moves (dropIdle pieces) = moves pieces := by
  rw [dropIdle_eq_rdropWhile]
  induction pieces using List.reverseRecOn with
  | nil => simp
  | append_singleton pieces last ih =>
      rw [List.rdropWhile_concat]
      split
      · rename_i hidle
        rw [ih, moves_append, moves_cons_of_isIdle _ hidle]
        simp
      · rfl

theorem endsIdle_dropIdle (pieces : List Text) :
    endsIdle (dropIdle pieces) = false := by
  rw [dropIdle_eq_rdropWhile]
  induction pieces using List.reverseRecOn with
  | nil => simp [endsIdle]
  | append_singleton pieces last ih =>
      rw [List.rdropWhile_concat]
      split
      · exact ih
      · rename_i hmoving
        simpa [endsIdle] using hmoving

theorem dropIdle_eq_nil_iff {pieces : List Text} :
    dropIdle pieces = [] ↔ moves pieces = [] := by
  rw [dropIdle_eq_rdropWhile, List.rdropWhile_eq_nil_iff]
  simp [moves]

theorem moves_dropLast_of_endsIdle {pieces : List Text}
    (h : endsIdle pieces = false) :
    moves pieces.dropLast = (moves pieces).dropLast := by
  rcases List.eq_nil_or_concat pieces with rfl | ⟨front, last, rfl⟩
  · rfl
  · have hmoving : isIdle last = false := by simpa [endsIdle] using h
    rw [List.concat_eq_append, moves_append, moves_cons_of_moving _ hmoving]
    simp

/-! The path above. -/

section Parent

variable {path shorter : Text}

theorem parent?_cons_slash {rest : Text} :
    parent? ('/' :: rest) =
      if moves (slashPieces rest) = [] then none
      else
        let left := dropIdle (dropIdle (slashPieces rest)).dropLast
        some (if left = [] then ['/'] else Text.join '/' ([] :: left)) := by
  unfold parent?
  rw [slashPieces_cons_slash]
  simp only [true_and, if_true]
  split
  · rename_i hnil
    rw [if_pos (dropIdle_eq_nil_iff.mp hnil)]
  · rename_i hne
    rw [if_neg fun hmoves => hne (dropIdle_eq_nil_iff.mpr hmoves)]

theorem isAbsolute_parent? (hpath : isAbsolute path = true)
    (h : parent? path = some shorter) :
    isAbsolute shorter = true := by
  obtain ⟨rest, rfl⟩ := isAbsolute_iff.mp hpath
  rw [parent?_cons_slash] at h
  split at h
  · cases h
  · cases h
    split
    · rfl
    · rename_i hleft
      rw [Text.join_cons_of_ne_nil _ _ hleft]
      rfl

theorem moves_parent? (hpath : isAbsolute path = true)
    (h : parent? path = some shorter) :
    moves (slashPieces shorter) = (moves (slashPieces path)).dropLast ∧
      (endsIdle (slashPieces shorter) = true →
        moves (slashPieces shorter) = []) := by
  obtain ⟨rest, rfl⟩ := isAbsolute_iff.mp hpath
  rw [parent?_cons_slash] at h
  split at h
  · cases h
  · have hmoves : moves (dropIdle (dropIdle (slashPieces rest)).dropLast) =
        (moves (slashPieces rest)).dropLast := by
      rw [moves_dropIdle, moves_dropLast_of_endsIdle (endsIdle_dropIdle _),
        moves_dropIdle]
    rw [slashPieces_cons_slash, moves_cons_nil, ← hmoves]
    cases h
    split
    · rename_i hnil
      rw [hnil]
      exact ⟨rfl, fun _ => rfl⟩
    · rename_i hleft
      have hslash : ∀ piece ∈ dropIdle (dropIdle (slashPieces rest)).dropLast,
          '/' ∉ piece :=
        fun piece hpiece => slash_notMem_piece
          (dropIdle_subset _
            (List.dropLast_subset _ (dropIdle_subset _ hpiece)))
      rw [Text.join_cons_of_ne_nil _ _ hleft, List.nil_append,
        slashPieces_cons_slash, slashPieces_join hleft hslash, moves_cons_nil,
        endsIdle_cons hleft, endsIdle_dropIdle]
      simp

end Parent

end InputResolution.Native
