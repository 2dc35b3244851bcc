import InputResolution.Proofs.Native.Parent

namespace InputResolution.Native

/-! Parts of a path.  Taking the last component away leaves the others as they
were, so what is left of a path is told by how many components it keeps; only a
root cannot be taken away. -/

section Components

variable {path shorter part : Text}

theorem components_of_slashPieces {first : Text} {others : List Text}
    (h : slashPieces path = first :: others) :
    components path = leadingComponents first others ++
      (moves others).map bodyComponent := by
  rw [components, h]
  rfl

theorem bodyComponent_ne_root (piece : Text) : bodyComponent piece ≠ .root := by
  unfold bodyComponent
  split <;> simp

theorem leadingComponents_of_ne_nil {first : Text} (hne : first ≠ []) :
    ∃ component, component ≠ .root ∧
      ∀ others, leadingComponents first others = [component] := by
  by_cases hdot : first = ['.']
  · exact ⟨.current, by simp, fun others => by simp [leadingComponents, hdot]⟩
  · exact ⟨bodyComponent first, bodyComponent_ne_root first, fun others => by
      simp [leadingComponents, hne, hdot]⟩

theorem leadingComponents_nil {others : List Text} (hne : others ≠ []) :
    leadingComponents [] others = [.root] := by
  simp [leadingComponents, hne]

theorem isName_of_bodyComponent {piece name : Text}
    (hmoving : isIdle piece = false) (hslash : '/' ∉ piece)
    (h : bodyComponent piece = .name name) : IsName name := by
  unfold bodyComponent at h
  split at h
  · cases h
  · rename_i hdotDot
    obtain rfl := Component.name.inj h
    exact ⟨hmoving, hdotDot, hslash⟩

theorem isName_of_mem_components {name : Text}
    (h : .name name ∈ components path) :
    IsName name := by
  obtain ⟨first, others, hpieces⟩ :=
    List.exists_cons_of_ne_nil (slashPieces_ne_nil path)
  have hslash : ∀ piece ∈ first :: others, '/' ∉ piece := fun piece hpiece =>
    slash_notMem_piece (hpieces ▸ hpiece)
  rw [components_of_slashPieces hpieces] at h
  rcases List.mem_append.mp h with hleading | hbody
  · unfold leadingComponents at hleading
    split at hleading
    · split at hleading <;> simp at hleading
    · split at hleading
      · simp at hleading
      · rename_i hne hdot
        have hmoving : isIdle first = false := by simp [isIdle, hne, hdot]
        exact isName_of_bodyComponent hmoving (hslash first (by simp))
          (List.mem_singleton.mp hleading).symm
  · obtain ⟨piece, hpiece, hname⟩ := List.mem_map.mp hbody
    exact isName_of_bodyComponent (isIdle_of_mem_moves hpiece)
      (hslash piece (List.mem_cons_of_mem _ (List.mem_filter.mp hpiece).1))
        hname

/-- Exactly the last component is taken away, and it is no root. -/
theorem exists_components_of_parent? (h : parent? path = some shorter) :
    ∃ last, last ≠ .root ∧ components path = components shorter ++ [last] := by
  obtain ⟨first, others, hpieces⟩ :=
    List.exists_cons_of_ne_nil (slashPieces_ne_nil path)
  rw [components_of_slashPieces hpieces]
  unfold parent? at h
  rw [hpieces] at h
  simp only at h
  split at h
  · rename_i hidle
    split at h
    · cases h
    · rename_i hne
      obtain ⟨component, hroot, hleading⟩ := leadingComponents_of_ne_nil hne
      cases h
      refine ⟨component, hroot, ?_⟩
      rw [hleading, dropIdle_eq_nil_iff.mp hidle]
      rfl
  · rename_i hbody
    obtain ⟨front, last, hfront⟩ :=
      (List.eq_nil_or_concat (dropIdle others)).resolve_left hbody
    rw [List.concat_eq_append] at hfront
    have hmoving : isIdle last = false := by
      have hends := endsIdle_dropIdle others
      simpa [hfront, endsIdle] using hends
    have hmoves : moves others = moves front ++ [last] := by
      rw [← moves_dropIdle, hfront, moves_append,
        moves_cons_of_moving _ hmoving]
      rfl
    have hothers : others ≠ [] := by
      rintro rfl
      simp at hmoves
    simp only [hfront, List.dropLast_concat, Option.some.injEq] at h
    refine ⟨bodyComponent last, bodyComponent_ne_root last, ?_⟩
    rw [hmoves, List.map_append, ← List.append_assoc, List.map_singleton]
    congr 1
    rw [← moves_dropIdle front]
    split at h
    · rename_i htop
      rw [← h, htop.1, htop.2, leadingComponents_nil hothers]
      rfl
    · rename_i hplain
      have hslash : ∀ piece ∈ first :: dropIdle front, '/' ∉ piece := by
        intro piece hpiece
        suffices hmem : piece ∈ slashPieces path from slash_notMem_piece hmem
        rw [hpieces]
        rcases List.mem_cons.mp hpiece with rfl | hleft
        · exact List.mem_cons_self
        · refine List.mem_cons_of_mem _ (dropIdle_subset others ?_)
          rw [hfront]
          exact List.mem_append_left _ (dropIdle_subset front hleft)
      rw [← h, components_of_slashPieces (slashPieces_join (by simp) hslash)]
      congr 1
      by_cases hne : first = []
      · subst hne
        rw [leadingComponents_nil hothers,
          leadingComponents_nil fun hnil => hplain ⟨rfl, hnil⟩]
      · obtain ⟨component, -, hleading⟩ := leadingComponents_of_ne_nil hne
        rw [hleading, hleading]

theorem parent?_eq_none_iff_components :
    parent? path = none ↔ components path = [] ∨ components path = [.root] := by
  constructor
  · intro h
    obtain ⟨first, others, hpieces⟩ :=
      List.exists_cons_of_ne_nil (slashPieces_ne_nil path)
    rw [components_of_slashPieces hpieces]
    unfold parent? at h
    rw [hpieces] at h
    simp only at h
    split at h
    · rename_i hidle
      split at h
      · rename_i hnil
        subst hnil
        rw [dropIdle_eq_nil_iff.mp hidle]
        by_cases hothers : others = []
        · left
          rw [hothers]
          rfl
        · right
          rw [leadingComponents_nil hothers]
          rfl
      · cases h
    · split at h <;> cases h
  · intro h
    cases hparent : parent? path with
    | none => rfl
    | some shorter =>
        obtain ⟨last, hroot, hcomponents⟩ :=
          exists_components_of_parent? hparent
        rw [hcomponents] at h
        rcases h with hnil | htop
        · simp at hnil
        · exact absurd (List.append_eq_singleton_iff.mp htop) (by simp [hroot])

/-! Taking components off one by one. -/

def ascend? : (count : Nat) → (path : Text) → Option Text
  | 0, path => some path
  | count + 1, path => (parent? path).bind (ascend? count)

/-- The part of a path that its first components make, spelled as it is when the
others are taken off one by one. -/
def part? (path : Text) (kept : Nat) : Option Text :=
  ascend? ((components path).length - kept) path

theorem ascend?_succ_of_parent? (count : Nat)
    (h : parent? path = some shorter) :
    ascend? (count + 1) path = ascend? count shorter := by
  rw [ascend?, h, Option.bind_some]

theorem ascend?_succ_of_parent?_eq_none (count : Nat)
    (h : parent? path = none) :
    ascend? (count + 1) path = none := by
  rw [ascend?, h, Option.bind_none]

theorem ascend?_succ_eq_some {count : Nat}
    (h : ascend? (count + 1) path = some part) :
    ∃ shorter, parent? path = some shorter ∧
      ascend? count shorter = some part :=
  Option.bind_eq_some_iff.mp h

theorem components_ascend? {count : Nat} (h : ascend? count path = some part) :
    ∃ taken, taken.length = count ∧
      components path = components part ++ taken := by
  induction count generalizing path with
  | zero =>
      obtain rfl := Option.some.inj h
      exact ⟨[], rfl, by simp⟩
  | succ count ih =>
      obtain ⟨shorter, hparent, hrest⟩ := ascend?_succ_eq_some h
      obtain ⟨last, -, hlast⟩ := exists_components_of_parent? hparent
      obtain ⟨taken, hlength, htaken⟩ := ih hrest
      exact ⟨taken ++ [last], by simp [hlength],
        by rw [hlast, htaken, List.append_assoc]⟩

theorem components_part? {kept : Nat} (hkept : kept ≤ (components path).length)
    (h : part? path kept = some part) :
    components part = (components path).take kept := by
  obtain ⟨taken, hlength, htaken⟩ := components_ascend? h
  have hpart : (components part).length = kept := by
    have htotal := congrArg List.length htaken
    rw [List.length_append, hlength] at htotal
    omega
  rw [htaken, ← hpart, List.take_left]

theorem exists_ascend?_iff {count : Nat} :
    (∃ part, ascend? count path = some part) ↔
      count ≤ (components path).length ∧
        (count = (components path).length → .root ∉ components path) := by
  induction count generalizing path with
  | zero =>
      refine iff_of_true ⟨path, rfl⟩ ⟨Nat.zero_le _, fun hnone => ?_⟩
      rw [List.length_eq_zero_iff.mp hnone.symm]
      exact List.not_mem_nil
  | succ count ih =>
      cases hparent : parent? path with
      | none =>
          refine iff_of_false ?_ ?_
          · simp [ascend?_succ_of_parent?_eq_none count hparent]
          · rcases parent?_eq_none_iff_components.mp hparent with hnil | htop
            · simp [hnil]
            · simp [htop]
      | some shorter =>
          obtain ⟨last, hroot, hlast⟩ := exists_components_of_parent? hparent
          rw [ascend?_succ_of_parent? count hparent, ih, hlast]
          simp [hroot.symm]

theorem exists_part?_iff {kept : Nat}
    (hkept : kept ≤ (components path).length) :
    (∃ part, part? path kept = some part) ↔
      (kept = 0 → .root ∉ components path) := by
  rw [part?, exists_ascend?_iff]
  constructor
  · rintro ⟨-, hroot⟩ rfl
    exact hroot rfl
  · intro hroot
    exact ⟨by omega, fun hall => hroot (by omega)⟩

/-! Parts of paths from the top. -/

theorem isAbsolute_ascend? {count : Nat} (hpath : isAbsolute path = true)
    (h : ascend? count path = some part) : isAbsolute part = true := by
  induction count generalizing path with
  | zero =>
      obtain rfl := Option.some.inj h
      exact hpath
  | succ count ih =>
      obtain ⟨shorter, hparent, hrest⟩ := ascend?_succ_eq_some h
      exact ih (isAbsolute_parent? hpath hparent) hrest

theorem exists_moves_of_components {taken : List Component}
    (hpath : isAbsolute path = true) (hpart : isAbsolute part = true)
    (h : components path = components part ++ taken) :
    ∃ below, taken = below.map bodyComponent ∧
      moves (slashPieces path) = moves (slashPieces part) ++ below := by
  rw [components_of_isAbsolute hpath, components_of_isAbsolute hpart,
    List.cons_append, List.cons_inj_right, List.map_eq_append_iff] at h
  obtain ⟨kept, below, hmoves, hkept, rfl⟩ := h
  rw [List.map_injective_iff.mpr bodyComponent_injective hkept] at hmoves
  exact ⟨below, rfl, hmoves⟩

theorem moves_ascend? {count : Nat} (hpath : isAbsolute path = true)
    (h : ascend? count path = some part) :
    ∃ below, below.length = count ∧
      moves (slashPieces path) = moves (slashPieces part) ++ below := by
  obtain ⟨taken, hlength, htaken⟩ := components_ascend? h
  obtain ⟨below, rfl, hmoves⟩ :=
    exists_moves_of_components hpath (isAbsolute_ascend? hpath h) htaken
  exact ⟨below, by simpa using hlength, hmoves⟩

theorem exists_ascend?_of_isAbsolute {count : Nat}
    (hpath : isAbsolute path = true)
    (hcount : count ≤ (moves (slashPieces path)).length) :
    ∃ part, ascend? count path = some part := by
  have hlength :
      (components path).length = (moves (slashPieces path)).length + 1 := by
    simp [components_of_isAbsolute hpath]
  exact exists_ascend?_iff.mpr ⟨by omega, fun hall => by omega⟩

theorem moves_of_ascend?_succ {count : Nat} (hpath : isAbsolute path = true)
    (h : ascend? (count + 1) path = some part)
    (hidle : endsIdle (slashPieces part) = true) :
    moves (slashPieces part) = [] := by
  induction count generalizing path with
  | zero =>
      obtain ⟨shorter, hparent, hrest⟩ := ascend?_succ_eq_some h
      obtain rfl := Option.some.inj hrest
      exact (moves_parent? hpath hparent).2 hidle
  | succ count ih =>
      obtain ⟨shorter, hparent, hrest⟩ := ascend?_succ_eq_some h
      exact ih (isAbsolute_parent? hpath hparent) hrest

/-- Parts keep their components as the path has them, and only the root is in
every part. -/
structure KeepsComponents (path : Text) : Prop where
  components_part? : ∀ kept part, kept ≤ (components path).length →
    part? path kept = some part →
    components part = (components path).take kept
  exists_part?_iff : ∀ kept, kept ≤ (components path).length →
    ((∃ part, part? path kept = some part) ↔
      (kept = 0 → .root ∉ components path))

theorem keepsComponents (path : Text) : KeepsComponents path where
  components_part? _ _ hkept := components_part? hkept
  exists_part?_iff _ hkept := exists_part?_iff hkept

end Components

end InputResolution.Native
