import InputResolution.Native.DirectorySet
import Mathlib.Data.List.Induction
import Mathlib.Data.List.Sort

namespace InputResolution.Native

/-! Membership by spelling.  Where components tell spellings apart, a set of
directories holds what was put into it and nothing else, and two sets that hold
the same are equal. -/

variable {Spelled : Text → Prop}

theorem subset_insertSorted (directory : Text) (members : List Text) :
    members ⊆ insertSorted directory members := by
  induction members with
  | nil => exact List.nil_subset _
  | cons first others ih =>
      unfold insertSorted
      split
      · exact List.Subset.refl _
      · split
        · exact List.subset_cons_self directory _
        · exact List.cons_subset_cons first ih

theorem mem_insertSorted_iff {directory : Text} {members : List Text}
    (hspelled : ∀ member ∈ members, components directory = components member →
      directory = member) {other : Text} :
    other ∈ insertSorted directory members ↔
    other = directory ∨ other ∈ members := by
  refine ⟨mem_insertSorted, ?_⟩
  rintro (rfl | hmem)
  · induction members with
    | nil => exact List.mem_singleton_self _
    | cons first others ih =>
        unfold insertSorted
        split
        · rename_i hsame
          rw [hspelled first List.mem_cons_self hsame]
          exact List.mem_cons_self
        · split
          · exact List.mem_cons_self
          · exact List.mem_cons_of_mem _ <| ih fun member hmember =>
              hspelled member (List.mem_cons_of_mem _ hmember)
  · exact subset_insertSorted directory members hmem

theorem DirectorySet.contains_iff_mem {set : DirectorySet} {directory : Text}
    (hspelled : ∀ member ∈ set.toList,
      components member = components directory → member = directory) :
    set.contains directory = true ↔ directory ∈ set.toList := by
  rw [contains, List.any_eq_true]
  simp only [beq_iff_eq]
  constructor
  · rintro ⟨member, hmember, hsame⟩
    exact hspelled member hmember hsame ▸ hmember
  · intro hmember
    exact ⟨directory, hmember, rfl⟩

theorem DirectorySet.subset_foldl_insert (directories : List Text)
    (set : DirectorySet) :
    set.toList ⊆ (directories.foldl insert set).toList := by
  induction directories generalizing set with
  | nil => exact List.Subset.refl _
  | cons directory directories ih =>
      exact List.Subset.trans (subset_insertSorted directory set.toList)
        (ih (set.insert directory))

theorem DirectorySet.mem_foldl_insert
    (hspelled : ∀ first second, Spelled first → Spelled second →
      components first = components second → first = second)
    {directories : List Text}
    (hdirectories : ∀ directory ∈ directories, Spelled directory)
    {set : DirectorySet} (hset : ∀ member ∈ set.toList, Spelled member)
    {other : Text} :
    other ∈ (directories.foldl DirectorySet.insert set).toList ↔
      other ∈ directories ∨ other ∈ set.toList := by
  induction directories generalizing set with
  | nil => simp
  | cons directory directories ih =>
      have hdirectory : Spelled directory := hdirectories directory (by simp)
      have hinsert {member : Text} :
          member ∈ (set.insert directory).toList ↔
          member = directory ∨ member ∈ set.toList :=
        mem_insertSorted_iff fun member hmember =>
          hspelled directory member hdirectory (hset member hmember)
      rw [List.foldl_cons, ih, hinsert, List.mem_cons]
      · rw [or_assoc, or_left_comm]
      · exact fun other hother => hdirectories other (by simp [hother])
      · intro member hmember
        rcases hinsert.mp hmember with rfl | hold
        · exact hdirectory
        · exact hset member hold

/-! Members stand in the order of their keys, and a key tells the components. -/

def Precedes (first second : Text) : Prop :=
  sortKey first < sortKey second

theorem Component.sortKey_injective {first second : Component}
    (h : first.sortKey = second.sortKey) : first = second := by
  cases first with
  | name text =>
      cases second with
      | name other =>
          have hchars : text.map Char.toNat = other.map Char.toNat :=
            (List.cons.inj h).2
          rw [(List.map_inj_right fun _ _ => Char.toNat_inj.mp).mp hchars]
      | root | current | parent => simp [sortKey, rank] at h
  | root | current | parent => cases second <;> simp_all [sortKey, rank]

theorem components_eq_of_sortKey_eq {first second : Text}
    (h : sortKey first = sortKey second) :
    components first = components second :=
  (List.map_inj_right fun _ _ => Component.sortKey_injective).mp h

instance : Std.Asymm Precedes :=
  ⟨fun _ _ h => List.lt_asymm h⟩

theorem Precedes.trans {first second third : Text}
    (hfirst : Precedes first second) (hsecond : Precedes second third) :
    Precedes first third :=
  List.lt_trans hfirst hsecond

theorem precedes_of_not_precedes {first second : Text}
    (hne : components first ≠ components second) (h : ¬ Precedes first second) :
    Precedes second first := by
  by_contra hnot
  have hkeys : sortKey first = sortKey second :=
    List.le_antisymm (List.not_lt.mp hnot) (List.not_lt.mp h)
  exact hne (components_eq_of_sortKey_eq hkeys)

theorem pairwise_insertSorted {directory : Text} {members : List Text}
    (h : members.Pairwise Precedes) :
    (insertSorted directory members).Pairwise Precedes := by
  induction members with
  | nil => exact List.pairwise_singleton _ _
  | cons first others ih =>
      obtain ⟨hfirst, hothers⟩ := List.pairwise_cons.mp h
      unfold insertSorted
      split
      · exact h
      · rename_i hne
        split
        · rename_i hprecedes
          refine List.pairwise_cons.mpr ⟨?_, h⟩
          intro member hmember
          rcases List.mem_cons.mp hmember with rfl | hother
          · exact hprecedes
          · exact Precedes.trans hprecedes (hfirst member hother)
        · rename_i hnot
          refine List.pairwise_cons.mpr ⟨?_, ih hothers⟩
          intro member hmember
          rcases mem_insertSorted hmember with rfl | hother
          · exact precedes_of_not_precedes hne hnot
          · exact hfirst member hother

theorem DirectorySet.pairwise_insert {set : DirectorySet}
    (h : set.toList.Pairwise Precedes) (directory : Text) :
    (set.insert directory).toList.Pairwise Precedes :=
  pairwise_insertSorted h

theorem DirectorySet.pairwise_foldl_insert (directories : List Text)
    {set : DirectorySet} (h : set.toList.Pairwise Precedes) :
    (directories.foldl insert set).toList.Pairwise Precedes := by
  induction directories generalizing set with
  | nil => exact h
  | cons directory directories ih => exact ih (pairwise_insert h directory)

theorem insertSorted_of_mem {directory : Text} {members : List Text}
    (hsorted : members.Pairwise Precedes)
    (h : ∃ member ∈ members, components member = components directory) :
    insertSorted directory members = members := by
  induction members with
  | nil => simp at h
  | cons first others ih =>
      obtain ⟨hfirst, hothers⟩ := List.pairwise_cons.mp hsorted
      unfold insertSorted
      split
      · rfl
      · rename_i hne
        obtain ⟨member, hmember, hsame⟩ := h
        rcases List.mem_cons.mp hmember with rfl | hother
        · exact absurd hsame.symm hne
        · have hkey : sortKey member = sortKey directory :=
            congrArg (List.map Component.sortKey) hsame
          have hafter : sortKey first < sortKey directory :=
            hkey ▸ hfirst member hother
          rw [if_neg (List.lt_asymm hafter), ih hothers ⟨member, hother, hsame⟩]

theorem length_insertSorted_of_notMem {directory : Text} {members : List Text}
    (h : ∀ member ∈ members, components member ≠ components directory) :
    (insertSorted directory members).length = members.length + 1 := by
  induction members with
  | nil => rfl
  | cons first others ih =>
      unfold insertSorted
      rw [if_neg (h first List.mem_cons_self).symm]
      split
      · rfl
      · rw [List.length_cons,
          ih fun member hmember => h member (List.mem_cons_of_mem _ hmember),
          List.length_cons]

theorem DirectorySet.size_insert {set : DirectorySet}
    (hsorted : set.toList.Pairwise Precedes) (directory : Text) :
    (set.insert directory).size =
      if set.contains directory then set.size else set.size + 1 := by
  split
  · rename_i hcontains
    have hmember : ∃ member ∈ set.toList,
        components member = components directory := by
      simpa [contains] using hcontains
    rw [size, insert, insertSorted_of_mem hsorted hmember, size]
  · rename_i hcontains
    exact length_insertSorted_of_notMem (by simpa [contains] using hcontains)

theorem Precedes.components_ne {first second : Text}
    (h : Precedes first second) :
    components first ≠ components second := by
  intro hsame
  rw [Precedes, sortKey, sortKey, hsame] at h
  exact List.lt_irrefl _ h

/-! Spellings of one directory are one member, and the first of them stays. -/

/-- A directory as it is spelled where its components stand first. -/
def SpelledFirst (directories : List Text) (directory : Text) : Prop :=
  ∃ earlier later, directories = earlier ++ directory :: later ∧
    ∀ other ∈ earlier, components other ≠ components directory

theorem spelledFirst_iff_find? {directories : List Text} {directory : Text} :
    SpelledFirst directories directory ↔
      directories.find?
          (fun other => components other == components directory) =
        some directory := by
  simp [SpelledFirst, List.find?_eq_some_iff_append]

theorem spelledFirst_concat_iff {directories : List Text}
    {directory member : Text} :
    SpelledFirst (directories ++ [directory]) member ↔
      SpelledFirst directories member ∨
        member = directory ∧
          directories.any (fun other =>
            components other == components directory) = false := by
  rw [spelledFirst_iff_find?, spelledFirst_iff_find?, List.find?_append,
    Option.or_eq_some_iff, List.find?_singleton, List.find?_eq_none]
  apply or_congr_right
  constructor
  · rintro ⟨hnone, hlast⟩
    have hmember : member = directory := by
      split at hlast
      · exact (Option.some.inj hlast).symm
      · cases hlast
    exact ⟨hmember, by simpa [hmember] using hnone⟩
  · rintro ⟨rfl, hnone⟩
    exact ⟨by simpa using hnone, by simp⟩

theorem DirectorySet.mem_insert_iff {set : DirectorySet}
    (hsorted : set.toList.Pairwise Precedes) {directory member : Text} :
    member ∈ (set.insert directory).toList ↔
      member ∈ set.toList ∨ member = directory ∧
      set.contains directory = false := by
  cases hcontains : set.contains directory with
  | true =>
      have hknown : ∃ member ∈ set.toList,
          components member = components directory := by
        simpa [contains] using hcontains
      rw [insert, insertSorted_of_mem hsorted hknown]
      simp
  | false =>
      have hnew : ∀ member ∈ set.toList,
          components member ≠ components directory := by
        simpa [contains] using hcontains
      rw [insert, mem_insertSorted_iff fun member hmember hsame =>
        absurd hsame.symm (hnew member hmember)]
      simp [or_comm]

theorem DirectorySet.contains_foldl_insert (directories : List Text)
    (set : DirectorySet) (directory : Text) :
    (directories.foldl insert set).contains directory =
      (set.contains directory ||
        directories.any fun other =>
          components other == components directory) := by
  induction directories generalizing set with
  | nil => simp
  | cons first directories ih =>
      rw [List.foldl_cons, ih, contains_insert, List.any_cons,
        Bool.or_left_comm, Bool.or_assoc]

theorem DirectorySet.mem_foldl_insert_empty_iff {directories : List Text}
    {directory : Text} :
    directory ∈ (directories.foldl insert empty).toList ↔
    SpelledFirst directories directory := by
  induction directories using List.reverseRecOn generalizing directory with
  | nil => simp [SpelledFirst]
  | append_singleton directories last ih =>
      have hsorted :
          (directories.foldl insert empty).toList.Pairwise Precedes :=
        pairwise_foldl_insert directories List.Pairwise.nil
      rw [List.foldl_append, List.foldl_cons, List.foldl_nil,
        mem_insert_iff hsorted, ih, contains_foldl_insert, contains_empty,
        Bool.false_or, spelledFirst_concat_iff]

/-- What was put into a set decides it, in whatever order and however often it
was put there. -/
theorem DirectorySet.foldl_insert_congr
    (hspelled : ∀ first second, Spelled first → Spelled second →
      components first = components second → first = second)
    {first second : List Text} (hfirst : ∀ directory ∈ first, Spelled directory)
    (hsame : ∀ directory, directory ∈ first ↔ directory ∈ second) :
    first.foldl insert empty = second.foldl insert empty := by
  have hsecond : ∀ directory ∈ second, Spelled directory :=
    fun directory hdirectory =>
      hfirst directory ((hsame directory).mpr hdirectory)
  have hmem (member : Text) : member ∈ (first.foldl insert empty).toList ↔
      member ∈ (second.foldl insert empty).toList := by
    rw [mem_foldl_insert hspelled hfirst (by simp),
      mem_foldl_insert hspelled hsecond (by simp), hsame]
  have hsorted (directories : List Text) :
      (directories.foldl insert empty).toList.Pairwise Precedes :=
    pairwise_foldl_insert directories List.Pairwise.nil
  exact congrArg DirectorySet.mk
    ((hsorted first).eq_of_mem_iff (hsorted second) hmem)

end InputResolution.Native
