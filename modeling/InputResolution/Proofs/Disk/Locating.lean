import InputResolution.Proofs.Disk.Standing
import InputResolution.Proofs.Native.Spelling

namespace InputResolution.Disk.Tree

open Native (moves endsIdle isIdle slashPieces IsName)
open Lexical (dotDot enter leave leavesOpen)

/-! The lexical form of a path against the path itself.  Pieces with the same
moves lead to the same place, links included; without links, or without a double
dot, a path leads where its lexical form does. -/

namespace Leads

variable {tree : Tree} {links : Nat} {place final : Place} {pieces : List Text}

theorem prepend_idle {idles others : List Text}
    (hdirectory : tree.isDirectory place = true)
    (hidles : ∀ piece ∈ idles, isIdle piece = true)
    (hrest : Leads tree links place others final) :
    Leads tree links place (idles ++ others) final := by
  induction idles with
  | nil => exact hrest
  | cons piece idles ih =>
      exact .idle hdirectory (hidles piece (by simp)) (ih fun other hother =>
        hidles other (by simp [hother]))

/-- Idle pieces may be put in and taken out, except behind the last move, where
they ask for a directory. -/
theorem reroute (h : Leads tree links place pieces final)
    (hplace : Standing tree place) (hpieces : ∀ piece ∈ pieces, '/' ∉ piece)
    {others : List Text} (hmoves : moves others = moves pieces)
    (hends : endsIdle others = true → tree.isDirectory final = true) :
    Leads tree links place others final := by
  induction h generalizing others with
  | @arrived links place =>
      have hidle := Native.isIdle_of_moves_eq_nil hmoves
      by_cases hnil : others = []
      · subst hnil
        exact .arrived
      · have hdirectory := hends (Native.endsIdle_of_forall hnil hidle)
        have hend : Leads tree links place [] place := .arrived
        simpa using hend.prepend_idle hdirectory hidle
  | idle _ hidle _ ih =>
      rw [Native.moves_cons_of_isIdle _ hidle] at hmoves
      exact ih hplace (fun other hother => hpieces other (by simp [hother]))
        hmoves hends
  | up hdirectory _ ih =>
      rw [Native.moves_cons_of_moving _ (by rfl)] at hmoves
      obtain ⟨idles, tail, rfl, hidles, -, htail⟩ :=
        List.filter_eq_cons_iff.mp hmoves
      refine prepend_idle hdirectory (by simpa using hidles) (.up hdirectory ?_)
      refine ih hplace.dropLast
        (fun other hother => hpieces other (by simp [hother])) htail ?_
      exact fun htailIdle => hends (Native.endsIdle_append_cons _ _ htailIdle)
  | @down place piece _ links _ final hdirectory hmoving hdotDot hentry hnode _
        ih =>
      rw [Native.moves_cons_of_moving _ hmoving] at hmoves
      obtain ⟨idles, tail, rfl, hidles, -, htail⟩ :=
        List.filter_eq_cons_iff.mp hmoves
      refine prepend_idle hdirectory (by simpa using hidles)
        (.down hdirectory hmoving hdotDot hentry hnode ?_)
      have hname : IsName piece := ⟨hmoving, hdotDot, hpieces piece (by simp)⟩
      refine ih (hplace.child hdirectory hname hentry hnode)
        (fun other hother => hpieces other (by simp [hother])) htail ?_
      exact fun htailIdle => hends (Native.endsIdle_append_cons _ _ htailIdle)
  | @through place piece _ target links rest final hdirectory hmoving hdotDot
        hentry hnode htarget hrest ih =>
      rw [Native.moves_cons_of_moving _ hmoving] at hmoves
      obtain ⟨idles, tail, rfl, hidles, -, htail⟩ :=
        List.filter_eq_cons_iff.mp hmoves
      refine prepend_idle hdirectory (by simpa using hidles)
        (.through hdirectory hmoving hdotDot hentry hnode htarget ?_)
      have hstart := standing_linkStart hplace target
      have hslices : ∀ other ∈ slashPieces target ++ rest, '/' ∉ other :=
        slash_notMem_target_append fun other hother =>
          hpieces other (by simp [hother])
      refine ih hstart hslices ?_ fun hidle => ?_
      · rw [Native.moves_append, Native.moves_append]
        exact congrArg _ htail
      -- Where nothing is left to move behind the link, its target decides
      -- whether the end is open.
      · by_cases hnil : tail = []
        · rw [hnil, List.append_nil] at hidle
          have hrestIdle :=
            Native.isIdle_of_moves_eq_nil (by rw [← htail, hnil]; rfl)
          exact hrest.isDirectory_final hstart hslices
            (Native.leavesOpen_of_endsIdle
              (Native.endsIdle_append_of_forall hidle hrestIdle))
        · rw [Native.endsIdle_append hnil] at hidle
          exact hends (Native.endsIdle_append_cons _ _ hidle)

theorem eq_foldl_enter (h : Leads tree links place pieces final)
    (hlinks : tree.LinkFree) (hplace : Standing tree place)
    (hpieces : ∀ piece ∈ pieces, '/' ∉ piece) :
    final = pieces.foldl (enter true) place := by
  induction h with
  | arrived => rfl
  | idle _ hidle _ ih =>
      rw [List.foldl_cons, Lexical.enter_of_isIdle _ _ hidle]
      exact ih hplace fun other hother => hpieces other (by simp [hother])
  | up _ _ ih =>
      rw [List.foldl_cons, Lexical.enter_dotDot, hplace.named.leave_eq]
      exact ih hplace.dropLast fun other hother =>
        hpieces other (by simp [hother])
  | @down place piece _ _ _ _ hdirectory hmoving hdotDot hentry hnode _ ih =>
      rw [List.foldl_cons, Lexical.enter_of_moving _ _ hmoving hdotDot]
      have hname : IsName piece := ⟨hmoving, hdotDot, hpieces piece (by simp)⟩
      exact ih (hplace.child hdirectory hname hentry hnode) fun other hother =>
        hpieces other (by simp [hother])
  | through _ _ _ hentry hnode => exact absurd ⟨_, _, hentry, hnode⟩ (hlinks _)

/-- Any pieces that move along the lexical form of others lead where those do,
if there is no link or no double dot to tell the two apart. -/
theorem of_lexical (h : Leads tree links [] pieces final)
    (hpieces : ∀ piece ∈ pieces, '/' ∉ piece)
    (hplain : tree.LinkFree ∨ dotDot ∉ pieces) {others : List Text}
    (hmoves : moves others = pieces.foldl (enter true) [])
    (hends : endsIdle others = true → tree.isDirectory final = true) :
    Leads tree links [] others final := by
  rcases hplain with hlinks | hdotDot
  · have hfinal : Standing tree final := h.standing .top hpieces
    have hsame : moves others = moves final := by
      rw [hmoves, ← h.eq_foldl_enter hlinks .top hpieces,
        Native.moves_names hfinal.named]
    exact (hfinal.leads links).reroute .top
      (fun name hname => (hfinal.named name hname).unseparated)
      hsame hends
  · rw [Lexical.foldl_enter_of_dotDot_notMem _ _ hdotDot,
      List.nil_append] at hmoves
    exact h.reroute .top hpieces hmoves hends

end Leads

/-! Paths as texts. -/

theorem locate?_eq_some_iff {tree : Tree} {path : Text} {place : Place} :
    tree.locate? path = some place ↔
      path ≠ [] ∧ '\x00' ∉ path ∧
      Leads tree linkLimit [] (slashPieces path) place := by
  unfold locate?
  rw [← steps_eq_some_iff]
  split
  · rename_i h
    simp only [List.isEmpty_iff] at h
    constructor
    · intro hnone
      cases hnone
    · rintro ⟨hne, hnull, -⟩
      exact absurd h (by simp [hne, hnull])
  · rename_i h
    simp only [List.isEmpty_iff, not_or] at h
    simp [h]

theorem standing_of_locate? {tree : Tree} {path : Text} {place : Place}
    (h : tree.locate? path = some place) : Standing tree place :=
  (locate?_eq_some_iff.mp h).2.2.standing .top fun _ hpiece =>
    Native.slash_notMem_piece hpiece

theorem isDirectory_top_of_locate? {tree : Tree} {path : Text} {place : Place}
    (h : tree.locate? path = some place) : tree.isDirectory [] = true :=
  (locate?_eq_some_iff.mp h).2.2.isDirectory_start
    (Native.slashPieces_ne_nil path)

theorem leads_moves_of_locate? {tree : Tree} {path : Text} {place : Place}
    (h : tree.locate? path = some place) :
    Leads tree linkLimit [] (moves (slashPieces path)) place :=
  (locate?_eq_some_iff.mp h).2.2.reroute .top
    (fun _ hpiece => Native.slash_notMem_piece hpiece)
    (Native.moves_moves _) fun hidle => by simp [Native.endsIdle_moves] at hidle

theorem null_notMem_of_lexical {path other : Text} (hnull : '\x00' ∉ path)
    (hmoves : moves (slashPieces other) =
      (slashPieces path).foldl (enter true) []) :
    '\x00' ∉ other := by
  intro hmem
  obtain ⟨piece, hpiece, hc⟩ :=
    (Native.mem_iff_exists_move (by decide) (by decide)).mp hmem
  rw [hmoves] at hpiece
  rcases Lexical.mem_foldl_enter hpiece with hnil | hpath
  · cases hnil
  · exact hnull (Text.mem_piece hpath hc).1

theorem locate?_of_lexical {tree : Tree} {path other : Text} {place : Place}
    (h : tree.locate? path = some place)
    (hplain : tree.LinkFree ∨ dotDot ∉ slashPieces path) (hne : other ≠ [])
    (hmoves : moves (slashPieces other) =
      (slashPieces path).foldl (enter true) [])
    (hends : endsIdle (slashPieces other) = true →
      tree.isDirectory place = true) :
    tree.locate? other = some place := by
  obtain ⟨-, hnull, hleads⟩ := locate?_eq_some_iff.mp h
  exact locate?_eq_some_iff.mpr ⟨hne, null_notMem_of_lexical hnull hmoves,
    hleads.of_lexical (fun _ hpiece => Native.slash_notMem_piece hpiece) hplain
      hmoves hends⟩

/-- A path with the moves of one that leads to a place leads there too, unless
it is written as a directory and there is none. -/
theorem locate?_of_moves {tree : Tree} {path other : Text} {place : Place}
    (h : tree.locate? path = some place) (hne : other ≠ [])
    (hmoves : moves (slashPieces other) = moves (slashPieces path))
    (hends : endsIdle (slashPieces other) = true →
      tree.isDirectory place = true) :
    tree.locate? other = some place := by
  obtain ⟨-, hnull, hleads⟩ := locate?_eq_some_iff.mp h
  refine locate?_eq_some_iff.mpr ⟨hne, ?_, ?_⟩
  · rw [Native.mem_iff_exists_move (by decide) (by decide)] at hnull ⊢
    rwa [hmoves]
  · exact hleads.reroute .top (fun _ hpiece => Native.slash_notMem_piece hpiece)
      hmoves hends

theorem locate?_congr {tree : Tree} {first second : Text}
    (h : Native.LeadsAlike first second) :
    tree.locate? first = tree.locate? second := by
  have half {path other : Text} (h : Native.LeadsAlike path other)
        {place : Place}
      (hplace : tree.locate? path = some place) :
        tree.locate? other = some place := by
    obtain ⟨hne, -, hleads⟩ := locate?_eq_some_iff.mp hplace
    refine locate?_of_moves hplace (fun hnil => hne (h.eq_nil_iff.mpr hnil))
      h.moves.symm
      fun hidle => ?_
    rw [endsIdle, ← h.last] at hidle
    exact hleads.isDirectory_final .top
      (fun _ hpiece => Native.slash_notMem_piece hpiece)
      (Native.leavesOpen_of_endsIdle hidle)
  apply Option.ext
  intro place
  exact ⟨half h, half h.symm⟩

theorem canonicalize_eq_ok {tree : Tree} {path text : Text}
    (h : tree.canonicalize path = .ok text) :
    ∃ place, tree.locate? path = some place ∧ text = place.text := by
  unfold canonicalize at h
  split at h
  · cases h
  · rename_i place hplace
    split at h
    · cases h
    · cases h
      exact ⟨place, hplace, rfl⟩

theorem locate?_eq_of_canonicalize {tree : Tree} {first second text : Text}
    (hfirst : tree.canonicalize first = .ok text)
    (hsecond : tree.canonicalize second = .ok text) :
    tree.locate? first = tree.locate? second := by
  obtain ⟨place, hplace, rfl⟩ := canonicalize_eq_ok hfirst
  obtain ⟨other, hother, htext⟩ := canonicalize_eq_ok hsecond
  rw [hplace, hother, Place.text_injective (standing_of_locate? hplace).named
    (standing_of_locate? hother).named htext]

theorem canonicalize_congr {tree : Tree} {first second : Text}
    (h : tree.locate? first = tree.locate? second) :
    tree.canonicalize first = tree.canonicalize second := by
  rw [canonicalize, canonicalize, h]

theorem read_congr {tree : Tree} {first second : Text}
    (h : tree.locate? first = tree.locate? second) :
    tree.read first = tree.read second := by
  rw [read, read, find?, find?, h]

theorem kindOf_congr {tree : Tree} {first second : Text}
    (h : tree.locate? first = tree.locate? second) :
    tree.kindOf first = tree.kindOf second := by
  rw [kindOf, kindOf, find?, find?, h]

theorem locate?_text {tree : Tree} {place other : Place}
    (h : Standing tree place) (hother : tree.locate? place.text = some other) :
    other = place := by
  have htop := isDirectory_top_of_locate? hother
  have hleads := (locate?_eq_some_iff.mp hother).2.2
  have hplace : Leads tree linkLimit [] (slashPieces place.text) place := by
    refine (h.leads linkLimit).reroute .top
      (fun name hname => (h.named name hname).unseparated)
      ?_ fun hidle => ?_
    · rw [Place.moves_text h.named, Native.moves_names h.named]
    · by_cases hnil : place = []
      · rw [hnil]
        exact htop
      · rw [Place.endsIdle_text h.named hnil] at hidle
        cases hidle
  exact hleads.unique hplace

theorem canonicalize_text {tree : Tree} {place : Place} {text : Text}
    (h : Standing tree place) (hok : tree.canonicalize place.text = .ok text) :
    text = place.text := by
  obtain ⟨other, hother, rfl⟩ := canonicalize_eq_ok hok
  rw [locate?_text h hother]

/-! Regular files. -/

theorem kindOf_eq_file_iff {tree : Tree} {path : Text} :
    tree.kindOf path = .file ↔
    ∃ place entry content, tree.locate? path = some place ∧
      tree.entry? place = some entry ∧ entry.node = .file content := by
  unfold kindOf find?
  cases hplace : tree.locate? path with
  | none => simp
  | some place =>
      cases hentry : tree.entry? place with
      | none => simp [hentry]
      | some entry => cases hnode : entry.node <;> simp [hentry, hnode]

theorem exists_locate?_of_kindOf {tree : Tree} {path : Text}
    (h : tree.kindOf path = .file) :
    ∃ place, tree.locate? path = some place ∧
      tree.isDirectory place = false := by
  obtain ⟨place, entry, content, hplace, hentry, hnode⟩ :=
    kindOf_eq_file_iff.mp h
  exact ⟨place, hplace, by simp [isDirectory, hentry, hnode]⟩

end InputResolution.Disk.Tree
