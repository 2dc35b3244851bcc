import InputResolution.Proofs.Disk.Footing

namespace InputResolution.Disk

open Native (components bodyComponent moves endsIdle isIdle slashPieces IsName)
open Lexical (dotDot enter)

/-! Paths that are reached over no link.  Main statements: the text of a place
is straight exactly where no existing part of the place is reached over a link,
and a path is weakly resolved to a straight one if it exists, or if nothing but
names follows its first missing name. -/

/-- Every part of a path that has a real place is that place, and the path is
weakly resolved to itself. -/
structure FileSystem.Straight (fs : FileSystem) (path : Text) : Prop where
  parts : ∀ {part place : Text}, Native.startsWith path part = true →
    fs.canonicalize part = .ok place → components place = components part
  weakly : weaklyCanonical fs path = path

namespace Tree

/-- No existing part of the place is reached over a link. -/
def Unlinked (tree : Tree) (place : Place) : Prop :=
  ∀ part : Place, part <+: place →
    (∃ real, tree.canonicalize part.text = .ok real) →
      ∀ above : Place, above <+: part → ¬ tree.isLink above

/-- Nothing but names follows the first name that is missing. -/
def EndsMissing (tree : Tree) (path : Text) : Prop :=
  ∃ base place name below, tree.canonicalize base = .ok place ∧
    tree.entry? (Place.ofPath place ++ [name]) = none ∧ dotDot ∉ name :: below ∧
      moves (slashPieces path) = moves (slashPieces base) ++ name :: below

namespace Leads

variable {tree : Tree} {links : Nat} {place final : Place}

theorem split {pieces first second : List Text}
    (h : Leads tree links place pieces final)
    (hpieces : pieces = first ++ second) :
    ∃ fewer between, Leads tree links place first between ∧
      Leads tree fewer between second final := by
  induction h generalizing first with
  | @arrived links place =>
      obtain ⟨rfl, rfl⟩ := List.append_eq_nil_iff.mp hpieces.symm
      exact ⟨links, place, .arrived, .arrived⟩
  | @idle place piece links others final hdirectory hidle hrest ih =>
      cases first with
      | nil =>
          obtain rfl : piece :: others = second := hpieces
          exact ⟨links, place, .arrived, .idle hdirectory hidle hrest⟩
      | cons first tail =>
          obtain ⟨rfl, hothers⟩ := List.cons.inj hpieces
          obtain ⟨fewer, between, hfirst, hsecond⟩ := ih hothers
          exact ⟨fewer, between, .idle hdirectory hidle hfirst, hsecond⟩
  | @up place links others final hdirectory hrest ih =>
      cases first with
      | nil =>
          obtain rfl : dotDot :: others = second := hpieces
          exact ⟨links, place, .arrived, .up hdirectory hrest⟩
      | cons first tail =>
          obtain ⟨rfl, hothers⟩ := List.cons.inj hpieces
          obtain ⟨fewer, between, hfirst, hsecond⟩ := ih hothers
          exact ⟨fewer, between, .up hdirectory hfirst, hsecond⟩
  | @down place piece entry links others final hdirectory hmoving hdotDot hentry
        hnode hrest ih =>
      cases first with
      | nil =>
          obtain rfl : piece :: others = second := hpieces
          exact ⟨links, place, .arrived,
            .down hdirectory hmoving hdotDot hentry hnode hrest⟩
      | cons first tail =>
          obtain ⟨rfl, hothers⟩ := List.cons.inj hpieces
          obtain ⟨fewer, between, hfirst, hsecond⟩ := ih hothers
          exact ⟨fewer, between,
            .down hdirectory hmoving hdotDot hentry hnode hfirst, hsecond⟩
  | @through place piece entry target links others final hdirectory hmoving
        hdotDot hentry hnode htarget hrest ih =>
      cases first with
      | nil =>
          obtain rfl : piece :: others = second := hpieces
          exact ⟨links + 1, place, .arrived,
            .through hdirectory hmoving hdotDot hentry hnode htarget hrest⟩
      | cons first tail =>
          obtain ⟨rfl, hothers⟩ := List.cons.inj hpieces
          obtain ⟨fewer, between, hfirst, hsecond⟩ :=
            ih (by rw [hothers]; exact (List.append_assoc _ tail second).symm)
          exact ⟨fewer, between,
            .through hdirectory hmoving hdotDot hentry hnode htarget hfirst,
            hsecond⟩

theorem exists_entry {name : Text} {others : List Text}
    (h : Leads tree links place (name :: others) final)
    (hmoving : isIdle name = false) (hdotDot : name ≠ dotDot) :
    ∃ entry, tree.entry? (place ++ [name]) = some entry := by
  cases h with
  | idle _ hidle => simp [hidle] at hmoving
  | up => exact absurd rfl hdotDot
  | down _ _ _ hentry | through _ _ _ hentry => exact ⟨_, hentry⟩

theorem eq_append_of_not_isLink {names : List Text}
    (h : Leads tree links place names final)
    (hnames : ∀ name ∈ names, IsName name)
    (hlinks : ∀ above, above <+: names → ¬ tree.isLink (place ++ above)) :
    final = place ++ names := by
  induction h with
  | arrived => simp
  | idle _ hidle => simp [(hnames _ List.mem_cons_self).moving] at hidle
  | up => exact absurd rfl (hnames _ List.mem_cons_self).ne_dotDot
  | @down place piece _ _ others _ _ _ _ _ _ _ ih =>
      rw [ih (fun name hname => hnames name (List.mem_cons_of_mem _ hname)) ?_]
      · simp
      · intro above habove
        have hlonger :=
          hlinks (piece :: above) (List.cons_prefix_cons.mpr ⟨rfl, habove⟩)
        simpa using hlonger
  | @through place piece entry target _ others _ _ _ _ hentry hnode =>
      exact absurd ⟨entry, target, hentry, hnode⟩ (hlinks [piece] ⟨others, rfl⟩)

end Leads

namespace Standing

variable {tree : Tree} {place : Place}

theorem not_isLink (h : Standing tree place) (htop : tree.isDirectory [] = true)
    {above : Place} (habove : above <+: place) : ¬ tree.isLink above := by
  induction h with
  | top =>
      rintro ⟨entry, target, hentry, hnode⟩
      rw [List.prefix_nil.mp habove] at hentry
      simp [isDirectory, hentry, hnode] at htop
  | child _ _ _ hentry hnode ih =>
      rcases List.prefix_concat_iff.mp habove with rfl | hshorter
      · rintro ⟨entry, target, hlink, htarget⟩
        obtain rfl := Option.some.inj (hentry.symm.trans hlink)
        exact hnode target htarget
      · exact ih hshorter

theorem leads_of_append {links : Nat} {final : Place} {others : List Text}
    (h : Standing tree place)
    (hleads : Leads tree links [] (place ++ others) final) :
    Leads tree links place others final := by
  induction h generalizing others with
  | top => exact hleads
  | @child place entry name _ _ hname hentry hnode ih =>
      rw [List.append_assoc] at hleads
      cases ih hleads with
      | idle _ hidle => simp [hname.moving] at hidle
      | up => exact absurd rfl hname.ne_dotDot
      | down _ _ _ _ _ hrest => exact hrest
      | through _ _ _ hlink htarget =>
          obtain rfl := Option.some.inj (hentry.symm.trans hlink)
          exact absurd htarget (hnode _)

end Standing

/-! The parts of a place that exist: without a link among their names they lead
to themselves, and a real place, or one that goes on from there with a name that
is missing, has no link among them. -/

section Parts

variable {tree : Tree} {place : Place}

theorem isDirectory_top_of_canonicalize {path text : Text}
    (h : tree.canonicalize path = .ok text) :
    tree.isDirectory [] = true := by
  obtain ⟨real, hreal, -⟩ := canonicalize_eq_ok h
  exact isDirectory_top_of_locate? hreal

theorem canonicalize_text_of_moves {path real : Text}
    (hnamed : Place.Named place) (hmoves : moves (slashPieces path) = place)
    (h : tree.canonicalize path = .ok real) :
    tree.canonicalize place.text = .ok real := by
  have hsame : moves (slashPieces place.text) = place := Place.moves_text hnamed
  have hne := Native.ne_nil_of_isAbsolute (Place.isAbsolute_text place)
  refine canonicalize_of_moves h hne (hsame.trans hmoves.symm) fun hidle => ?_
  by_contra hmoving
  rw [hsame] at hmoving
  rw [Place.endsIdle_text hnamed hmoving] at hidle
  cases hidle

theorem locate?_text_of_not_isLink {real : Place} (hnamed : Place.Named place)
    (h : tree.locate? place.text = some real)
    (hlinks : ∀ above : Place, above <+: place → ¬ tree.isLink above) :
    real = place := by
  have hleads := leads_moves_of_locate? h
  rw [Place.moves_text hnamed] at hleads
  simpa using hleads.eq_append_of_not_isLink hnamed (by simpa using hlinks)

theorem Unlinked.canonicalize_eq (h : tree.Unlinked place)
    (hnamed : Place.Named place) {path real : Text}
    (hshort : moves (slashPieces path) <+: place)
    (hok : tree.canonicalize path = .ok real) :
    real = Place.text (moves (slashPieces path)) := by
  have hnamed' : Place.Named (moves (slashPieces path)) :=
    hnamed.of_above hshort
  have hok' := canonicalize_text_of_moves hnamed' rfl hok
  obtain ⟨other, hother, rfl⟩ := canonicalize_eq_ok hok'
  rw [locate?_text_of_not_isLink hnamed' hother (h _ hshort ⟨_, hok'⟩)]

theorem unlinked_of_straight (h : tree.fileSystem.Straight place.text)
    (hnamed : Place.Named place) : tree.Unlinked place := by
  rintro part hpart ⟨real, hok⟩ above habove
  have hnamed' : Place.Named part := hnamed.of_above hpart
  obtain ⟨other, hother, rfl⟩ := canonicalize_eq_ok hok
  have hstanding := standing_of_locate? hother
  have hsame :=
    h.parts ((Place.startsWith_text_iff hnamed' hnamed).mpr hpart) hok
  rw [Place.components_text_inj hstanding.named hnamed'] at hsame
  rw [Place.text_injective hstanding.named hnamed' hsame] at hstanding
  exact hstanding.not_isLink (isDirectory_top_of_canonicalize hok) habove

theorem Unlinked.parts (h : tree.Unlinked place) (hnamed : Place.Named place)
    {part real : Text} (hpart : Native.startsWith place.text part = true)
    (hok : tree.canonicalize part = .ok real) :
    real = Place.text (moves (slashPieces part)) ∧
      components real = components part := by
  have hne : part ≠ [] := by
    rintro rfl
    obtain ⟨other, hother, -⟩ := canonicalize_eq_ok hok
    exact (locate?_eq_some_iff.mp hother).1 rfl
  have hplace := Place.isAbsolute_text place
  have habsolute := Native.isAbsolute_of_startsWith hplace hne hpart
  rw [Native.startsWith_iff hplace habsolute, Place.moves_text hnamed] at hpart
  have hreal := h.canonicalize_eq hnamed hpart hok
  refine ⟨hreal, ?_⟩
  rw [hreal, Native.components_of_isAbsolute habsolute,
    Native.components_of_isAbsolute (Place.isAbsolute_text _),
    Place.moves_text (hnamed.of_above hpart)]

theorem Unlinked.straight (h : tree.Unlinked place) (hnamed : Place.Named place)
    (htop : ∃ top, tree.canonicalize ['/'] = .ok top) :
    tree.fileSystem.Straight place.text := by
  refine ⟨fun hpart hok => (h.parts hnamed hpart hok).2, ?_⟩
  obtain ⟨base, real, below, hfooting, hweakly, -⟩ :=
    exists_footing htop (Place.isAbsolute_text place)
  have hmoves := hfooting.moves
  rw [Place.moves_text hnamed] at hmoves
  have hbelow : ∀ name ∈ below, IsName name := fun name hname =>
    hnamed name (hmoves ▸ List.mem_append_right _ hname)
  have hstarts : Native.startsWith place.text base = true := by
    rw [Native.startsWith_iff (Place.isAbsolute_text place) hfooting.isAbsolute,
      Place.moves_text hnamed]
    exact ⟨below, hmoves.symm⟩
  have hreal := (h.parts hnamed hstarts hfooting.canonicalize).1
  have hbase : real = moves (slashPieces base) :=
    Place.text_injective hfooting.named (hnamed.of_above ⟨below, hmoves.symm⟩)
      hreal
  rw [hweakly, Lexical.foldl_enter_names _ _ hbelow, hbase, ← hmoves]

theorem Standing.unlinked (h : Standing tree place) : tree.Unlinked place := by
  rintro part hpart ⟨real, hok⟩ above habove
  exact h.not_isLink (isDirectory_top_of_canonicalize hok) (habove.trans hpart)

theorem Standing.unlinked_append {name : Text} {below : List Text}
    (h : Standing tree place) (hmissing : tree.entry? (place ++ [name]) = none)
    (hnames : ∀ other ∈ name :: below, IsName other) :
    tree.Unlinked (place ++ name :: below) := by
  rintro part hpart ⟨real, hok⟩ above habove
  rcases List.prefix_or_prefix_of_prefix hpart (List.prefix_append place _) with
    hshort | hlong
  · exact h.unlinked part hshort ⟨real, hok⟩ above habove
  · obtain ⟨rest, rfl⟩ := hlong
    rw [List.prefix_append_right_inj] at hpart
    cases rest with
    | nil => exact h.unlinked _ (by simp) ⟨real, hok⟩ above habove
    | cons other rest =>
        obtain ⟨rfl, hrest⟩ := List.cons_prefix_cons.mp hpart
        have hnamed : Place.Named (place ++ other :: rest) := by
          intro piece hpiece
          rcases List.mem_append.mp hpiece with hplace | hbelow
          · exact h.named piece hplace
          · exact hnames piece (hpart.subset hbelow)
        obtain ⟨final, hfinal, -⟩ := canonicalize_eq_ok hok
        have hleads := leads_moves_of_locate? hfinal
        rw [Place.moves_text hnamed] at hleads
        have hname := hnames other (by simp)
        obtain ⟨entry, hentry⟩ :=
          (h.leads_of_append hleads).exists_entry hname.moving hname.ne_dotDot
        simp [hmissing] at hentry

theorem EndsMissing.below_eq {path base : Text} {real : Place}
    {below : List Text} (h : tree.EndsMissing path)
    (hfooting : Footing tree path base real below) :
    ∃ name others, below = name :: others ∧
      tree.entry? (real ++ [name]) = none ∧
      dotDot ∉ name :: others := by
  obtain ⟨other, text, name, others, hok, hmissing, hdotDot, hmoves⟩ := h
  obtain ⟨place, hplace, rfl⟩ := canonicalize_eq_ok hok
  rw [Place.ofPath_text (standing_of_locate? hplace).named] at hmissing
  have hbase := leads_moves_of_locate? hfooting.located
  have hother := leads_moves_of_locate? hplace
  have hname : isIdle name = false := Native.isIdle_of_mem_moves
    (hmoves ▸ by simp : name ∈ moves (slashPieces path))
  have of_same : moves (slashPieces other) = moves (slashPieces base) →
      below = name :: others →
      ∃ name others, below = name :: others ∧
        tree.entry? (real ++ [name]) = none ∧
        dotDot ∉ name :: others := by
    intro hsame hbelow
    rw [hsame] at hother
    rw [← hbase.unique hother] at hmissing
    exact ⟨name, others, hbelow, hmissing, hdotDot⟩
  rcases List.append_eq_append_iff.mp (hfooting.moves.symm.trans hmoves) with
    ⟨between, hlonger, hbelow⟩ | ⟨between, hlonger, hbelow⟩
  · by_cases hnil : between = []
    · subst hnil
      exact of_same (by simpa using hlonger) hbelow
    · exact absurd hok (hfooting.longest hbelow.symm hnil (by simp) hlonger _)
  · cases between with
    | nil => exact of_same (by simpa using hlonger.symm) hbelow.symm
    | cons next between =>
        obtain ⟨rfl, -⟩ := List.cons.inj hbelow
        obtain ⟨fewer, reached, hreached, hrest⟩ := hbase.split hlonger
        rw [hreached.unique hother] at hrest
        obtain ⟨entry, hentry⟩ :=
          hrest.exists_entry hname fun heq => hdotDot (by simp [heq])
        simp [hmissing] at hentry

end Parts

section Weakly

variable {tree : Tree} {path : Text}
  (htop : ∃ top, tree.canonicalize ['/'] = .ok top)
  (hpath : Native.isAbsolute path = true)

include htop hpath

theorem straight_weaklyCanonical_iff :
    tree.fileSystem.Straight (weaklyCanonical tree.fileSystem path) ↔
      tree.Unlinked (Place.ofPath (weaklyCanonical tree.fileSystem path)) := by
  obtain ⟨base, real, below, hfooting, hweakly, hnamed⟩ :=
    exists_footing htop hpath
  rw [hweakly, Place.ofPath_text hnamed]
  exact ⟨fun h => unlinked_of_straight h hnamed,
    fun h => h.straight hnamed htop⟩

theorem unlinked_weaklyCanonical
    (h : (∃ place, tree.canonicalize path = .ok place) ∨
      tree.EndsMissing path) :
    tree.Unlinked (Place.ofPath (weaklyCanonical tree.fileSystem path)) := by
  rcases h with ⟨place, hok⟩ | hmissing
  · obtain ⟨real, hreal, rfl⟩ := canonicalize_eq_ok hok
    have hstanding := standing_of_locate? hreal
    have hweakly : weaklyCanonical tree.fileSystem path = Place.text real :=
      weaklyCanonical_of_ok hok
    rw [hweakly, Place.ofPath_text hstanding.named]
    exact hstanding.unlinked
  · obtain ⟨base, real, below, hfooting, hweakly, hnamed⟩ :=
      exists_footing htop hpath
    obtain ⟨name, others, rfl, hentry, hdotDot⟩ := hmissing.below_eq hfooting
    have hnames : ∀ other ∈ name :: others, IsName other := by
      intro other hother
      have hmove := hfooting.mem_moves hother
      exact ⟨Native.isIdle_of_mem_moves hmove,
        fun heq => hdotDot (heq ▸ hother),
        Native.slash_notMem_move hmove⟩
    rw [hweakly, Place.ofPath_text hnamed, Lexical.foldl_enter_names _ _ hnames]
    exact (standing_of_locate? hfooting.located).unlinked_append hentry hnames

end Weakly

end Tree

end InputResolution.Disk
