import InputResolution.Disk.Tree
import InputResolution.Source.Sandbox
import InputResolution.Proofs.Native.Parent

namespace InputResolution.Disk.Place

open Native (IsName isIdle slashPieces)

/-! The texts of real places.  A place that is made of names can be read off its
text, off the components of its text, and off the text of every place above
it. -/

def Named (place : Place) : Prop :=
  ∀ name ∈ place, IsName name

theorem named_nil : Named [] := by
  simp [Named]

theorem Named.of_above {above place : Place} (h : Named place)
    (habove : above <+: place) :
    Named above :=
  fun name hname => h name (habove.subset hname)

theorem Named.dropLast {place : Place} (h : Named place) :
    Named place.dropLast :=
  h.of_above (List.dropLast_prefix place)

theorem Named.leave_eq {place : Place} (h : Named place) :
    Lexical.leave true place = place.dropLast := by
  rcases List.eq_nil_or_concat place with rfl | ⟨above, last, rfl⟩
  · rfl
  · rw [List.concat_eq_append,
      Lexical.leave_append_singleton _ _ (h last (by simp)).ne_dotDot,
      List.dropLast_concat]

theorem text_eq_flatMap {place : Place} (hne : place ≠ []) :
    place.text = place.flatMap fun name => '/' :: name := by
  rw [text, if_neg (by simpa using hne)]

theorem text_eq_join {place : Place} (hne : place ≠ []) :
    place.text = '/' :: Text.join '/' place := by
  rw [text_eq_flatMap hne]
  induction place with
  | nil => exact absurd rfl hne
  | cons name others ih =>
      by_cases hothers : others = []
      · simp [hothers]
      · rw [List.flatMap_cons, ih hothers, Text.join_cons_of_ne_nil _ _ hothers]
        rfl

theorem isAbsolute_text (place : Place) :
    Native.isAbsolute place.text = true := by
  by_cases hne : place = []
  · rw [hne]
    rfl
  · rw [text_eq_join hne]
    rfl

theorem slashPieces_text {place : Place} (h : Named place) (hne : place ≠ []) :
    slashPieces place.text = [] :: place := by
  rw [text_eq_join hne, Native.slashPieces_cons_slash,
    Native.slashPieces_join hne fun name hname => (h name hname).unseparated]

theorem moves_text {place : Place} (h : Named place) :
    Native.moves (slashPieces place.text) = place := by
  by_cases hne : place = []
  · rw [hne]
    rfl
  · rw [slashPieces_text h hne, Native.moves_cons_nil, Native.moves_names h]

theorem ofPath_text {place : Place} (h : Named place) :
    ofPath place.text = place := by
  have hnonempty : place.filter (! ·.isEmpty) = place := by
    apply List.filter_eq_self.mpr
    intro name hname
    have hne : name ≠ [] := by
      rintro rfl
      exact absurd (h [] hname).moving (by decide)
    simpa using hne
  by_cases hne : place = []
  · rw [hne]
    rfl
  · rw [ofPath, slashPieces_text h hne]
    simpa using hnonempty

theorem endsIdle_text {place : Place} (h : Named place) (hne : place ≠ []) :
    Native.endsIdle (slashPieces place.text) = false := by
  rw [slashPieces_text h hne, Native.endsIdle_cons hne]
  obtain ⟨above, name, rfl⟩ := (List.eq_nil_or_concat place).resolve_left hne
  simp [Native.endsIdle, (h name (by simp)).moving]

theorem text_injective {first second : Place} (hfirst : Named first)
    (hsecond : Named second) (h : first.text = second.text) :
    first = second := by
  rw [← moves_text hfirst, h, moves_text hsecond]

/-! The place above. -/

theorem dropIdle_names {place : Place} (h : Named place) :
    Native.dropIdle place = place := by
  rcases List.eq_nil_or_concat place with rfl | ⟨above, name, rfl⟩
  · rfl
  · have hmoving : isIdle name = false := (h name (by simp)).moving
    simp [Native.dropIdle, hmoving]

theorem parent?_text {place : Place} (h : Named place) (hne : place ≠ []) :
    Native.parent? place.text = some (text place.dropLast) := by
  obtain ⟨first, others, hplace⟩ := List.exists_cons_of_ne_nil hne
  have hbody : Native.dropIdle place = first :: others := by
    rw [dropIdle_names h, hplace]
  unfold Native.parent?
  rw [slashPieces_text h hne]
  simp only [hbody, true_and]
  rw [← hplace, dropIdle_names h.dropLast]
  by_cases habove : place.dropLast = []
  · rw [if_pos habove, habove]
    rfl
  · rw [if_neg habove, text_eq_join habove, Text.join_cons_of_ne_nil _ _ habove]
    rfl

theorem directoryOf_text {place : Place} (h : Named place) :
    Sandbox.directoryOf place.text = text place.dropLast := by
  by_cases hne : place = []
  · rw [hne]
    rfl
  · rw [Sandbox.directoryOf, parent?_text h hne]
    rfl

/-! Order of places. -/

theorem components_text {place : Place} (h : Named place) :
    Native.components place.text = .root :: place.map .name := by
  have hnames : place.map Native.bodyComponent = place.map .name := by
    apply List.map_congr_left
    intro name hname
    exact if_neg (h name hname).ne_dotDot
  rw [Native.components_of_isAbsolute (isAbsolute_text place), moves_text h,
    hnames]

theorem components_text_inj {first second : Place} (hfirst : Named first)
    (hsecond : Named second) :
    Native.components first.text = Native.components second.text ↔
    first.text = second.text := by
  constructor
  · intro h
    rw [components_text hfirst, components_text hsecond,
      List.cons_inj_right] at h
    rw [List.map_inj_right (fun _ _ heq => Native.Component.name.inj heq) |>.mp
      h]
  · exact congrArg Native.components

theorem startsWith_text_iff {directory place : Place}
    (hdirectory : Named directory) (hplace : Named place) :
    Native.startsWith place.text directory.text = true ↔
    directory <+: place := by
  rw [Native.startsWith_iff (isAbsolute_text place) (isAbsolute_text directory),
    moves_text hdirectory, moves_text hplace]

/-- Below a directory other than the top lie the places whose text goes on with
a slash behind the text of the directory. -/
theorem prefix_text_iff {directory place : Place} (hdirectory : Named directory)
    (hplace : Named place) (hne : directory ≠ []) (hplaceNe : place ≠ []) :
    directory.text ++ ['/'] <+: place.text ↔ directory <+: place.dropLast := by
  constructor
  · rintro ⟨rest, hrest⟩
    have hpieces : [] :: place = [] :: directory ++ slashPieces rest := by
      rw [← slashPieces_text hplace hplaceNe, ← slashPieces_text hdirectory hne,
        ← Native.slashPieces_append_slash, ← hrest, List.append_assoc]
      rfl
    have hplace : place = directory ++ slashPieces rest := by
      simpa using hpieces
    rw [hplace, List.dropLast_append_of_ne_nil (Native.slashPieces_ne_nil rest)]
    exact List.prefix_append _ _
  · rintro ⟨between, hbetween⟩
    obtain ⟨above, name, hlast⟩ :=
      (List.eq_nil_or_concat place).resolve_left hplaceNe
    have hplace : place = directory ++ (between ++ [name]) := by
      rw [← List.append_assoc, hbetween, hlast]
      simp
    obtain ⟨next, others, hbelow⟩ :=
      List.exists_cons_of_ne_nil (l := between ++ [name]) (by simp)
    rw [text_eq_flatMap hne, text_eq_flatMap hplaceNe, hplace, hbelow,
      List.flatMap_append, List.prefix_append_right_inj, List.flatMap_cons]
    exact ⟨next ++ others.flatMap fun name => '/' :: name, rfl⟩

end InputResolution.Disk.Place
