import InputResolution.Proofs.Lexical.Joining
import InputResolution.Proofs.Source.Naming

namespace InputResolution

open Lexical (dot)
open Native (isAbsolute)

/-! What a name tells of its path.  Main statements: without include paths it
tells everything but the open end of the one directory that names are relative
to; and a name is kept when it is named again, as it stands or behind the
directory that it is relative to. -/

namespace UnitNaming

variable {naming : UnitNaming} {path first second : Text}

/-! Which directory holds a path, and what is left of it there, is told by root
and segments; an open end counts only where something is left. -/

theorem holder?_congr
    (h : (naming.normalize first).Coincides (naming.normalize second)) :
    naming.holder? first = naming.holder? second := by
  simp only [holder?, h.holds_iff]

theorem name_congr (h : naming.normalize first = naming.normalize second) :
    naming.name first = naming.name second := by
  simp only [name, h]

theorem name_eq_of_coincides
    (h : (naming.normalize first).Coincides (naming.normalize second))
    (htrailing : (naming.normalize first).trailing =
      (naming.normalize second).trailing ∨
      ∃ directory, naming.holder? first = some directory ∧
        (naming.normalize first).segments = directory.segments) :
    naming.name first = naming.name second := by
  rcases htrailing with hopen | ⟨directory, hholder, hsegments⟩
  · exact name_congr (h.eq hopen)
  · rw [name_eq_dot hholder hsegments,
      name_eq_dot ((holder?_congr h).symm.trans hholder)
        (h.2.symm.trans hsegments)]

theorem holder?_of_coincides_primary
    (h : (naming.normalize path).Coincides naming.primary) :
    naming.holder? path = some naming.primary := by
  have hholds : naming.primary.Holds (naming.normalize path) := by
    rw [h.holds_iff]
    exact ⟨Lexical.Root.agrees_self _, List.prefix_rfl⟩
  simp [holder?, directories, hholds]

theorem holder_eq_primary (hincludes : naming.includePaths = [])
    {directory : Lexical.Path}
    (hholder : naming.holder? path = some directory) :
    directory = naming.primary := by
  simpa [directories, hincludes] using List.mem_of_find?_eq_some hholder

namespace Posix

theorem normalize_injective (h : naming.Posix)
    (htext : (naming.normalize first).text = (naming.normalize second).text) :
    naming.normalize first = naming.normalize second :=
  (h.wellFormed_normalize first).text_injective
    ((h.wellFormed_normalize first).endsOpen (h.isRooted_normalize first))
    (h.wellFormed_normalize second)
    ((h.wellFormed_normalize second).endsOpen (h.isRooted_normalize second))
      htext

theorem coincides_of_holder (h : naming.Posix) {directory : Lexical.Path}
    (hfirst : naming.holder? first = some directory)
    (hsecond : naming.holder? second = some directory)
    (hname : naming.name first = naming.name second) :
    (naming.normalize first).Coincides (naming.normalize second) ∧
      ((naming.normalize first).trailing = (naming.normalize second).trailing ∨
        (naming.normalize first).Coincides directory ∧
          (naming.normalize second).Coincides directory) := by
  obtain ⟨rest, hrest, hfirstName⟩ := name_of_holder?_eq_some hfirst
  obtain ⟨other, hother, hsecondName⟩ := name_of_holder?_eq_some hsecond
  have hwell := h.wellFormed_normalize first
  have hwell' := h.wellFormed_normalize second
  obtain rfl : rest = other := by
    refine Lexical.Path.strip?_text_injective hwell hwell' hrest
      (h.isRooted_normalize first)
      (h.isRooted_normalize second) hother ?_
    rw [← hfirstName, hname, hsecondName]
  exact Lexical.Path.coincides_of_strip?_eq hwell hwell' hrest
    (h.wellFormed_holder hfirst) hother

theorem coincides_of_name_eq (h : naming.Posix)
    (hincludes : naming.includePaths = [])
    (hname : naming.name first = naming.name second) :
    (naming.normalize first).Coincides (naming.normalize second) ∧
      ((naming.normalize first).trailing = (naming.normalize second).trailing ∨
        (naming.normalize first).Coincides naming.primary ∧
          (naming.normalize second).Coincides naming.primary) := by
  cases habsolute : isAbsolute (naming.name first) with
  | true =>
      have hsecond : isAbsolute (naming.name second) = true := hname ▸ habsolute
      have hsame : naming.normalize first = naming.normalize second := by
        apply h.normalize_injective
        rw [← h.name_of_isAbsolute habsolute, hname,
          h.name_of_isAbsolute hsecond]
      rw [hsame]
      exact ⟨⟨rfl, rfl⟩, .inl rfl⟩
  | false =>
      obtain ⟨directory, hfirst⟩ := h.exists_holder habsolute
      obtain ⟨other, hsecond⟩ := h.exists_holder (hname ▸ habsolute)
      obtain rfl := holder_eq_primary hincludes hfirst
      obtain rfl := holder_eq_primary hincludes hsecond
      exact h.coincides_of_holder hfirst hsecond hname

/-! A name is read again as its path, or behind its directory as a path that
coincides with it. -/

theorem normalize_name (h : naming.Posix)
    (habsolute : isAbsolute (naming.name path) = true) :
    naming.normalize (naming.name path) = naming.normalize path := by
  have hread :=
    (h.wellFormed_normalize path).resolve_text (h.isRooted_normalize path)
    naming.workDir
  rwa [← h.name_of_isAbsolute habsolute, ← h.style] at hread

theorem normalize_join_name (h : naming.Posix) {directory : Lexical.Path}
    (hholder : naming.holder? path = some directory) :
    naming.normalize (Native.join directory.text (naming.name path)) =
      Lexical.Path.resolve .posix directory (naming.name path) := by
  obtain ⟨rest, hrest, hname⟩ := name_of_holder?_eq_some hholder
  have hwell := h.wellFormed_normalize path
  rw [normalize, h.style, hname]
  exact (h.wellFormed_holder hholder).resolve_join (h.isRooted_holder hholder)
    (hwell.isAbsolute_strip? hrest) (hwell.strip? hrest).text_ne_nil
      naming.workDir

theorem name_join_name (h : naming.Posix) {directory : Lexical.Path}
    (hholder : naming.holder? path = some directory) :
    naming.name (Native.join directory.text (naming.name path)) =
      naming.name path := by
  obtain ⟨rest, hrest, hname⟩ := name_of_holder?_eq_some hholder
  have hdescent :=
    (h.wellFormed_normalize path).descent (h.isRooted_normalize path)
    (h.wellFormed_holder hholder) hrest
  have hread := (h.normalize_join_name hholder).trans (congrArg _ hname)
  -- the same directory is the first to hold both, so only an open end could
  -- change the name
  refine (name_eq_of_coincides ?_ ?_).symm
  · rw [hread]
    exact hdescent.coincides.symm
  · by_cases hnil : rest.segments = []
    · have hparts := (Lexical.Path.strip?_eq_some_iff.mp hrest).2.1
      exact .inr ⟨directory, hholder, by rw [hparts, hnil, List.append_nil]⟩
    · rw [hread]
      exact .inl (hdescent.trailing hnil).symm

end Posix

/-- Without include paths two paths share a name exactly where they differ in
nothing but the open end of the directory that names are relative to. -/
theorem name_eq_iff {workDir : Text}
    (hworkDir : (Lexical.Path.parse .posix workDir).isRooted = true)
    (basePath : Option Text) (first second : Text) :
    let naming := make .posix workDir basePath []
    naming.name first = naming.name second ↔
      (naming.normalize first).Coincides (naming.normalize second) ∧
        ((naming.normalize first).trailing =
            (naming.normalize second).trailing ∨
          (naming.normalize first).Coincides naming.primary ∧
            (naming.normalize second).Coincides naming.primary) := by
  intro naming
  have hposix : naming.Posix :=
    posix_make ((Lexical.isRooted_splitRoot_posix workDir).symm.trans hworkDir)
      _ _
  constructor
  · exact hposix.coincides_of_name_eq rfl
  · rintro ⟨hcoincides, hopen⟩
    refine name_eq_of_coincides hcoincides (hopen.imp_right ?_)
    rintro ⟨hprimary, -⟩
    exact ⟨naming.primary, holder?_of_coincides_primary hprimary, hprimary.2⟩

theorem name_eq_iff_open_ends :
    (Lexical.Path.parse .posix ['/', 'w']).isRooted = true ∧
      (make .posix ['/', 'w'] (some ['b', '/']) []).name ['b', '/', 'x', '/'] ≠
        (make .posix ['/', 'w'] (some ['b', '/']) []).name ['b', '/', 'x'] ∧
      (make .posix ['/', 'w'] (some ['b', '/']) []).name ['/', 'w', '/', 'b'] =
        (make .posix ['/', 'w'] (some ['b', '/']) []).name
            ['b', '/', 'x', '/', '.', '.'] := by
  have hworkDir : (Lexical.Path.parse .posix ['/', 'w']).isRooted = true := by
    decide
  refine ⟨hworkDir, ?_, ?_⟩
  · exact mt (name_eq_iff hworkDir (some ['b', '/']) ['b', '/', 'x', '/']
      ['b', '/', 'x']).mp
      (by decide)
  · exact (name_eq_iff hworkDir (some ['b', '/']) ['/', 'w', '/', 'b']
      ['b', '/', 'x', '/', '.', '.']).mpr (by decide)

/-- A name that begins with a slash names itself; any other does so behind the
first directory that holds its path. -/
theorem name_name {workDir : Text}
    (hworkDir : (Lexical.Path.parse .posix workDir).isRooted = true)
    (basePath : Option Text) (includePaths : List Text) (path : Text) :
    let naming := make .posix workDir basePath includePaths
    (isAbsolute (naming.name path) = true →
        naming.name (naming.name path) = naming.name path) ∧
      (isAbsolute (naming.name path) = false →
        ∃ directory, naming.holder? path = some directory ∧
          naming.name (Native.join directory.text (naming.name path)) =
            naming.name path) := by
  intro naming
  have hposix : naming.Posix :=
    posix_make ((Lexical.isRooted_splitRoot_posix workDir).symm.trans hworkDir)
      _ _
  constructor
  · exact fun habsolute => name_congr (hposix.normalize_name habsolute)
  · intro hrelative
    obtain ⟨directory, hholder⟩ := hposix.exists_holder hrelative
    exact ⟨directory, hholder, hposix.name_join_name hholder⟩

def doubleSlashNaming : UnitNaming :=
  make .posix ['/', '/', 'h'] (some ['/', 'b']) [['.'], ['x']]

theorem name_name_doubleSlashNaming :
    (Lexical.Path.parse .posix ['/', '/', 'h']).isRooted = true ∧
      (doubleSlashNaming.name ['x', '/', 'y', '/', '.'] = ['x', '/', 'y', '/'] ∧
        doubleSlashNaming.name
            (Native.join ['/', '/', 'h', '/'] ['x', '/', 'y', '/']) =
          ['x', '/', 'y', '/']) ∧
      doubleSlashNaming.name ['/', '.', '.', '/', 'c', '/', '.'] =
        ['/', 'c', '/'] ∧
        doubleSlashNaming.name ['/', 'c', '/'] = ['/', 'c', '/'] := by
  have hworkDir :
      (Lexical.Path.parse .posix ['/', '/', 'h']).isRooted = true := by decide
  have hnamed := name_name hworkDir (some ['/', 'b']) [['.'], ['x']]
  refine ⟨hworkDir, ⟨by decide, ?_⟩, by decide, ?_⟩
  · obtain ⟨directory, hholder, hname⟩ :=
      (hnamed ['x', '/', 'y', '/', '.']).2 (by decide)
    obtain rfl : directory = ⟨.doubleSlash, [['h']], true⟩ :=
      Option.some.inj (hholder.symm.trans (by decide))
    exact hname
  · exact (hnamed ['/', '.', '.', '/', 'c', '/', '.']).1 (by decide)

end UnitNaming

end InputResolution
