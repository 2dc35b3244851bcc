import InputResolution.Proofs.Lexical.Drives
import InputResolution.Proofs.Source.Identity

namespace InputResolution.UnitNaming

open Lexical (ReadsAsPosix SeparatedAlike Root)
open Lexical.Path (parse)

/-! Names where drives exist.  Main statements: a name does not depend on which
separators its path is written with; it depends on the case of the drive's
letter exactly where it is the name of a path that no directory holds on a drive
other than the working drive, because there the letter is part of it; and on the
working drive it does not matter whether the drive is written at all. -/

variable {naming : UnitNaming} {first second : Text}

theorem normalize_of_separatedAlike (hstyle : naming.style = .windows)
    (h : SeparatedAlike first second) :
    naming.normalize first = naming.normalize second := by
  rw [normalize, normalize, hstyle, h.resolve_eq]

/-- Windows texts are read as Posix ones behind their drive, and slashes and
backslashes may stand for each other in every path that is named. -/
theorem readsAsPosix_and_name_eq (workDir : Text) (basePath : Option Text)
    (includePaths : List Text) (path : Text) :
    let naming := make .windows workDir basePath includePaths
    ReadsAsPosix path ∧
      ∀ other, SeparatedAlike path other →
        naming.normalize path = naming.normalize other ∧
          naming.name path = naming.name other := by
  intro naming
  refine ⟨Lexical.readsAsPosix path, fun other halike => ?_⟩
  have hnormalized : naming.normalize path = naming.normalize other :=
    normalize_of_separatedAlike rfl halike
  exact ⟨hnormalized, name_congr hnormalized⟩

theorem readsAsPosix_and_name_eq_mixed :
    parse .windows ['d', ':', 'a', '/', 'b', '\\'] =
        { parse .posix ['/', '/', '/', 'a', '/', 'b', '/'] with
          root := .drive 'd' } ∧
      parse .windows ['\\', '\\', 'h', '/', 's'] =
        parse .posix ['/', '/', 'h', '/', 's'] ∧
      SeparatedAlike ['d', ':', 'a', '/', 'b', '\\']
          ['d', ':', 'a', '\\', 'b', '/'] ∧
      (make .windows ['C', ':', '\\', 'w'] none []).name
          ['d', ':', 'a', '/', 'b', '\\'] =
        (make .windows ['C', ':', '\\', 'w'] none []).name
            ['d', ':', 'a', '\\', 'b', '/'] := by
  have hnamed := readsAsPosix_and_name_eq ['C', ':', '\\', 'w'] none []
  have halike : SeparatedAlike ['d', ':', 'a', '/', 'b', '\\']
        ['d', ':', 'a', '\\', 'b', '/'] :=
    .cons (.inl rfl)
      (.cons (.inl rfl) (.cons (.inl rfl) (.cons (.inr ⟨rfl, rfl⟩)
      (.cons (.inl rfl) (.cons (.inr ⟨rfl, rfl⟩) .nil)))))
  have hdrive :=
    (hnamed ['d', ':', 'a', '/', 'b', '\\']).1.drive 'd' _ rfl (by decide)
  have hdriveless : ¬ Lexical.BeginsAsDrive ['\\', '\\', 'h', '/', 's'] := by
    rintro ⟨letter, rest, htext, -⟩
    cases htext
  exact ⟨hdrive, (hnamed _).1.driveless hdriveless, halike,
    ((hnamed _).2 _ halike).2⟩

/-! The case of a drive's letter. -/

theorem holder?_of_recases
    (h : (naming.normalize first).Recases (naming.normalize second)) :
    naming.holder? first = naming.holder? second := by
  simp only [holder?, h.holds_iff]

theorem name_eq_of_recases
    (h : (naming.normalize first).Recases (naming.normalize second))
    {directory : Lexical.Path}
    (hholder : naming.holder? first = some directory) :
    naming.name first = naming.name second := by
  obtain ⟨rest, hrest, hname⟩ := name_of_holder?_eq_some hholder
  obtain ⟨other, hother, hname'⟩ :=
    name_of_holder?_eq_some ((holder?_of_recases h).symm.trans hholder)
  rw [h.strip?_eq, hother, Option.some.injEq] at hrest
  rw [hname, hname', hrest]

theorem name_eq_iff_of_recases
    (h : (naming.normalize first).Recases (naming.normalize second))
    {letter other : Char}
    (hfirst : (naming.normalize first).root = .drive letter)
    (hsecond : (naming.normalize second).root = .drive other) :
    naming.name first = naming.name second ↔
      letter = other ∨ (naming.holder? first).isSome = true ∨
        (Root.drive letter).agrees naming.workDir.root = true := by
  cases hholder : naming.holder? first with
  | some directory =>
      exact iff_of_true (name_eq_of_recases h hholder) (.inr (.inl rfl))
  | none =>
      have hother : naming.holder? second = none :=
        (holder?_of_recases h).symm.trans hholder
      rw [name_of_holder?_eq_none hholder, name_of_holder?_eq_none hother,
        h.portableText_eq_iff hfirst hsecond]
      simp

/-- The case of a drive's letter tells names apart only where the letter is
written: outside every directory that names are relative to, and off the working
drive. -/
theorem name_drive_eq_iff {letter other : Char}
    (hletter : letter.isAlpha = true) (hother : other.isAlpha = true)
    (hcase : letter.toLower = other.toLower) (workDir : Text)
    (basePath : Option Text) (includePaths : List Text) (rest : Text) :
    let naming := make .windows workDir basePath includePaths
    naming.name (letter :: ':' :: rest) = naming.name (other :: ':' :: rest) ↔
      letter = other ∨
        (∃ directory ∈ naming.directories,
          directory.Holds (naming.normalize (letter :: ':' :: rest))) ∨
        (Root.drive letter).agrees naming.workDir.root = true := by
  intro naming
  have hrecases : (naming.normalize (letter :: ':' :: rest)).Recases
      (naming.normalize (other :: ':' :: rest)) :=
    Lexical.Path.recases_resolve hletter hother hcase naming.workDir rest
  have hroot : ∀ {c : Char}, c.isAlpha = true →
      (naming.normalize (c :: ':' :: rest)).root = .drive c := fun hc =>
        congrArg Lexical.Path.root
          (Lexical.Path.resolve_of_drive hc naming.workDir rest)
  rw [name_eq_iff_of_recases hrecases (hroot hletter) (hroot hother), holder?,
    List.find?_isSome]
  simp only [decide_eq_true_eq]

theorem name_drive_eq_iff_other_drives :
    Char.isAlpha 'D' = true ∧ Char.isAlpha 'd' = true ∧
      Char.toLower 'D' = Char.toLower 'd' ∧
      (make .windows ['C', ':', '\\', 'w'] (some ['D', ':', 'b']) []).name
          ['D', ':', '\\', 'b', '\\', 'x'] =
        (make .windows ['C', ':', '\\', 'w'] (some ['D', ':', 'b']) []).name
          ['d', ':', '\\', 'b', '\\', 'x'] ∧
      (make .windows ['C', ':', '\\', 'w'] (some ['D', ':', 'b']) []).name
          ['e', ':', '\\', 'b', '\\', 'x'] ≠
        (make .windows ['C', ':', '\\', 'w'] (some ['D', ':', 'b']) []).name
          ['E', ':', '\\', 'b', '\\', 'x'] := by
  refine ⟨by decide, by decide, by decide, ?_, ?_⟩
  · exact (name_drive_eq_iff (by decide) (by decide) (by decide)
      ['C', ':', '\\', 'w']
      (some ['D', ':', 'b']) [] ['\\', 'b', '\\', 'x']).mpr (by decide)
  · exact mt (name_drive_eq_iff (by decide) (by decide) (by decide)
      ['C', ':', '\\', 'w']
      (some ['D', ':', 'b']) [] ['\\', 'b', '\\', 'x']).mp (by decide)

theorem name_drive_ne_of_recased :
    (parse .windows ['C', ':', '\\', 'w']).isRooted = true ∧
      Char.isAlpha 'D' = true ∧ Char.toLower 'D' = 'd' ∧
      (make .windows ['C', ':', '\\', 'w'] none []).name ['D', ':', '\\', 'x'] ≠
        (make .windows ['C', ':', '\\', 'w'] none []).name
            ['d', ':', '\\', 'x'] := by
  decide

/-! Paths without a drive. -/

/-- Behind any number of separators other than two, a path has the name that it
has behind the working drive, whichever case the letter of the drive is written
in. -/
theorem name_eq_name_on_drive {letter other : Char} {path : Text}
    (workDir : Text) (basePath : Option Text) (includePaths : List Text)
    (hworkDir : (parse .windows workDir).root = .drive letter)
    (hcase : letter.toLower = other.toLower)
    (hleading : (path.takeWhile Lexical.Style.windows.separates).length = 1 ∨
      3 ≤ (path.takeWhile Lexical.Style.windows.separates).length) :
    let naming := make .windows workDir basePath includePaths
    naming.name path = naming.name (other :: ':' :: path) := by
  intro naming
  have hletter : letter.isAlpha = true := (Lexical.splitRoot_drive hworkDir).2
  have hother : other.isAlpha = true :=
    Lexical.isAlpha_of_toLower_eq hcase hletter
  have hraw := Lexical.splitRoot_of_leading hleading
  have hrecases : (naming.normalize path).Recases
        (naming.normalize (other :: ':' :: path)) :=
    Lexical.Path.recases_resolve_on_drive hworkDir hletter hcase hraw
  have hfirst : (naming.normalize path).root = .drive letter :=
    congrArg Lexical.Path.root (Lexical.Path.resolve_of_slash hworkDir hraw)
  have hsecond :
      (naming.normalize (other :: ':' :: path)).root = .drive other :=
    congrArg Lexical.Path.root
      (Lexical.Path.resolve_of_drive hother naming.workDir path)
  have hagrees : (Root.drive letter).agrees naming.workDir.root = true := by
    have hroot : naming.workDir.root = .drive letter := hworkDir
    rw [hroot, Root.agrees_self]
  exact (name_eq_iff_of_recases hrecases hfirst hsecond).mpr
    (.inr (.inr hagrees))

/-- The base path is on another drive; an include path, written in the other
case, holds the path. -/
theorem name_eq_name_on_drive_include :
    (parse .windows ['c', ':', '\\', 'w']).root = .drive 'c' ∧
      Char.toLower 'c' = Char.toLower 'C' ∧
      3 ≤ (['\\', '/', '\\', 'i', '/', '.', '.', '/', 'i', '\\', 'x'].takeWhile
        Lexical.Style.windows.separates).length ∧
      (make .windows ['c', ':', '\\', 'w'] (some ['D', ':', 'b'])
          [['C', ':', 'i']]).name
          ['\\', '/', '\\', 'i', '/', '.', '.', '/', 'i', '\\', 'x'] = ['x'] ∧
      (make .windows ['c', ':', '\\', 'w'] (some ['D', ':', 'b'])
          [['C', ':', 'i']]).name
          ['C', ':', '\\', '/', '\\', 'i', '/', '.', '.', '/', 'i', '\\', 'x'] =
            ['x'] := by
  have hworkDir : (parse .windows ['c', ':', '\\', 'w']).root = .drive 'c' := by
    decide
  have hcase : Char.toLower 'c' = Char.toLower 'C' := by decide
  have hleading :
      3 ≤ (['\\', '/', '\\', 'i', '/', '.', '.', '/', 'i', '\\', 'x'].takeWhile
      Lexical.Style.windows.separates).length := by decide
  have hnamed : (make .windows ['c', ':', '\\', 'w'] (some ['D', ':', 'b'])
      [['C', ':', 'i']]).name
      ['\\', '/', '\\', 'i', '/', '.', '.', '/', 'i', '\\', 'x'] = ['x'] := by
    decide
  exact ⟨hworkDir, hcase, hleading, hnamed,
    (name_eq_name_on_drive _ _ _ hworkDir hcase (.inr hleading)).symm.trans
      hnamed⟩

end InputResolution.UnitNaming
