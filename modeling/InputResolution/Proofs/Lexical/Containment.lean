import InputResolution.Proofs.Lexical.Printing

namespace InputResolution.Lexical

open Native (moves slashPieces isAbsolute)

/-! Paths inside directories.  Main statement: a directory holds a rooted path
exactly where a text without double dots leads from the directory to it, and
what is left of the path is such a text. -/

namespace Path

def Holds (directory path : Path) : Prop :=
  path.root.agrees directory.root = true ∧ directory.segments <+: path.segments

instance (directory path : Path) : Decidable (directory.Holds path) :=
  inferInstanceAs (Decidable (_ ∧ _))

/-- The same root and the same segments, so that at most an open end tells the
two apart. -/
def Coincides (first second : Path) : Prop :=
  first.root = second.root ∧ first.segments = second.segments

instance (first second : Path) : Decidable (first.Coincides second) :=
  inferInstanceAs (Decidable (_ ∧ _))

theorem Coincides.symm {first second : Path} (h : first.Coincides second) :
    second.Coincides first :=
  ⟨h.1.symm, h.2.symm⟩

theorem Coincides.eq {first second : Path} (h : first.Coincides second)
    (htrailing : first.trailing = second.trailing) : first = second := by
  obtain ⟨root, segments, trailing⟩ := first
  obtain ⟨rfl, rfl⟩ := h
  cases htrailing
  rfl

theorem Coincides.holds_iff {first second : Path} (h : first.Coincides second)
    (directory : Path) :
    directory.Holds first ↔ directory.Holds second := by
  rw [Holds, Holds, h.1, h.2]

theorem isSome_strip?_iff {path directory : Path} :
    (path.strip? directory).isSome = true ↔ directory.Holds path := by
  unfold strip? Holds
  split <;> simp_all

theorem WellFormed.root_eq_of_agrees {first second : Path}
    (hfirst : first.WellFormed .posix) (hsecond : second.WellFormed .posix)
    (h : first.root.agrees second.root = true) :
    first.root = second.root := by
  rcases hfirst.root_posix with hroot | hroot | hroot <;>
    rcases hsecond.root_posix with hother | hother | hother <;>
    simp_all [Root.agrees]

/-! Going down: a text without double dots adds its moves to the directory it is
read from. -/

theorem segments_resolve_of_dotDot_notMem {raw : Text}
    (hrelative : isAbsolute raw = false) (h : dotDot ∉ slashPieces raw)
    (directory : Path) :
    (resolve .posix directory raw).segments =
      directory.segments ++ moves (slashPieces raw) := by
  rw [segments_resolve_of_relative hrelative, ← foldl_enter_moves,
    foldl_enter_of_dotDot_notMem _ _ h]

theorem holds_resolve {raw : Text} (hrelative : isAbsolute raw = false)
    (h : dotDot ∉ slashPieces raw) (directory : Path) :
    directory.Holds (resolve .posix directory raw) := by
  constructor
  · rw [root_resolve_of_relative hrelative, Root.agrees_self]
  · rw [segments_resolve_of_dotDot_notMem hrelative h]
    exact List.prefix_append _ _

/-- A rest that goes down only, and leads from a directory to a path.  The end
is left open where it is in the path; only the rest of the directory itself, a
dot, does not tell. -/
structure Descent (directory path rest : Path) : Prop where
  relative : rest.root = .relative
  down : dotDot ∉ rest.segments
  coincides : (resolve .posix directory rest.text).Coincides path
  trailing : rest.segments ≠ [] →
    (resolve .posix directory rest.text).trailing = path.trailing

section Rest

variable {path directory rest : Path}

theorem WellFormed.dotDot_notMem_strip? (hpath : path.WellFormed style)
    (hrooted : path.isRooted = true)
    (hrest : path.strip? directory = some rest) :
    dotDot ∉ rest.segments := by
  intro hmem
  refine hpath.settled.stays hrooted ?_
  rw [(strip?_eq_some_iff.mp hrest).2.1]
  exact List.mem_append_right _ hmem

theorem WellFormed.isAbsolute_strip? (hpath : path.WellFormed style)
    (hrest : path.strip? directory = some rest) :
    isAbsolute rest.text = false := by
  refine (hpath.strip? hrest).isAbsolute_text_of_relative ?_
  rw [isRooted, (strip?_eq_some_iff.mp hrest).2.2.1]
  rfl

theorem WellFormed.descent (hpath : path.WellFormed .posix)
    (hrooted : path.isRooted = true) (hdirectory : directory.WellFormed .posix)
    (hrest : path.strip? directory = some rest) :
    Descent directory path rest := by
  have hwell := hpath.strip? hrest
  have hdown := hpath.dotDot_notMem_strip? hrooted hrest
  have hrelative := hpath.isAbsolute_strip? hrest
  obtain ⟨hagrees, hparts, hroot, htrailing⟩ := strip?_eq_some_iff.mp hrest
  have hsegments :
      (Path.resolve .posix directory rest.text).segments = path.segments := by
    rw [segments_resolve_of_dotDot_notMem hrelative, hwell.moves_text, hparts]
    rwa [← Native.dotDot_mem_moves_iff, hwell.moves_text]
  refine ⟨hroot, hdown, ⟨?_, hsegments⟩, fun hne => ?_⟩
  · rw [root_resolve_of_relative hrelative,
      hpath.root_eq_of_agrees hdirectory hagrees]
  · have htext : rest.text = rest.relativeText := by
      rw [text, if_neg fun hdot => hne hdot.2, hroot]
      rfl
    have hopen : leavesOpen (slashPieces rest.relativeText) = rest.trailing :=
      hwell.leavesOpen_relativeText (endsOpen_of_dotDot_notMem hdown) hne
    have hsome : rest.segments.isEmpty = false := by simpa using hne
    rw [trailing_resolve_of_relative hrelative hwell.text_ne_nil, hsegments,
      htext, hopen, htrailing, hparts, hsome,
      List.isEmpty_eq_false_iff.mpr (by simp [hne])]
    simp

end Rest

/-! Inside one directory what is left tells a path, up to the open end of the
directory itself. -/

section Two

variable {first second directory rest other : Path}
  (hfirst : first.WellFormed .posix)
  (hsecond : second.WellFormed .posix)
  (hrest : first.strip? directory = some rest)

include hfirst hsecond hrest

theorem strip?_text_injective (hfirstRooted : first.isRooted = true)
    (hsecondRooted : second.isRooted = true)
    (hother : second.strip? directory = some other)
    (htext : rest.text = other.text) : rest = other :=
  (hfirst.strip? hrest).text_injective
    (endsOpen_of_dotDot_notMem (hfirst.dotDot_notMem_strip? hfirstRooted hrest))
    (hsecond.strip? hother)
    (endsOpen_of_dotDot_notMem
      (hsecond.dotDot_notMem_strip? hsecondRooted hother)) htext

theorem coincides_of_strip?_eq (hdirectory : directory.WellFormed .posix)
    (hother : second.strip? directory = some rest) :
    first.Coincides second ∧
      (first.trailing = second.trailing ∨
        first.Coincides directory ∧ second.Coincides directory) := by
  obtain ⟨hagrees, hparts, -, hopen⟩ := strip?_eq_some_iff.mp hrest
  obtain ⟨hagrees', hparts', -, hopen'⟩ := strip?_eq_some_iff.mp hother
  have hroot := hfirst.root_eq_of_agrees hdirectory hagrees
  have hroot' := hsecond.root_eq_of_agrees hdirectory hagrees'
  refine ⟨⟨hroot.trans hroot'.symm, hparts.trans hparts'.symm⟩, ?_⟩
  by_cases hnil : rest.segments = []
  · rw [hnil, List.append_nil] at hparts hparts'
    exact .inr ⟨⟨hroot, hparts⟩, hroot', hparts'⟩
  · have hsome : rest.segments.isEmpty = false := by simpa using hnil
    rw [hsome, Bool.not_false, Bool.and_true] at hopen hopen'
    exact .inl (hopen.symm.trans hopen')

end Two

/-- Rooted paths lie in a directory exactly where a text without double dots
leads to them from it, and what is left of them inside the directory is such a
text. -/
theorem strip?_exact {path directory : Path} (hpath : Normal .posix path)
    (hdirectory : Normal .posix directory) (hrooted : path.isRooted = true) :
    ((path.strip? directory).isSome = true ↔
        ∃ raw, isAbsolute raw = false ∧ .parent ∉ Native.components raw ∧
          (resolve .posix directory raw).Coincides path) ∧
      ∀ rest, path.strip? directory = some rest →
        Descent directory path rest := by
  have hdescent : ∀ rest, path.strip? directory = some rest →
      Descent directory path rest :=
    fun rest hrest =>
      hpath.wellFormed.descent hrooted hdirectory.wellFormed hrest
  refine ⟨⟨fun hsome => ?_, ?_⟩, hdescent⟩
  · obtain ⟨rest, hrest⟩ := Option.isSome_iff_exists.mp hsome
    refine ⟨rest.text, hpath.wellFormed.isAbsolute_strip? hrest, ?_,
      (hdescent rest hrest).coincides⟩
    rw [Native.parent_mem_components_iff, ← Native.dotDot_mem_moves_iff,
      (hpath.wellFormed.strip? hrest).moves_text]
    exact (hdescent rest hrest).down
  · rintro ⟨raw, hrelative, hplain, hcoincides⟩
    rw [Native.parent_mem_components_iff] at hplain
    rw [isSome_strip?_iff, ← hcoincides.holds_iff]
    exact holds_resolve hrelative hplain directory

theorem strip?_exact_sibling :
    (parse .posix ['/', 'w', '/', 'b', 'a', '/', 'x', '/']).isRooted = true ∧
      (parse .posix ['/', 'w', '/', 'b', 'a', '/', 'x', '/']).strip?
          (parse .posix ['/', 'w', '/', 'b', 'a', '/', '.']) =
        some ⟨.relative, [['x']], true⟩ ∧
      Descent (parse .posix ['/', 'w', '/', 'b', 'a', '/', '.'])
        (parse .posix ['/', 'w', '/', 'b', 'a', '/', 'x', '/'])
            ⟨.relative, [['x']], true⟩ ∧
      ¬ ∃ raw, isAbsolute raw = false ∧ .parent ∉ Native.components raw ∧
        (resolve .posix (parse .posix ['/', 'w', '/', 'b']) raw).Coincides
          (parse .posix ['/', 'w', '/', 'b', 'a', '/', 'x', '/']) := by
  have hpath : Normal .posix
        (parse .posix ['/', 'w', '/', 'b', 'a', '/', 'x', '/']) := .parsed _
  have hrest : (parse .posix ['/', 'w', '/', 'b', 'a', '/', 'x', '/']).strip?
      (parse .posix ['/', 'w', '/', 'b', 'a', '/', '.']) =
        some ⟨.relative, [['x']], true⟩ := by
    decide
  refine ⟨rfl, hrest, (strip?_exact hpath (.parsed _) rfl).2 _ hrest, ?_⟩
  rw [← (strip?_exact hpath (.parsed _) rfl).1]
  decide

end Path

end InputResolution.Lexical
