import InputResolution.Proofs.Lexical.Portable
import InputResolution.Proofs.Source.Naming

namespace InputResolution

open Lexical (Style IsSegment dot dotDot)
open Native (isAbsolute slashPieces)

/-! The form of a name.  Main statement: in either style, and whichever
directory holds the path, a name is made of portable parts between single
slashes, with at most two slashes in front and one behind; and directories that
are tried later leave alone what an earlier one has named. -/

def unrooted : Text → Text
  | '/' :: '/' :: rest => rest
  | '/' :: rest => rest
  | name => name

def shut (text : Text) : Text :=
  if text.getLast? = some '/' then text.dropLast else text

def trunk (name : Text) : Text :=
  shut (unrooted name)

/-- A part that reads the same in every style.  A dot is a part of no name but
the dot itself. -/
structure PortablePart (style : Style) (name part : Text) : Prop where
  ne_nil : part ≠ []
  ne_dotDot : part ≠ dotDot
  dot : part = dot → name = dot
  backslash : style = .windows → '\\' ∉ part

def InPortableForm (style : Style) (name : Text) : Prop :=
  trunk name = [] ∨
  ∀ part ∈ slashPieces (trunk name), PortablePart style name part

/-! Names are written from the segments of a path, behind at most two
slashes. -/

section Form

variable {style : Style} {path : Lexical.Path} {lead : Text}

theorem unrooted_append {rest : Text}
    (hlead : lead = [] ∨ lead = ['/'] ∨ lead = ['/', '/'])
    (hrest : ∀ c ∈ rest.head?, c ≠ '/') : unrooted (lead ++ rest) = rest := by
  rcases rest with _ | ⟨c, rest⟩
  · rcases hlead with rfl | rfl | rfl <;> rfl
  · have hc : c ≠ '/' := hrest c rfl
    rcases hlead with rfl | rfl | rfl <;> simp [unrooted, hc]

theorem Lexical.IsSegment.portablePart {segment : Text}
    (h : IsSegment style segment) (hdotDot : segment ≠ dotDot) (name : Text) :
    PortablePart style name segment where
  ne_nil := h.ne_nil
  ne_dotDot := hdotDot
  dot := fun hdot => absurd hdot h.ne_dot
  backslash := by
    rintro rfl hmem
    simpa [Style.separates] using h.unseparated '\\' hmem

theorem shut_relativeText (h : path.WellFormed style) :
    shut path.relativeText = Text.join '/' path.segments := by
  have hunslashed : ∀ segment ∈ path.segments, '/' ∉ segment :=
    fun segment hsegment => (h.settled.isSegment segment hsegment).unslashed
  unfold Lexical.Path.relativeText
  cases path.trailing with
  | true => simp [shut]
  | false =>
      rw [if_neg Bool.false_ne_true, List.append_nil, shut, if_neg]
      intro hslash
      obtain ⟨front, hfront⟩ := List.getLast?_eq_some_iff.mp hslash
      have hne : path.segments ≠ [] := by
        intro hnil
        simp [hnil, Text.join] at hfront
      have hpieces : path.segments = slashPieces front ++ [[]] := by
        rw [← Native.slashPieces_join hne hunslashed, hfront,
          Native.slashPieces_append_slash]
        rfl
      exact (h.settled.isSegment [] (by simp [hpieces])).ne_nil rfl

theorem inPortableForm_append (h : path.WellFormed style)
    (hstays : dotDot ∉ path.segments)
    (hlead : lead = [] ∨ lead = ['/'] ∨ lead = ['/', '/']) :
    InPortableForm style (lead ++ path.relativeText) := by
  have htrunk :
      trunk (lead ++ path.relativeText) = Text.join '/' path.segments := by
    rw [trunk, unrooted_append hlead, shut_relativeText h]
    rintro c hc rfl
    simpa using h.head?_relativeText '/' hc
  rw [InPortableForm, htrunk]
  by_cases hnil : path.segments = []
  · left
    rw [hnil]
    rfl
  · right
    rw [Native.slashPieces_join hnil fun segment hsegment =>
      (h.settled.isSegment segment hsegment).unslashed]
    intro segment hsegment
    refine (h.settled.isSegment segment hsegment).portablePart ?_ _
    exact fun hdotDot => hstays (hdotDot ▸ hsegment)

theorem inPortableForm_dot (style : Style) : InPortableForm style dot := by
  right
  intro part hpart
  have hpieces : slashPieces (trunk dot) = [dot] := by decide
  obtain rfl : part = dot := by simpa [hpieces] using hpart
  exact ⟨by simp [dot], by simp [dot, dotDot], fun _ => rfl, by simp [dot]⟩

theorem inPortableForm_text (h : path.WellFormed style)
    (hroot : path.root = .relative) (hstays : dotDot ∉ path.segments) :
    InPortableForm style path.text := by
  unfold Lexical.Path.text
  split
  · exact inPortableForm_dot style
  · rw [hroot]
    exact inPortableForm_append h hstays (.inl rfl)

/-- A path that no directory holds has one slash in front or two, and the drive,
where it is written, is one more part. -/
theorem inPortableForm_portableText (h : path.WellFormed style)
    (hrooted : path.isRooted = true) (workDir : Lexical.Path) :
    InPortableForm style (path.portableText workDir) := by
  have hstays := h.settled.stays hrooted
  have hslash : InPortableForm style ('/' :: path.relativeText) :=
    inPortableForm_append h hstays (.inr (.inl rfl))
  unfold Lexical.Path.portableText
  split
  · rename_i hroot
    simp [Lexical.Path.isRooted, hroot] at hrooted
  · exact hslash
  · exact inPortableForm_append h hstays (.inr (.inr rfl))
  · rename_i letter hroot
    split
    · exact hslash
    · obtain ⟨rfl, -⟩ := h.drive letter hroot
      have hdrive := h.driveAsSegment hroot
      rw [← Lexical.Path.relativeText_driveAsSegment letter h]
      exact inPortableForm_append hdrive (hdrive.settled.stays rfl)
        (.inr (.inl rfl))

end Form

namespace UnitNaming

variable {naming : UnitNaming} {path : Text}

/-! Directories that are tried later. -/

def extend (naming : UnitNaming) (more : List Lexical.Path) : UnitNaming :=
  { naming with includePaths := naming.includePaths ++ more }

@[simp] theorem normalize_extend (naming : UnitNaming)
    (more : List Lexical.Path) (path : Text) :
    (naming.extend more).normalize path = naming.normalize path := rfl

@[simp] theorem directories_extend (naming : UnitNaming)
    (more : List Lexical.Path) :
    (naming.extend more).directories = naming.directories ++ more := rfl

theorem make_append (style : Style) (workDir : Text) (basePath : Option Text)
    (includePaths more : List Text) :
    make style workDir basePath (includePaths ++ more) =
      (make style workDir basePath includePaths).extend
        (more.map (Lexical.Path.resolve style (.parse style workDir))) := by
  simp [make, extend]

theorem holder?_extend {directory : Lexical.Path}
    (h : naming.holder? path = some directory) (more : List Lexical.Path) :
    (naming.extend more).holder? path = some directory := by
  rw [holder?] at h
  rw [holder?, directories_extend, normalize_extend, List.find?_append, h,
    Option.some_or]

theorem name_extend {directory : Lexical.Path}
    (h : naming.holder? path = some directory) (more : List Lexical.Path) :
    (naming.extend more).name path = naming.name path := by
  obtain ⟨rest, hrest, hname⟩ := name_of_holder?_eq_some h
  obtain ⟨other, hother, hextended⟩ :=
    name_of_holder?_eq_some (holder?_extend h more)
  rw [normalize_extend, hrest, Option.some.injEq] at hother
  rw [hextended, hname, hother]

/-- What holds of every name: it is told by the first directory that holds the
path, begins with a slash where none does, and is in portable form. -/
structure NamesPortably (naming : UnitNaming) (path : Text) : Prop where
  ne_nil : naming.name path ≠ []
  isAbsolute_iff : isAbsolute (naming.name path) = true ↔
    ∀ directory ∈ naming.directories, ¬ directory.Holds (naming.normalize path)
  first : ∀ directory, naming.holder? path = some directory →
    ∃ rest, (naming.normalize path).strip? directory = some rest ∧
      naming.name path = rest.text
  form : InPortableForm naming.style (naming.name path)

theorem holder?_eq_none_iff : naming.holder? path = none ↔
    ∀ directory ∈ naming.directories,
      ¬ directory.Holds (naming.normalize path) := by
  simp [holder?]

namespace Rooted

theorem name_ne_nil (h : naming.Rooted) (path : Text) :
    naming.name path ≠ [] := by
  cases hholder : naming.holder? path with
  | none =>
      have habsolute : isAbsolute (naming.name path) = true := by
        rw [h.isAbsolute_name, hholder]
        rfl
      intro hnil
      rw [hnil] at habsolute
      cases habsolute
  | some directory =>
      obtain ⟨rest, hrest, hname⟩ := name_of_holder?_eq_some hholder
      rw [hname]
      exact ((h.wellFormed_normalize path).strip? hrest).text_ne_nil

theorem inPortableForm_name (h : naming.Rooted) (path : Text) :
    InPortableForm naming.style (naming.name path) := by
  have hwell := h.wellFormed_normalize path
  have hrooted := h.isRooted_normalize path
  cases hholder : naming.holder? path with
  | none =>
      rw [name_of_holder?_eq_none hholder]
      exact inPortableForm_portableText hwell hrooted naming.workDir
  | some directory =>
      obtain ⟨rest, hrest, hname⟩ := name_of_holder?_eq_some hholder
      rw [hname]
      exact inPortableForm_text (hwell.strip? hrest)
        (Lexical.Path.strip?_eq_some_iff.mp hrest).2.2.1
        (hwell.dotDot_notMem_strip? hrooted hrest)

theorem namesPortably (h : naming.Rooted) (path : Text) :
    naming.NamesPortably path where
  ne_nil := h.name_ne_nil path
  isAbsolute_iff := by
    rw [h.isAbsolute_name, Option.isNone_iff_eq_none, holder?_eq_none_iff]
  first := fun _ hholder => name_of_holder?_eq_some hholder
  form := h.inPortableForm_name path

end Rooted

/-- Every name is portable, and one that is relative to a directory stays as it
is whatever directories are tried after the others. -/
theorem namesPortably_make {style : Style} {workDir : Text}
    (hworkDir : (Lexical.Path.parse style workDir).isRooted = true)
    (basePath : Option Text) (includePaths : List Text) (path : Text) :
    (make style workDir basePath includePaths).NamesPortably path ∧
      ∀ more : List Text,
        isAbsolute ((make style workDir basePath includePaths).name path) =
          false →
          (make style workDir basePath (includePaths ++ more)).name path =
            (make style workDir basePath includePaths).name path := by
  have hrooted := rooted_make hworkDir basePath includePaths
  refine ⟨hrooted.namesPortably path, ?_⟩
  intro more hrelative
  obtain ⟨directory, hholder⟩ := hrooted.exists_holder hrelative
  rw [make_append]
  exact name_extend hholder _

def twoDriveNaming : UnitNaming :=
  make .windows ['C', ':', '\\', 'w'] (some ['D', ':', '\\', 'b']) [['x', '\\']]

/-- One path is beside the base path on its drive; the other is inside an
include path, and inside the working directory, which is tried after it. -/
theorem namesPortably_make_twoDriveNaming :
    (Lexical.Path.parse .windows ['C', ':', '\\', 'w']).isRooted = true ∧
      (twoDriveNaming.name ['d', ':', 'y', '\\', '.', '.', '/', 'z', '\\'] =
          ['/', 'd', ':', '/', 'z', '/'] ∧
        twoDriveNaming.NamesPortably
            ['d', ':', 'y', '\\', '.', '.', '/', 'z', '\\']) ∧
      isAbsolute (twoDriveNaming.name ['\\', 'w', '/', 'x', '/', 'q']) = false ∧
        (make .windows ['C', ':', '\\', 'w'] (some ['D', ':', '\\', 'b'])
          ([['x', '\\']] ++ [['.']])).name ['\\', 'w', '/', 'x', '/', 'q'] =
            ['q'] := by
  have hworkDir : (Lexical.Path.parse .windows ['C', ':', '\\', 'w']).isRooted =
      true := by decide
  have hnamed :=
    namesPortably_make hworkDir (some ['D', ':', '\\', 'b']) [['x', '\\']]
  refine ⟨hworkDir, ⟨by decide, (hnamed _).1⟩, by decide, ?_⟩
  exact ((hnamed ['\\', 'w', '/', 'x', '/', 'q']).2 [['.']] (by decide)).trans
    (by decide)

end UnitNaming

end InputResolution
