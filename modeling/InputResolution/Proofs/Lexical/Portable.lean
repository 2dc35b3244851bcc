import InputResolution.Proofs.Lexical.Printing

namespace InputResolution.Lexical.Path

/-! Portable texts of paths that hang from different roots.  The drive of a path
that is not on the working drive is written as a first segment, and a path on
the working drive can have a first segment written the same way.  Main
statement: nothing else makes two such texts equal. -/

section RelativeText

variable {style : Style} {first second : Path}

theorem WellFormed.relativeText_injective (hfirst : first.WellFormed style)
    (hsecond : second.WellFormed style)
    (h : first.relativeText = second.relativeText) :
    first.segments = second.segments ∧ first.trailing = second.trailing := by
  by_cases hnil : first.segments = []
  · have hother : second.segments = [] := by
      rw [← hsecond.relativeText_eq_nil_iff, ← h,
        hfirst.relativeText_eq_nil_iff, hnil]
    rw [hnil, hother, hfirst.trailing_of_nil hnil,
      hsecond.trailing_of_nil hother]
    exact ⟨rfl, rfl⟩
  · have hother : second.segments ≠ [] := by
      rwa [ne_eq, ← hsecond.relativeText_eq_nil_iff, ← h,
        hfirst.relativeText_eq_nil_iff]
    have hpieces := congrArg (Text.pieces style.separates) h
    rw [hfirst.pieces_relativeText hnil,
      hsecond.pieces_relativeText hother] at hpieces
    have notMem : ∀ {path : Path}, path.WellFormed style → [] ∉ path.segments :=
      fun hpath hmem => (hpath.settled.isSegment [] hmem).ne_nil rfl
    cases htrailing : first.trailing <;> cases htrailing' : second.trailing <;>
      simp only [htrailing, htrailing', Bool.false_eq_true, if_true, if_false,
        List.append_nil]
        at hpieces
    · exact ⟨hpieces, rfl⟩
    · exact absurd (hpieces ▸ by simp : [] ∈ first.segments) (notMem hfirst)
    · exact absurd (hpieces ▸ by simp : [] ∈ second.segments) (notMem hsecond)
    · exact ⟨List.append_cancel_right hpieces, rfl⟩

end RelativeText

def driveAsSegment (letter : Char) (path : Path) : Path :=
  ⟨.slash, [letter, ':'] :: path.segments,
    path.trailing || path.segments.isEmpty⟩

/-- On the working drive, where its first segment is written like the drive of
the other. -/
def Impersonates (path other workDir : Path) : Prop :=
  ∃ letter, other.root = .drive letter ∧ path.root.agrees workDir.root = true ∧
    path.segments = [letter, ':'] :: other.segments ∧
    path.trailing = (other.trailing || other.segments.isEmpty)

section Drives

variable {workDir path first second : Path} {letter : Char}

theorem relativeText_driveAsSegment (letter : Char)
    (hpath : path.WellFormed .windows) :
    (driveAsSegment letter path).relativeText =
      letter :: ':' :: '/' :: path.relativeText := by
  by_cases hnil : path.segments = []
  · rw [hpath.relativeText_eq_nil hnil]
    simp [driveAsSegment, relativeText, hnil]
  · have hsome : path.segments.isEmpty = false := by simpa using hnil
    simp [driveAsSegment, relativeText, hsome,
      Text.join_cons_of_ne_nil _ _ hnil]

theorem isSegment_drive (hletter : letter.isAlpha = true) :
    IsSegment .windows [letter, ':'] where
  ne_nil := by simp
  ne_dot := by simp [dot]
  unseparated := by
    intro c hc
    rcases List.mem_cons.mp hc with rfl | hcolon
    · have hslash : c ≠ '/' := by rintro rfl; cases hletter
      have hbackslash : c ≠ '\\' := by rintro rfl; cases hletter
      simp [Style.separates, hslash, hbackslash]
    · rw [List.mem_singleton.mp hcolon]
      rfl

theorem WellFormed.driveAsSegment (h : path.WellFormed .windows)
    (hroot : path.root = .drive letter) :
    (driveAsSegment letter path).WellFormed .windows := by
  have hletter : letter.isAlpha = true := (h.drive letter hroot).2
  have hrooted : path.isRooted = true := by simp [isRooted, hroot]
  have hstays : dotDot ∉ path.segments := h.settled.stays hrooted
  refine ⟨⟨?_, ?_, ?_⟩, by simp [Path.driveAsSegment],
    by simp [Path.driveAsSegment]⟩
  · intro segment hsegment
    rcases List.mem_cons.mp hsegment with rfl | hother
    · exact isSegment_drive hletter
    · exact h.settled.isSegment segment hother
  · refine List.pairwise_cons.mpr ⟨?_, h.settled.ascending⟩
    rintro later hlater rfl
    exact absurd hlater hstays
  · rintro - hmem
    rcases List.mem_cons.mp hmem with hfirst | hother
    · simp [dotDot] at hfirst
    · exact hstays hother

theorem root_resolve (hworkDir : workDir.root = .drive letter) (raw : Text) :
    (resolve .windows workDir raw).root = .doubleSlash ∨
      ∃ drive, (resolve .windows workDir raw).root = .drive drive := by
  unfold resolve
  split
  · rename_i hrooted
    unfold adoptDrive
    cases hroot : (splitRoot .windows raw).1 with
    | relative => simp [hroot] at hrooted
    | slash => simp [hroot, hworkDir]
    | doubleSlash => simp [hroot]
    | drive drive => simp [hroot]
  · split
    · exact .inr ⟨letter, hworkDir⟩
    · exact .inr ⟨letter, hworkDir⟩

theorem portableText_of_drive (hroot : path.root = .drive letter)
    (workDir : Path) :
    path.portableText workDir =
      if (Root.drive letter).agrees workDir.root then '/' :: path.relativeText
      else '/' :: letter :: ':' :: '/' :: path.relativeText := by
  rw [portableText, hroot]

theorem portableText_of_agrees (hdrive : workDir.root = .drive letter)
    (hagrees : path.root.agrees workDir.root = true) :
    path.portableText workDir = '/' :: path.relativeText := by
  cases hroot : path.root with
  | drive drive =>
      rw [hroot] at hagrees
      rw [portableText_of_drive hroot, if_pos hagrees]
  | _ =>
      rw [hroot, hdrive] at hagrees
      cases hagrees

/-- Where the portable text puts a path that is not on the working drive. -/
inductive OffDrive (workDir path : Path) : Prop
  | doubleSlash (hroot : path.root = .doubleSlash)
      (htext : path.portableText workDir = '/' :: '/' :: path.relativeText)
  | otherDrive (letter : Char) (hroot : path.root = .drive letter)
      (htext : path.portableText workDir =
        '/' :: (driveAsSegment letter path).relativeText)

theorem offDrive (hpath : path.WellFormed .windows)
    (hroot : path.root = .doubleSlash ∨ ∃ drive, path.root = .drive drive)
    (hagrees : path.root.agrees workDir.root = false) :
    OffDrive workDir path := by
  rcases hroot with hroot | ⟨drive, hroot⟩
  · exact .doubleSlash hroot (by rw [portableText, hroot])
  · refine .otherDrive drive hroot ?_
    rw [hroot] at hagrees
    rw [portableText_of_drive hroot, relativeText_driveAsSegment drive hpath,
      if_neg (by simp [hagrees])]

theorem relativeText_ne_slash_cons (hpath : path.WellFormed .windows)
    (rest : Text) :
    path.relativeText ≠ '/' :: rest := by
  intro htext
  have hslash := hpath.head?_relativeText '/' (by simp [htext])
  simp at hslash

theorem relativeText_eq_driveAsSegment_iff (hfirst : first.WellFormed .windows)
    (hsecond : second.WellFormed .windows)
    (hagrees : first.root.agrees workDir.root = true)
    (hroot : second.root = .drive letter) :
    first.relativeText = (driveAsSegment letter second).relativeText ↔
      Impersonates first second workDir := by
  constructor
  · intro htext
    have hparts :=
      hfirst.relativeText_injective (hsecond.driveAsSegment hroot) htext
    exact ⟨letter, hroot, hagrees, hparts⟩
  · rintro ⟨drive, hdrive, -, hsegments, htrailing⟩
    obtain rfl : letter = drive := Root.drive.inj (hroot.symm.trans hdrive)
    rw [relativeText, hsegments, htrailing]
    rfl

theorem not_impersonates_of_disagrees {other : Path}
    (h : path.root.agrees workDir.root = false) :
    ¬ Impersonates path other workDir := by
  rintro ⟨letter, -, hagrees, -⟩
  simp [hagrees] at h

theorem not_impersonates_of_root (hroots : second.root = .doubleSlash) :
    ¬ Impersonates first second workDir := by
  rintro ⟨drive, hdrive, -⟩
  rw [hroots] at hdrive
  cases hdrive

theorem disagrees_of_agrees (hroots : first.root.agrees second.root = false)
    (hfirst : first.root.agrees workDir.root = true) :
    second.root.agrees workDir.root = false := by
  rw [Bool.eq_false_iff]
  intro hsecond
  rw [Root.agrees_comm] at hsecond
  simp [Root.agrees_trans hfirst hsecond] at hroots

theorem portableText_eq_iff_of_agrees (hfirst : first.WellFormed .windows)
    (hsecond : second.WellFormed .windows)
    (hdrive : workDir.root = .drive letter)
    (hagrees : first.root.agrees workDir.root = true)
    (hother : OffDrive workDir second) :
    first.portableText workDir = second.portableText workDir ↔
      Impersonates first second workDir := by
  rw [portableText_of_agrees hdrive hagrees]
  cases hother with
  | doubleSlash hroot htext =>
      rw [htext, List.cons.injEq]
      exact iff_of_false (fun h => relativeText_ne_slash_cons hfirst _ h.2)
        (not_impersonates_of_root hroot)
  | otherDrive drive hroot htext =>
      rw [htext, List.cons.injEq,
        relativeText_eq_driveAsSegment_iff hfirst hsecond hagrees hroot]
      simp

theorem portableText_ne (hfirst : first.WellFormed .windows)
    (hsecond : second.WellFormed .windows)
    (hroots : first.root.agrees second.root = false)
    (hplaced : OffDrive workDir first) (hplaced' : OffDrive workDir second) :
    first.portableText workDir ≠ second.portableText workDir := by
  intro h
  cases hplaced with
  | doubleSlash hroot htext =>
      cases hplaced' with
      | doubleSlash hroot' htext' => simp [hroot, hroot'] at hroots
      | otherDrive drive hroot' htext' =>
          rw [htext, htext'] at h
          exact relativeText_ne_slash_cons (hsecond.driveAsSegment hroot') _
            (List.cons.inj h).2.symm
  | otherDrive drive hroot htext =>
      have hsegments := hfirst.driveAsSegment hroot
      cases hplaced' with
      | doubleSlash hroot' htext' =>
          rw [htext, htext'] at h
          exact relativeText_ne_slash_cons hsegments _ (List.cons.inj h).2
      | otherDrive drive' hroot' htext' =>
          rw [htext, htext'] at h
          have hsame :=
            (hsegments.relativeText_injective (hsecond.driveAsSegment hroot')
            (List.cons.inj h).2).1
          obtain rfl : drive = drive' :=
            (List.cons.inj (List.cons.inj hsame).1).1
          simp [hroot, hroot'] at hroots

end Drives

/-- Paths of different roots share their portable text exactly where one of
them, on the working drive, begins with a segment written like the drive of the
other. -/
theorem portableText_resolve_eq_iff {workDir : Path} {letter : Char}
    (hworkDir : Normal .windows workDir) (hdrive : workDir.root = .drive letter)
    (first second : Text)
    (hroots : (resolve .windows workDir first).root.agrees
      (resolve .windows workDir second).root = false) :
    (resolve .windows workDir first).portableText workDir =
        (resolve .windows workDir second).portableText workDir ↔
      Impersonates (resolve .windows workDir first)
          (resolve .windows workDir second) workDir ∨
        Impersonates (resolve .windows workDir second)
            (resolve .windows workDir first)
          workDir := by
  have hfirst := hworkDir.wellFormed.resolve first
  have hsecond := hworkDir.wellFormed.resolve second
  have hoff : _ → OffDrive workDir _ :=
    offDrive hfirst (root_resolve hdrive first)
  have hoff' : _ → OffDrive workDir _ :=
    offDrive hsecond (root_resolve hdrive second)
  cases hagrees : (resolve .windows workDir first).root.agrees workDir.root with
  | true =>
      have hother := disagrees_of_agrees hroots hagrees
      rw [portableText_eq_iff_of_agrees hfirst hsecond hdrive hagrees
        (hoff' hother)]
      exact (or_iff_left (not_impersonates_of_disagrees hother)).symm
  | false =>
      rw [or_iff_right (not_impersonates_of_disagrees hagrees)]
      cases hagrees' : (resolve .windows workDir second).root.agrees
        workDir.root with
      | true =>
          rw [eq_comm]
          exact portableText_eq_iff_of_agrees hsecond hfirst hdrive hagrees'
            (hoff hagrees)
      | false =>
          exact iff_of_false
            (portableText_ne hfirst hsecond hroots (hoff hagrees)
              (hoff' hagrees'))
            (not_impersonates_of_disagrees hagrees')

theorem portableText_resolve_eq_iff_open :
    Normal .windows (parse .windows ['C', ':', '\\', 'w']) ∧
      (parse .windows ['C', ':', '\\', 'w']).root = .drive 'C' ∧
      (resolve .windows (parse .windows ['C', ':', '\\', 'w'])
          ['c', ':', '\\', 'D', ':', '\\', 'x', '\\']).root.agrees
        (resolve .windows (parse .windows ['C', ':', '\\', 'w'])
            ['D', ':', '\\', 'x']).root =
          false ∧
      (resolve .windows (parse .windows ['C', ':', '\\', 'w'])
          ['c', ':', '\\', 'D', ':', '\\', 'x', '\\']).portableText
          (parse .windows ['C', ':', '\\', 'w']) ≠
        (resolve .windows (parse .windows ['C', ':', '\\', 'w'])
          ['D', ':', '\\', 'x']).portableText
              (parse .windows ['C', ':', '\\', 'w']) := by
  have hworkDir : Normal .windows (parse .windows ['C', ':', '\\', 'w']) :=
    .parsed _
  have hdrive : (parse .windows ['C', ':', '\\', 'w']).root = .drive 'C' := by
    decide
  refine ⟨hworkDir, hdrive, by decide, ?_⟩
  rw [ne_eq, portableText_resolve_eq_iff hworkDir hdrive _ _ (by decide)]
  rintro (⟨letter, hroot, -, -, htrailing⟩ | ⟨letter, hroot, hagrees, -⟩)
  · revert htrailing
    decide
  · revert hagrees
    decide

theorem portableText_resolve_eq_of_impersonates :
    (parse .windows ['C', ':', '\\', 'w']).root = .drive 'C' ∧
      (resolve .windows (parse .windows ['C', ':', '\\', 'w'])
          ['D', ':', '\\', 'x']).root.agrees
        (resolve .windows (parse .windows ['C', ':', '\\', 'w'])
          ['C', ':', '\\', 'D', ':', '\\', 'x']).root = false ∧
      (resolve .windows (parse .windows ['C', ':', '\\', 'w'])
          ['D', ':', '\\', 'x']).portableText
          (parse .windows ['C', ':', '\\', 'w']) =
        (resolve .windows (parse .windows ['C', ':', '\\', 'w'])
          ['C', ':', '\\', 'D', ':', '\\', 'x']).portableText
          (parse .windows ['C', ':', '\\', 'w']) := by
  decide

end InputResolution.Lexical.Path
