import InputResolution.Proofs.Lexical.Moves
import Mathlib.Data.List.Induction

namespace InputResolution.Lexical

/-! Reading a path back from its text.  Main statement: the text of a normalized
path is read as that path, unless the path is relative and its first segment
would be taken for a drive. -/

/-- A segment that is read as a drive where it stands first and drives exist. -/
def BeginsAsDrive (segment : Text) : Prop :=
  ∃ letter rest, segment = letter :: ':' :: rest ∧ letter.isAlpha = true

namespace Path

/-- A path as reading leaves it: a text read alone, or from a directory that was
read before. -/
inductive Normal (style : Style) : Path → Prop
  | parsed (raw : Text) : Normal style (parse style raw)
  | resolved (hworkDir : Normal style workDir) (raw : Text) :
      Normal style (resolve style workDir raw)

/-- Where a double dot comes last, the path is written as a directory. -/
def EndsOpen (path : Path) : Prop :=
  path.segments.getLast? = some dotDot → path.trailing = true

theorem endsOpen_append (style : Style) (path : Path) (raw : Text) :
    (path.append style raw).EndsOpen := by
  intro hlast
  have hne : (path.append style raw).segments ≠ [] := by
    intro hnil
    simp [hnil] at hlast
  cases hopen : leavesOpen (Text.pieces style.separates raw) with
  | true => simpa [append, hopen] using hne
  | false =>
      obtain ⟨last, hsame, hdotDot⟩ :=
        exists_getLast?_foldl_enter path.isRooted path.segments
        (Text.pieces_ne_nil style.separates raw) hopen
      exact absurd (Option.some.inj (hsame.symm.trans hlast)) hdotDot

theorem endsOpen_resolve {style : Style} {workDir : Path} (h : workDir.EndsOpen)
    (raw : Text) :
    (resolve style workDir raw).EndsOpen := by
  unfold resolve
  split
  · unfold adoptDrive
    split <;> exact endsOpen_append _ _ _
  · split
    · exact h
    · exact endsOpen_append style _ _

namespace Normal

variable {style : Style} {path : Path}

theorem wellFormed (h : Normal style path) : path.WellFormed style := by
  induction h with
  | parsed raw => exact wellFormed_parse style raw
  | resolved _ raw ih => exact ih.resolve raw

theorem endsOpen (h : Normal style path) : path.EndsOpen := by
  induction h with
  | parsed raw => exact endsOpen_append style _ _
  | resolved _ raw ih => exact endsOpen_resolve ih raw

end Normal

end Path

/-! Settled segments are read as they stand. -/

theorem Settled.foldl_enter {segments : List Text}
    (h : Settled style rooted segments) :
    segments.foldl (Lexical.enter rooted) [] = segments := by
  induction segments using List.reverseRecOn with
  | nil => rfl
  | append_singleton segments last ih =>
      rw [List.foldl_append, ih (h.sublist (List.sublist_append_left _ _)),
        List.foldl_cons, List.foldl_nil]
      by_cases hlast : last = dotDot
      · subst hlast
        cases rooted with
        | true => exact absurd (h.stays rfl) (by simp)
        | false =>
            rw [enter_dotDot, leave_dotDots h.ascending.dotDots_of_concat]
      · have hsegment := h.isSegment last (by simp)
        exact enter_of_ordinary hsegment.ne_nil hsegment.ne_dot hlast _ _

namespace Path

theorem append_cons_of_separates {style : Style} {c : Char}
    (hc : style.separates c = true) (path : Path) (raw : Text) :
    path.append style (c :: raw) = path.append style raw := by
  have hpieces : Text.pieces style.separates (c :: raw) =
      [] :: Text.pieces style.separates raw :=
    Text.pieces_cons_of_separates raw hc
  simp only [append, hpieces, List.foldl_cons, enter_nil,
    leavesOpen_cons (Text.pieces_ne_nil style.separates raw)]

theorem WellFormed.leavesOpen_relativeText {path : Path}
    (h : path.WellFormed style) (hopen : path.EndsOpen)
    (hne : path.segments ≠ []) :
    leavesOpen (Text.pieces style.separates path.relativeText) =
      path.trailing := by
  rw [h.pieces_relativeText hne]
  cases htrailing : path.trailing with
  | true => simp [leavesOpen]
  | false =>
      obtain ⟨above, last, hsegments⟩ :=
        (List.eq_nil_or_concat path.segments).resolve_left hne
      have hsegment := h.settled.isSegment last (by simp [hsegments])
      have hdotDot : last ≠ dotDot := by
        rintro rfl
        have := hopen (by simp [hsegments])
        simp [htrailing] at this
      simp [hsegments, leavesOpen, hsegment.ne_nil, hsegment.ne_dot, hdotDot]

theorem WellFormed.append_relativeText {path : Path} (h : path.WellFormed style)
    (hopen : path.EndsOpen) :
    (ofRoot path.root).append style path.relativeText = path := by
  by_cases hnil : path.segments = []
  · have htrailing := h.trailing_of_nil hnil
    rw [h.relativeText_eq_nil hnil]
    obtain ⟨root, segments, trailing⟩ := path
    subst hnil htrailing
    rfl
  · have hsegments : (Text.pieces style.separates path.relativeText).foldl
        (enter (ofRoot path.root).isRooted) (ofRoot path.root).segments =
          path.segments := by
      have hfold : path.segments.foldl (enter (ofRoot path.root).isRooted) [] =
          path.segments :=
        h.settled.foldl_enter
      have hsame : (ofRoot path.root).segments = [] := rfl
      rw [h.pieces_relativeText hnil, List.foldl_append, hsame, hfold]
      cases path.trailing <;> simp
    have hsome : path.segments.isEmpty = false := by simpa using hnil
    simp only [Path.append, hsegments, h.leavesOpen_relativeText hopen hnil,
      hsome]
    rfl

end Path

/-! A root is told apart from what follows it. -/

theorem takeWhile_separates {style : Style} {rest : Text}
    (h : ∀ c ∈ rest.head?, style.separates c = false) :
    rest.takeWhile style.separates = [] ∧
    rest.dropWhile style.separates = rest := by
  cases rest with
  | nil => exact ⟨rfl, rfl⟩
  | cons c rest => simp [h c (by simp)]

theorem splitDrive?_of_isAlpha {letter : Char} (h : letter.isAlpha = true)
    (rest : Text) :
    splitDrive? .windows (letter :: ':' :: rest) = some (letter, rest) := by
  rw [splitDrive?, if_pos h]

theorem splitDrive?_eq_none_iff {style : Style} {raw : Text} :
    splitDrive? style raw = none ↔ style = .posix ∨ ¬ BeginsAsDrive raw := by
  constructor
  · intro h
    cases style with
    | posix => exact .inl rfl
    | windows =>
        right
        rintro ⟨letter, rest, rfl, halpha⟩
        rw [splitDrive?_of_isAlpha halpha] at h
        cases h
  · rintro (rfl | hdrive)
    · rfl
    · unfold splitDrive?
      split
      · rename_i letter rest
        rw [if_neg]
        exact fun halpha => hdrive ⟨letter, rest, rfl, halpha⟩
      · rfl

theorem splitDrive?_of_separates {style : Style} {c : Char}
    (h : style.separates c = true) (rest : Text) :
    splitDrive? style (c :: rest) = none := by
  rw [splitDrive?_eq_none_iff]
  cases style with
  | posix => exact .inl rfl
  | windows =>
      right
      rintro ⟨letter, tail, htext, halpha⟩
      obtain ⟨rfl, -⟩ := List.cons.inj htext
      have hc : c = '/' ∨ c = '\\' := by simpa [Style.separates] using h
      rcases hc with rfl | rfl <;> cases halpha

section Splitting

variable {style : Style} {rest : Text}
  (h : ∀ c ∈ rest.head?, style.separates c = false)

include h

theorem splitRoot_slash : splitRoot style ('/' :: rest) = (.slash, rest) := by
  obtain ⟨htake, hdrop⟩ := takeWhile_separates h
  simp [splitRoot, splitDrive?_of_separates style.separates_slash, htake, hdrop]

theorem splitRoot_doubleSlash :
    splitRoot style ('/' :: '/' :: rest) = (.doubleSlash, rest) := by
  obtain ⟨htake, hdrop⟩ := takeWhile_separates h
  simp [splitRoot, splitDrive?_of_separates style.separates_slash, htake, hdrop]

theorem splitRoot_relative (hdrive : splitDrive? style rest = none) :
    splitRoot style rest = (.relative, rest) := by
  obtain ⟨htake, hdrop⟩ := takeWhile_separates h
  simp [splitRoot, hdrive, htake]

end Splitting

theorem splitRoot_of_drive {letter : Char} (h : letter.isAlpha = true)
    (rest : Text) :
    splitRoot .windows (letter :: ':' :: rest) = (.drive letter, rest) := by
  rw [splitRoot, splitDrive?_of_isAlpha h]

namespace Path

variable {style : Style} {path : Path}

theorem WellFormed.beginsAsDrive_relativeText (h : path.WellFormed style)
    {first : Text} {others : List Text}
    (hsegments : path.segments = first :: others) :
    BeginsAsDrive path.relativeText ↔ BeginsAsDrive first := by
  obtain ⟨after, hafter, hslash⟩ : ∃ after, path.relativeText = first ++ after ∧
      ∀ c ∈ after.head?, c = '/' := by
    unfold relativeText
    rw [hsegments]
    cases others with
    | nil => exact ⟨_, rfl, by cases path.trailing <;> simp⟩
    | cons next others =>
        exact ⟨'/' :: (Text.join '/' (next :: others) ++ if path.trailing then
          ['/'] else []),
          by simp [Text.join], by simp⟩
  rw [hafter]
  constructor
  · rintro ⟨letter, rest, htext, halpha⟩
    rcases first with _ | ⟨head, _ | ⟨next, tail⟩⟩
    · exact absurd rfl (h.settled.isSegment [] (by simp [hsegments])).ne_nil
    · obtain rfl : after = ':' :: rest := (List.cons.inj htext).2
      exact absurd (hslash ':' rfl) (by decide)
    · obtain ⟨hletter, hrest⟩ := List.cons.inj htext
      exact ⟨letter, tail, by rw [hletter, (List.cons.inj hrest).1], halpha⟩
  · rintro ⟨letter, rest, rfl, halpha⟩
    exact ⟨letter, rest ++ after, rfl, halpha⟩

theorem parse_of_splitRoot {raw rest : Text} {root : Root}
    (h : splitRoot style raw = (root, rest)) :
    parse style raw = (ofRoot root).append style rest := by
  rw [parse, h]

theorem WellFormed.splitRoot_text (h : path.WellFormed style)
    (hrooted : path.isRooted = true) :
    splitRoot style path.text = (path.root, path.relativeText) ∨
      splitRoot style path.text = (path.root, '/' :: path.relativeText) := by
  rw [text_of_isRooted hrooted]
  cases hroot : path.root with
  | relative => simp [isRooted, hroot] at hrooted
  | slash => exact .inl (splitRoot_slash h.head?_relativeText)
  | doubleSlash => exact .inl (splitRoot_doubleSlash h.head?_relativeText)
  | drive letter =>
      obtain ⟨rfl, halpha⟩ := h.drive letter hroot
      exact .inr (splitRoot_of_drive halpha ('/' :: path.relativeText))

theorem WellFormed.parse_text (h : path.WellFormed style)
    (hopen : path.EndsOpen) (hrooted : path.isRooted = true) :
    parse style path.text = path := by
  rcases h.splitRoot_text hrooted with hsplit | hsplit
  · rw [parse_of_splitRoot hsplit, h.append_relativeText hopen]
  · rw [parse_of_splitRoot hsplit,
      append_cons_of_separates style.separates_slash,
      h.append_relativeText hopen]

theorem WellFormed.parse_text_of_nil (h : path.WellFormed style)
    (hrelative : path.isRooted = false) (hnil : path.segments = []) :
    parse style path.text = path := by
  have htrailing := h.trailing_of_nil hnil
  obtain ⟨root, segments, trailing⟩ := path
  obtain rfl : root = .relative := Root.isRooted_eq_false_iff.mp hrelative
  subst hnil htrailing
  cases style <;> rfl

theorem WellFormed.parse_text_iff (h : path.WellFormed style)
    (hopen : path.EndsOpen) (hrelative : path.isRooted = false)
    (hne : path.segments ≠ []) :
    parse style path.text = path ↔
    splitDrive? style path.relativeText = none := by
  have hroot : path.root = .relative := Root.isRooted_eq_false_iff.mp hrelative
  have htext : path.text = path.relativeText := by
    rw [text, if_neg fun hdot => hne hdot.2, hroot]
    rfl
  rw [htext]
  constructor
  · intro hparse
    cases hdrive : splitDrive? style path.relativeText with
    | none => rfl
    | some found =>
        have hfound :
            (parse style path.relativeText).root = .drive found.1 := by
          rw [root_parse, splitRoot, hdrive]
        rw [hparse, hroot] at hfound
        cases hfound
  · intro hdrive
    rw [parse_of_splitRoot (splitRoot_relative h.head?_relativeText hdrive),
      ← hroot, h.append_relativeText hopen]

/-! Without drives there is no such exception, so texts tell paths apart. -/

theorem endsOpen_of_dotDot_notMem (h : dotDot ∉ path.segments) :
    path.EndsOpen :=
  fun hlast => absurd (List.mem_of_getLast? hlast) h

theorem WellFormed.endsOpen (h : path.WellFormed style)
    (hrooted : path.isRooted = true) :
    path.EndsOpen :=
  endsOpen_of_dotDot_notMem (h.settled.stays hrooted)

theorem WellFormed.parse_text_posix (h : path.WellFormed .posix)
    (hopen : path.EndsOpen) :
    parse .posix path.text = path := by
  cases hrooted : path.isRooted with
  | true => exact h.parse_text hopen hrooted
  | false =>
      by_cases hnil : path.segments = []
      · exact h.parse_text_of_nil hrooted hnil
      · exact (h.parse_text_iff hopen hrooted hnil).mpr (splitDrive?_posix _)

theorem WellFormed.text_injective {other : Path} (h : path.WellFormed .posix)
    (hopen : path.EndsOpen) (hother : other.WellFormed .posix)
    (hotherOpen : other.EndsOpen) (htext : path.text = other.text) :
    path = other := by
  rw [← h.parse_text_posix hopen, htext, hother.parse_text_posix hotherOpen]

theorem WellFormed.resolve_text (h : path.WellFormed .posix)
    (hrooted : path.isRooted = true) (workDir : Path) :
    Path.resolve .posix workDir path.text = path := by
  rw [resolve_of_isAbsolute (h.isAbsolute_text.trans hrooted),
    h.parse_text_posix (h.endsOpen hrooted)]

/-- A normalized path is read back from its text, except where drives exist and
the path is relative and begins like one. -/
theorem parse_text_of_normal (h : Normal style path) :
    (style = .posix ∨ path.isRooted = true → parse style path.text = path) ∧
      (style = .windows → path.isRooted = false →
        (parse style path.text = path ↔
          path.segments = [] ∨
            ∃ first others, path.segments = first :: others ∧
              ¬ BeginsAsDrive first)) := by
  have hwell := h.wellFormed
  cases hrooted : path.isRooted with
  | true =>
      refine ⟨fun _ => hwell.parse_text h.endsOpen hrooted, ?_⟩
      intro _ hfalse
      cases hfalse
  | false =>
      rcases hsegments : path.segments with _ | ⟨first, others⟩
      · have hread := hwell.parse_text_of_nil hrooted hsegments
        exact ⟨fun _ => hread, fun _ _ => iff_of_true hread (.inl rfl)⟩
      · have hread :=
          hwell.parse_text_iff h.endsOpen hrooted (by simp [hsegments])
        rw [splitDrive?_eq_none_iff,
          hwell.beginsAsDrive_relativeText hsegments] at hread
        constructor
        · rintro (hposix | htrue)
          · exact hread.mpr (.inl hposix)
          · cases htrue
        · rintro hwindows -
          rw [hread]
          simp [hwindows]

/-- One path begins like a drive, one hangs from a drive that it took from the
directory it was read from, and one climbs out of a relative directory. -/
theorem parse_text_of_normal_windows :
    (Normal .windows ⟨.relative, [['C', ':', 'x']], false⟩ ∧
        parse .windows (text ⟨.relative, [['C', ':', 'x']], false⟩) ≠
          ⟨.relative, [['C', ':', 'x']], false⟩) ∧
      (Normal .windows ⟨.drive 'd', [['a']], true⟩ ∧
        parse .windows (text ⟨.drive 'd', [['a']], true⟩) =
          ⟨.drive 'd', [['a']], true⟩) ∧
      (Normal .posix ⟨.relative, [dotDot, dotDot], true⟩ ∧
        parse .posix (text ⟨.relative, [dotDot, dotDot], true⟩) =
          ⟨.relative, [dotDot, dotDot], true⟩) := by
  have hdrive : Normal .windows ⟨.relative, [['C', ':', 'x']], false⟩ :=
    .parsed ['.', '/', 'C', ':', 'x']
  have hadopted : Normal .windows ⟨.drive 'd', [['a']], true⟩ :=
    .resolved (.parsed ['d', ':', '\\', 'w']) ['\\', 'a', '\\']
  have hclimbing : Normal .posix ⟨.relative, [dotDot, dotDot], true⟩ :=
    .resolved (.parsed ['a']) ['.', '.', '/', '.', '.', '/', '.', '.']
  refine ⟨⟨hdrive, ?_⟩,
    ⟨hadopted, (parse_text_of_normal hadopted).1 (.inr rfl)⟩,
    ⟨hclimbing, (parse_text_of_normal hclimbing).1 (.inl rfl)⟩⟩
  intro hread
  rcases ((parse_text_of_normal hdrive).2 rfl rfl).mp hread with
    hnil | ⟨_, _, hsegments, hfirst⟩
  · cases hnil
  · obtain ⟨rfl, -⟩ := List.cons.inj hsegments
    exact hfirst ⟨'C', ['x'], rfl, by decide⟩

end Path

end InputResolution.Lexical
