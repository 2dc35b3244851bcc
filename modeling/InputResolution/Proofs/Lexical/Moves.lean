import InputResolution.Proofs.Lexical.WellFormed
import InputResolution.Proofs.Native.Moves

namespace InputResolution.Lexical

open Native (moves endsIdle slashPieces isAbsolute)

/-! Where the moves of a text lead lexically.  Idle pieces never matter, and
without a double dot every move is one more segment. -/

theorem enter_of_isIdle {piece : Text} (rooted : Bool) (segments : List Text)
    (h : Native.isIdle piece = true) :
    enter rooted segments piece = segments := by
  have : piece = [] ∨ piece = dot := by simpa [Native.isIdle, dot] using h
  simp [enter, this]

theorem foldl_enter_moves (rooted : Bool) (segments pieces : List Text) :
    pieces.foldl (enter rooted) segments =
      (moves pieces).foldl (enter rooted) segments := by
  induction pieces generalizing segments with
  | nil => rfl
  | cons piece pieces ih =>
      cases h : Native.isIdle piece with
      | true =>
          rw [List.foldl_cons, enter_of_isIdle _ _ h, ih,
            Native.moves_cons_of_isIdle _ h]
      | false =>
          rw [List.foldl_cons, ih, Native.moves_cons_of_moving _ h,
            List.foldl_cons]

theorem enter_of_moving {piece : Text} (rooted : Bool) (segments : List Text)
    (hmoving : Native.isIdle piece = false) (hdotDot : piece ≠ dotDot) :
    enter rooted segments piece = segments ++ [piece] := by
  have hmoving : piece ≠ [] ∧ piece ≠ dot := by
    simpa [Native.isIdle, dot] using hmoving
  exact enter_of_ordinary hmoving.1 hmoving.2 hdotDot rooted segments

theorem foldl_enter_of_dotDot_notMem {pieces : List Text} (rooted : Bool)
    (segments : List Text) (h : dotDot ∉ pieces) :
    pieces.foldl (enter rooted) segments = segments ++ moves pieces := by
  induction pieces generalizing segments with
  | nil => simp
  | cons piece pieces ih =>
      simp only [List.mem_cons, not_or] at h
      rw [List.foldl_cons, ih _ h.2]
      cases hidle : Native.isIdle piece with
      | true =>
          rw [enter_of_isIdle _ _ hidle, Native.moves_cons_of_isIdle _ hidle]
      | false =>
          rw [enter_of_moving _ _ hidle fun heq => h.1 heq.symm,
            Native.moves_cons_of_moving _ hidle]
          simp

theorem foldl_enter_names {names : List Text} (rooted : Bool)
    (segments : List Text) (h : ∀ name ∈ names, Native.IsName name) :
    names.foldl (enter rooted) segments = segments ++ names := by
  rw [foldl_enter_of_dotDot_notMem _ _ fun hmem => (h _ hmem).ne_dotDot rfl,
    Native.moves_names h]

/-- A text that is not written as a directory ends in a name, and that name is
the last segment. -/
theorem exists_getLast?_foldl_enter {pieces : List Text} (rooted : Bool)
    (segments : List Text) (hne : pieces ≠ []) (h : leavesOpen pieces = false) :
    ∃ last, (pieces.foldl (enter rooted) segments).getLast? = some last ∧
      last ≠ dotDot := by
  obtain ⟨before, last, rfl⟩ := (List.eq_nil_or_concat pieces).resolve_left hne
  rw [List.concat_eq_append] at h ⊢
  have hlast : last ≠ [] ∧ last ≠ dot ∧ last ≠ dotDot := by
    simpa [leavesOpen] using h
  refine ⟨last, ?_, hlast.2.2⟩
  rw [List.foldl_append, List.foldl_cons, List.foldl_nil,
    enter_of_ordinary hlast.1 hlast.2.1 hlast.2.2]
  simp

theorem foldl_enter_ne_nil {pieces : List Text} (rooted : Bool)
    (segments : List Text) (hne : pieces ≠ []) (h : leavesOpen pieces = false) :
    pieces.foldl (enter rooted) segments ≠ [] := by
  obtain ⟨last, hlast, -⟩ := exists_getLast?_foldl_enter rooted segments hne h
  intro hnil
  simp [hnil] at hlast

theorem leavesOpen_congr {first second : List Text}
    (h : first.getLast? = second.getLast?) :
    leavesOpen first = leavesOpen second := by
  rw [leavesOpen, leavesOpen, h]

theorem leavesOpen_append {first second : List Text} (hne : second ≠ []) :
    leavesOpen (first ++ second) = leavesOpen second := by
  apply leavesOpen_congr
  obtain ⟨before, last, rfl⟩ := (List.eq_nil_or_concat second).resolve_left hne
  simp

theorem leavesOpen_cons {piece : Text} {pieces : List Text}
    (hne : pieces ≠ []) :
    leavesOpen (piece :: pieces) = leavesOpen pieces := by
  rw [← List.singleton_append, leavesOpen_append hne]

theorem leavesOpen_of_moving {piece : Text}
    (hmoving : Native.isIdle piece = false) (hdotDot : piece ≠ dotDot) :
    leavesOpen [piece] = false := by
  have hmoving : piece ≠ [] ∧ piece ≠ dot := by
    simpa [Native.isIdle, dot] using hmoving
  simp [leavesOpen, hmoving, hdotDot]

theorem mem_leave {rooted : Bool} {segments : List Text} {segment : Text}
    (h : segment ∈ leave rooted segments) :
    segment ∈ segments ∨ segment = dotDot := by
  unfold leave at h
  split at h
  · split at h
    · simp at h
    · exact Or.inr (by simpa using h)
  · split at h
    · split at h
      · exact Or.inl h
      · simpa using h
    · exact Or.inl ((List.dropLast_sublist _).subset h)

theorem mem_foldl_enter {rooted : Bool} {segments pieces : List Text}
    {segment : Text} (h : segment ∈ pieces.foldl (enter rooted) segments) :
    segment ∈ segments ∨ segment ∈ pieces := by
  induction pieces generalizing segments with
  | nil => exact Or.inl h
  | cons piece pieces ih =>
      rcases ih h with hentered | hrest
      · unfold enter at hentered
        split at hentered
        · exact Or.inl hentered
        · split at hentered
          · rename_i hdotDot
            rcases mem_leave hentered with hold | rfl
            · exact Or.inl hold
            · exact Or.inr (by simp [hdotDot])
          · rcases List.mem_append.mp hentered with hold | hnew
            · exact Or.inl hold
            · exact Or.inr (by simp [List.mem_singleton.mp hnew])
      · exact Or.inr (List.mem_cons_of_mem _ hrest)

/-! The native text of a normalized path denotes its segments. -/

theorem IsSegment.moving {segment : Text} (h : IsSegment style segment) :
    Native.isIdle segment = false := by
  have := h.ne_dot
  simpa [Native.isIdle, dot, h.ne_nil] using this

theorem IsSegment.unslashed {segment : Text} (h : IsSegment style segment) :
    '/' ∉ segment :=
  fun hslash => by simpa using h.unseparated '/' hslash

namespace Path

theorem WellFormed.isName {path : Path} (h : path.WellFormed .posix)
    (hrooted : path.isRooted = true) :
    ∀ segment ∈ path.segments, Native.IsName segment := fun segment hsegment =>
  ⟨(h.settled.isSegment segment hsegment).moving,
    fun heq => h.settled.stays hrooted (heq ▸ hsegment),
    (h.settled.isSegment segment hsegment).unslashed⟩

theorem WellFormed.moves_segments {path : Path} (h : path.WellFormed .posix) :
    moves path.segments = path.segments := by
  apply List.filter_eq_self.mpr
  intro segment hsegment
  simp [(h.settled.isSegment segment hsegment).moving]

theorem WellFormed.slashPieces_relativeText {path : Path}
    (h : path.WellFormed .posix) (hne : path.segments ≠ []) :
    slashPieces path.relativeText =
      path.segments ++ if path.trailing then [[]] else [] :=
  h.pieces_relativeText hne

theorem WellFormed.moves_relativeText {path : Path}
    (h : path.WellFormed .posix) :
    moves (slashPieces path.relativeText) = path.segments := by
  by_cases hnil : path.segments = []
  · rw [h.relativeText_eq_nil hnil, hnil]
    rfl
  · rw [h.slashPieces_relativeText hnil, Native.moves_append, h.moves_segments]
    cases path.trailing <;> simp

theorem WellFormed.root_posix {path : Path} (h : path.WellFormed .posix) :
    path.root = .relative ∨ path.root = .slash ∨ path.root = .doubleSlash := by
  cases hroot : path.root with
  | drive letter => exact absurd (h.drive letter hroot).1 (by simp)
  | _ => simp

theorem WellFormed.moves_text {path : Path} (h : path.WellFormed .posix) :
    moves (slashPieces path.text) = path.segments := by
  unfold text
  split
  · rename_i hdot
    rw [hdot.2]
    rfl
  · rcases h.root_posix with hroot | hroot | hroot <;> rw [hroot]
    · exact h.moves_relativeText
    · simpa [Root.text, Native.slashPieces_cons_slash] using
        h.moves_relativeText
    · simpa [Root.text, Native.slashPieces_cons_slash] using
        h.moves_relativeText

theorem WellFormed.endsIdle_text {path : Path} (h : path.WellFormed .posix)
    (hne : path.segments ≠ []) :
    endsIdle (slashPieces path.text) = path.trailing := by
  have hlast : endsIdle (slashPieces path.relativeText) = path.trailing := by
    rw [h.slashPieces_relativeText hne]
    cases htrailing : path.trailing with
    | true => simp [endsIdle, Native.isIdle]
    | false =>
        obtain ⟨before, last, hsegments⟩ :=
          (List.eq_nil_or_concat path.segments).resolve_left hne
        have hmoving := (h.settled.isSegment last (by simp [hsegments])).moving
        simp [hsegments, endsIdle, hmoving]
  rw [text, if_neg fun hdot => hne hdot.2]
  rcases h.root_posix with hroot | hroot | hroot <;> rw [hroot]
  · exact hlast
  · rw [Root.text, List.singleton_append, Native.slashPieces_cons_slash,
      Native.endsIdle_cons (Native.slashPieces_ne_nil _), hlast]
  · rw [Root.text, List.cons_append, List.singleton_append,
      Native.slashPieces_cons_slash, Native.slashPieces_cons_slash,
      Native.endsIdle_cons (by simp),
      Native.endsIdle_cons (Native.slashPieces_ne_nil _), hlast]

theorem WellFormed.isAbsolute_text_of_relative {path : Path}
    (h : path.WellFormed style) (hrelative : path.isRooted = false) :
    isAbsolute path.text = false := by
  have hroot : path.root = .relative := Root.isRooted_eq_false_iff.mp hrelative
  unfold text
  split
  · rfl
  · have hhead : path.relativeText.head? ≠ some '/' := fun hslash => by
      simpa using h.head?_relativeText '/' hslash
    simpa [hroot, Root.text, isAbsolute] using hhead

theorem WellFormed.isAbsolute_text {path : Path} (h : path.WellFormed .posix) :
    isAbsolute path.text = path.isRooted := by
  cases hrooted : path.isRooted with
  | false => exact h.isAbsolute_text_of_relative hrooted
  | true =>
      rw [text_of_isRooted hrooted]
      rcases h.root_posix with hroot | hroot | hroot
      · simp [isRooted, hroot] at hrooted
      · rw [hroot]
        rfl
      · rw [hroot]
        rfl

theorem isAbsolute_portableText {path : Path} (h : path.isRooted = true)
    (workDir : Path) :
    isAbsolute (path.portableText workDir) = true := by
  unfold portableText
  split
  · rename_i hroot
    simp [isRooted, hroot] at h
  · rfl
  · rfl
  · split <;> rfl

theorem WellFormed.portableText_posix {path : Path} (h : path.WellFormed .posix)
    (hrooted : path.isRooted = true) (workDir : Path) :
    path.portableText workDir = path.text := by
  rw [text_of_isRooted hrooted, portableText]
  rcases h.root_posix with hroot | hroot | hroot
  · simp [isRooted, hroot] at hrooted
  · rw [hroot]
    rfl
  · rw [hroot]
    rfl

end Path

/-! Splitting off a root takes leading slashes away, and those are idle. -/

theorem splitRoot_posix (raw : Text) :
    splitRoot .posix raw =
      (match (raw.takeWhile (· == '/')).length with
        | 0 => .relative
        | 2 => .doubleSlash
        | _ => .slash,
        raw.dropWhile (· == '/')) := by
  have hseparates : Style.posix.separates = (· == '/') := rfl
  unfold splitRoot
  simp only [splitDrive?_posix, hseparates]
  cases raw with
  | nil => rfl
  | cons c rest =>
      by_cases hc : c = '/'
      · subst hc
        rw [List.takeWhile_cons_of_pos (by rfl), List.length_cons]
        rcases (rest.takeWhile (· == '/')).length with _ | _ | more <;> rfl
      · rw [List.takeWhile_cons_of_neg (by simpa using hc),
          List.dropWhile_cons_of_neg (by simpa using hc)]
        rfl

theorem splitRoot_posix_snd (raw : Text) :
    (splitRoot .posix raw).2 = raw.dropWhile (· == '/') := by
  rw [splitRoot_posix]

theorem isRooted_splitRoot_posix (raw : Text) :
    (splitRoot .posix raw).1.isRooted = isAbsolute raw := by
  rw [splitRoot_posix]
  cases raw with
  | nil => rfl
  | cons c rest =>
      by_cases hc : c = '/'
      · subst hc
        rw [List.takeWhile_cons_of_pos (by rfl), List.length_cons]
        split
        · contradiction
        · rfl
        · rfl
      · have hc' : (c == '/') = false := by simpa using hc
        simp [hc', isAbsolute]

theorem moves_dropWhile_slash (raw : Text) :
    moves (slashPieces (raw.dropWhile (· == '/'))) =
      moves (slashPieces raw) := by
  induction raw with
  | nil => rfl
  | cons c rest ih =>
      by_cases hc : c = '/'
      · subst hc
        rw [List.dropWhile_cons_of_pos (by rfl), ih,
          Native.slashPieces_cons_slash, Native.moves_cons_nil]
      · rw [List.dropWhile_cons_of_neg (by simpa using hc)]

theorem getLast?_slashPieces_dropWhile_slash (raw : Text) :
    (slashPieces (raw.dropWhile (· == '/'))).getLast? =
      (slashPieces raw).getLast? := by
  induction raw with
  | nil => rfl
  | cons c rest ih =>
      by_cases hc : c = '/'
      · subst hc
        rw [List.dropWhile_cons_of_pos (by rfl), ih]
        exact (Text.getLast?_pieces_append_separator [] rest rfl).symm
      · rw [List.dropWhile_cons_of_neg (by simpa using hc)]

namespace Path

theorem segments_append_posix (path : Path) (raw : Text) :
    (path.append .posix raw).segments =
      (slashPieces raw).foldl (enter path.isRooted) path.segments := rfl

theorem segments_parse_posix (raw : Text) :
    (parse .posix raw).segments =
      (moves (slashPieces raw)).foldl (enter (isAbsolute raw)) [] := by
  rw [parse, segments_append_posix, isRooted_ofRoot, isRooted_splitRoot_posix,
    foldl_enter_moves, splitRoot_posix_snd, moves_dropWhile_slash]
  rfl

theorem trailing_parse_posix (raw : Text) :
    (parse .posix raw).trailing =
      (!(parse .posix raw).segments.isEmpty &&
        leavesOpen (slashPieces raw)) := by
  rw [← leavesOpen_congr (getLast?_slashPieces_dropWhile_slash raw),
    ← splitRoot_posix_snd]
  rfl

theorem resolve_of_isAbsolute {raw : Text} (h : isAbsolute raw = true)
    (workDir : Path) :
    resolve .posix workDir raw = parse .posix raw := by
  rw [resolve, isRooted_splitRoot_posix, if_pos h, adoptDrive_posix]

theorem resolve_of_rootless {style : Style} {raw : Text}
    (h : (splitRoot style raw).1.isRooted = false) (hne : raw ≠ [])
    (workDir : Path) :
    resolve style workDir raw = workDir.append style raw := by
  rw [resolve, h, if_neg Bool.false_ne_true, if_neg (by simpa using hne)]

@[simp] theorem resolve_posix_nil (workDir : Path) :
    resolve .posix workDir [] = workDir := rfl

theorem resolve_of_relative {raw : Text} (h : isAbsolute raw = false)
    (hne : raw ≠ []) (workDir : Path) :
    resolve .posix workDir raw = workDir.append .posix raw :=
  resolve_of_rootless ((isRooted_splitRoot_posix raw).trans h) hne workDir

theorem root_resolve_of_relative {raw : Text} (h : isAbsolute raw = false)
    (workDir : Path) :
    (resolve .posix workDir raw).root = workDir.root := by
  by_cases hnil : raw = []
  · rw [hnil, resolve_posix_nil]
  · rw [resolve_of_relative h hnil, root_append]

theorem segments_resolve_of_relative {raw : Text} (h : isAbsolute raw = false)
    (workDir : Path) :
    (resolve .posix workDir raw).segments =
      (moves (slashPieces raw)).foldl (enter workDir.isRooted)
          workDir.segments := by
  by_cases hnil : raw = []
  · rw [hnil, resolve_posix_nil]
    rfl
  · rw [resolve_of_relative h hnil, segments_append_posix, foldl_enter_moves]

theorem trailing_resolve_of_relative {raw : Text} (h : isAbsolute raw = false)
    (hne : raw ≠ []) (workDir : Path) :
    (resolve .posix workDir raw).trailing =
      (!(resolve .posix workDir raw).segments.isEmpty &&
        leavesOpen (slashPieces raw)) := by
  rw [resolve_of_relative h hne]
  rfl

theorem isRooted_resolve_posix (workDir : Path) (raw : Text) :
    (resolve .posix workDir raw).isRooted =
      (isAbsolute raw || workDir.isRooted) := by
  rw [isRooted_resolve, isRooted_splitRoot_posix]

/-- The segments of a resolved text are where the native path of that text leads
lexically. -/
theorem segments_resolve_posix {workDir : Path} (h : workDir.WellFormed .posix)
    (hrooted : workDir.isRooted = true) (raw : Text) :
    (resolve .posix workDir raw).segments =
      (slashPieces (Native.join workDir.text raw)).foldl (enter true) [] := by
  rw [foldl_enter_moves]
  cases habsolute : isAbsolute raw with
  | true =>
      rw [resolve_of_isAbsolute habsolute,
        Native.join_of_isAbsolute _ habsolute, segments_parse_posix, habsolute]
  | false =>
      rw [segments_resolve_of_relative habsolute, hrooted,
        Native.moves_join _ habsolute, h.moves_text, List.foldl_append,
        foldl_enter_names true [] (h.isName hrooted), List.nil_append]

theorem leavesOpen_of_trailing_resolve {workDir : Path} {raw : Text}
    (h : (resolve .posix workDir raw).trailing = true) :
    leavesOpen (slashPieces raw) = true := by
  cases habsolute : isAbsolute raw with
  | true =>
      rw [resolve_of_isAbsolute habsolute, trailing_parse_posix,
        Bool.and_eq_true] at h
      exact h.2
  | false =>
      by_cases hnil : raw = []
      · rw [hnil]
        rfl
      · rw [trailing_resolve_of_relative habsolute hnil, Bool.and_eq_true] at h
        exact h.2

end Path

end InputResolution.Lexical
