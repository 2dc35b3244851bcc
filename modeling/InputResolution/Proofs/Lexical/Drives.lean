import InputResolution.Proofs.Lexical.Containment
import InputResolution.Proofs.Lexical.Portable

namespace InputResolution.Lexical

/-! The style with drives.  Main statements: apart from a drive in front, a text
is read as the other style reads it with every backslash turned into a slash, so
that it does not matter which of the two separates; and inside a directory or on
the working drive the case of a drive's letter is lost. -/

def forward (c : Char) : Char :=
  if c = '\\' then '/' else c

def slashed (text : Text) : Text :=
  text.map forward

@[simp] theorem slashed_nil : slashed [] = [] := rfl

@[simp] theorem slashed_cons (c : Char) (text : Text) :
    slashed (c :: text) = forward c :: slashed text := rfl

theorem separates_forward (c : Char) :
    Style.posix.separates (forward c) = Style.windows.separates c := by
  by_cases hc : c = '\\' <;> simp [forward, Style.separates, hc]

theorem forward_of_not_separates {c : Char}
    (h : Style.windows.separates c = false) :
    forward c = c := by
  have hc : ¬ c = '/' ∧ ¬ c = '\\' := by simpa [Style.separates] using h
  rw [forward, if_neg hc.2]

theorem forward_of_isAlpha {letter : Char} (h : letter.isAlpha = true) :
    forward letter = letter := by
  rw [forward, if_neg]
  rintro rfl
  cases h

@[simp] theorem forward_forward (c : Char) :
    forward (forward c) = forward c := by
  by_cases hc : c = '\\' <;> simp [forward, hc]

@[simp] theorem slashed_slashed (text : Text) :
    slashed (slashed text) = slashed text := by
  simp [slashed]

theorem pieces_slashed (text : Text) :
    Text.pieces Style.posix.separates (slashed text) =
      Text.pieces Style.windows.separates text := by
  induction text with
  | nil => rfl
  | cons c text ih =>
      cases hc : Style.windows.separates c with
      | true =>
          rw [slashed_cons,
            Text.pieces_cons_of_separates _ ((separates_forward c).trans hc),
            ih, Text.pieces_cons_of_separates _ hc]
      | false =>
          rw [slashed_cons,
            Text.pieces_cons_of_not_separates _
              ((separates_forward c).trans hc), ih,
            Text.pieces_cons_of_not_separates _ hc, forward_of_not_separates hc]

theorem eq_of_forward_eq {c d : Char} (h : forward c = d) (hd : d ≠ '/') :
    c = d := by
  unfold forward at h
  split at h
  · exact absurd h.symm hd
  · exact h

theorem beginsAsDrive_slashed_iff {text : Text} :
    BeginsAsDrive (slashed text) ↔ BeginsAsDrive text := by
  constructor
  · rintro ⟨letter, rest, htext, halpha⟩
    obtain ⟨c, tail, rfl, hletter, htail⟩ := List.map_eq_cons_iff.mp htext
    obtain ⟨d, rest, rfl, hcolon, -⟩ := List.map_eq_cons_iff.mp htail
    have hne : letter ≠ '/' := by
      rintro rfl
      cases halpha
    obtain rfl := eq_of_forward_eq hletter hne
    obtain rfl := eq_of_forward_eq hcolon (by decide)
    exact ⟨c, rest, rfl, halpha⟩
  · rintro ⟨letter, rest, rfl, halpha⟩
    exact ⟨letter, slashed rest,
      by rw [slashed_cons, forward_of_isAlpha halpha]; rfl, halpha⟩

theorem splitRoot_slashed {text : Text} (h : ¬ BeginsAsDrive text) :
    splitRoot .posix (slashed text) =
      ((splitRoot .windows text).1, slashed (splitRoot .windows text).2) := by
  have hseparates : Style.posix.separates ∘ forward = Style.windows.separates :=
    funext separates_forward
  have hdrive : splitDrive? .windows text = none :=
    splitDrive?_eq_none_iff.mpr (.inr h)
  rw [splitRoot, splitRoot, hdrive, splitDrive?_posix, slashed,
    List.takeWhile_map, List.dropWhile_map, List.length_map, hseparates]
  rcases (text.takeWhile Style.windows.separates).length with
    _ | _ | _ | more <;> rfl

theorem splitRoot_of_leading {style : Style} {raw : Text}
    (h : (raw.takeWhile style.separates).length = 1 ∨
      3 ≤ (raw.takeWhile style.separates).length) :
    splitRoot style raw = (.slash, raw.dropWhile style.separates) := by
  cases raw with
  | nil => simp at h
  | cons c rest =>
      cases hc : style.separates c with
      | false => simp [hc] at h
      | true =>
          rw [splitRoot, splitDrive?_of_separates hc]
          rcases hlength : ((c :: rest).takeWhile style.separates).length with
            _ | _ | _ | more
          · omega
          · rfl
          · omega
          · rfl

namespace Path

theorem append_windows (path : Path) (raw : Text) :
    path.append .windows raw = path.append .posix (slashed raw) := by
  simp only [append, pieces_slashed]

theorem append_dropWhile_separates (style : Style) (path : Path) (raw : Text) :
    path.append style (raw.dropWhile style.separates) =
      path.append style raw := by
  induction raw with
  | nil => rfl
  | cons c raw ih =>
      cases hc : style.separates c with
      | true =>
          rw [List.dropWhile_cons_of_pos hc, ih, append_cons_of_separates hc]
      | false => rw [List.dropWhile_cons_of_neg (by simp [hc])]

theorem parse_windows_of_drive {letter : Char} (hletter : letter.isAlpha = true)
    (rest : Text) :
    parse .windows (letter :: ':' :: rest) =
      { parse .posix ('/' :: '/' :: '/' :: slashed rest) with
        root := .drive letter } := by
  have hslashes : splitRoot .posix ('/' :: '/' :: '/' :: slashed rest) =
      (.slash, (slashed rest).dropWhile Style.posix.separates) := by
    rw [splitRoot_posix]
    rfl
  rw [parse_of_splitRoot (splitRoot_of_drive hletter rest),
    parse_of_splitRoot hslashes, append_windows, append_dropWhile_separates]
  rfl

theorem parse_windows_of_not_drive {raw : Text} (h : ¬ BeginsAsDrive raw) :
    parse .windows raw = parse .posix (slashed raw) := by
  rw [parse, parse, splitRoot_slashed h, append_windows]

theorem parse_windows_slashed (raw : Text) :
    parse .windows (slashed raw) = parse .windows raw := by
  by_cases hdrive : BeginsAsDrive raw
  · obtain ⟨letter, rest, rfl, halpha⟩ := hdrive
    have hcolon : forward ':' = ':' := rfl
    rw [slashed_cons, slashed_cons, forward_of_isAlpha halpha, hcolon,
      parse_windows_of_drive halpha, parse_windows_of_drive halpha,
      slashed_slashed]
  · rw [parse_windows_of_not_drive hdrive,
      parse_windows_of_not_drive (mt beginsAsDrive_slashed_iff.mp hdrive),
      slashed_slashed]

theorem resolve_windows_slashed (workDir : Path) (raw : Text) :
    resolve .windows workDir (slashed raw) = resolve .windows workDir raw := by
  have hempty : (slashed raw).isEmpty = raw.isEmpty := by cases raw <;> rfl
  rw [resolve, resolve, ← root_parse, ← root_parse, parse_windows_slashed,
    hempty, append_windows, append_windows, slashed_slashed]

end Path

structure ReadsAsPosix (raw : Text) : Prop where
  drive : ∀ letter rest, raw = letter :: ':' :: rest → letter.isAlpha = true →
    Path.parse .windows raw =
      { Path.parse .posix ('/' :: '/' :: '/' :: slashed rest) with
        root := .drive letter }
  driveless : ¬ BeginsAsDrive raw →
    Path.parse .windows raw = Path.parse .posix (slashed raw)

theorem readsAsPosix (raw : Text) : ReadsAsPosix raw where
  drive := by
    rintro letter rest rfl hletter
    exact Path.parse_windows_of_drive hletter rest
  driveless := Path.parse_windows_of_not_drive

/-- The same text but for slashes and backslashes, which stand in the same
places. -/
def SeparatedAlike (first second : Text) : Prop :=
  List.Forall₂ (fun c d => c = d ∨
    Style.windows.separates c = true ∧ Style.windows.separates d = true) first
      second

theorem forward_of_separates {c : Char} (h : Style.windows.separates c = true) :
    forward c = '/' := by
  have hc : c = '/' ∨ c = '\\' := by simpa [Style.separates] using h
  rcases hc with rfl | rfl <;> rfl

theorem SeparatedAlike.slashed_eq {first second : Text}
    (h : SeparatedAlike first second) :
    slashed first = slashed second := by
  induction h with
  | nil => rfl
  | cons hchar _ ih =>
      rw [slashed_cons, slashed_cons, ih]
      rcases hchar with rfl | ⟨hfirst, hsecond⟩
      · rfl
      · rw [forward_of_separates hfirst, forward_of_separates hsecond]

theorem SeparatedAlike.resolve_eq {first second : Text}
    (h : SeparatedAlike first second) (workDir : Path) :
    Path.resolve .windows workDir first =
      Path.resolve .windows workDir second := by
  rw [← Path.resolve_windows_slashed, h.slashed_eq,
    Path.resolve_windows_slashed]

/-! The case of a drive's letter. -/

theorem isAlpha_of_toLower_eq {first second : Char}
    (h : first.toLower = second.toLower) (hfirst : first.isAlpha = true) :
    second.isAlpha = true := by
  delta Char.toLower at h
  delta Char.isAlpha Char.isUpper Char.isLower at hfirst ⊢
  simp only [Bool.or_eq_true, Bool.and_eq_true, decide_eq_true_eq] at hfirst ⊢
  grind

theorem Root.agrees_congr {first second : Root} (h : first.agrees second = true)
    (other : Root) :
    first.agrees other = second.agrees other := by
  rw [Bool.eq_iff_iff]
  constructor
  · exact fun hfirst =>
      Root.agrees_trans ((Root.agrees_comm second first).trans h) hfirst
  · exact Root.agrees_trans h

namespace Path

/-- The same path, though the letter of its drive may be written in the other
case. -/
structure Recases (first second : Path) : Prop where
  root : first.root.agrees second.root = true
  segments : first.segments = second.segments
  trailing : first.trailing = second.trailing

variable {first second : Path}

theorem resolve_of_drive {letter : Char} (hletter : letter.isAlpha = true)
    (workDir : Path) (rest : Text) :
    resolve .windows workDir (letter :: ':' :: rest) =
      (ofRoot (.drive letter)).append .windows rest := by
  have hsplit := splitRoot_of_drive hletter rest
  rw [resolve, hsplit, Root.isRooted_drive, if_pos rfl,
    parse_of_splitRoot hsplit]
  rfl

theorem recases_resolve {letter other : Char} (hletter : letter.isAlpha = true)
    (hother : other.isAlpha = true) (hcase : letter.toLower = other.toLower)
    (workDir : Path) (rest : Text) :
    (resolve .windows workDir (letter :: ':' :: rest)).Recases
      (resolve .windows workDir (other :: ':' :: rest)) := by
  rw [resolve_of_drive hletter, resolve_of_drive hother]
  exact ⟨by simpa [ofRoot] using hcase, rfl, rfl⟩

theorem resolve_of_slash {workDir : Path} {letter : Char} {raw : Text}
    (hworkDir : workDir.root = .drive letter)
    (hraw : splitRoot .windows raw =
      (.slash, raw.dropWhile Style.windows.separates)) :
    resolve .windows workDir raw =
      (ofRoot (.drive letter)).append .windows raw := by
  rw [resolve, hraw, Root.isRooted_slash, if_pos rfl, parse_of_splitRoot hraw,
    append_dropWhile_separates]
  simp only [adoptDrive, root_append, ofRoot, hworkDir]
  rfl

theorem recases_resolve_on_drive {workDir : Path} {letter other : Char}
    {raw : Text} (hworkDir : workDir.root = .drive letter)
    (hletter : letter.isAlpha = true) (hcase : letter.toLower = other.toLower)
    (hraw : splitRoot .windows raw =
      (.slash, raw.dropWhile Style.windows.separates)) :
    (resolve .windows workDir raw).Recases
        (resolve .windows workDir (other :: ':' :: raw)) := by
  rw [resolve_of_slash hworkDir hraw, ← resolve_of_drive hletter workDir raw]
  exact recases_resolve hletter (isAlpha_of_toLower_eq hcase hletter) hcase
    workDir raw

theorem Recases.relativeText_eq (h : first.Recases second) :
    first.relativeText = second.relativeText := by
  rw [relativeText, relativeText, h.segments, h.trailing]

theorem Recases.strip?_eq (h : first.Recases second) (directory : Path) :
    first.strip? directory = second.strip? directory := by
  simp only [strip?, Root.agrees_congr h.root, h.segments, h.trailing]

theorem Recases.holds_iff (h : first.Recases second) (directory : Path) :
    directory.Holds first ↔ directory.Holds second := by
  rw [Holds, Holds, Root.agrees_congr h.root, h.segments]

/-- On the working drive no letter is written; off it the letter is written as
it stands. -/
theorem Recases.portableText_eq_iff (h : first.Recases second) {workDir : Path}
    {letter other : Char} (hfirst : first.root = .drive letter)
    (hsecond : second.root = .drive other) :
    first.portableText workDir = second.portableText workDir ↔
      letter = other ∨ (Root.drive letter).agrees workDir.root = true := by
  have hagrees : (Root.drive letter).agrees workDir.root =
      (Root.drive other).agrees workDir.root := by
    rw [← hfirst, ← hsecond, Root.agrees_congr h.root]
  rw [portableText_of_drive hfirst, portableText_of_drive hsecond, ← hagrees,
    h.relativeText_eq]
  cases (Root.drive letter).agrees workDir.root <;> simp

end Path

end InputResolution.Lexical
