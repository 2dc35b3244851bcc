import InputResolution.Proofs.Lexical.Printing

namespace InputResolution.Lexical

/-! Paths built from texts: read alone, read from a path already built, and cut
off a path already built.  Main statement: such paths are those of one form,
which each step keeps and which leaves out nothing, since a path of that form is
read from a single text. -/

theorem Ascending.exists_climbs {segments : List Text}
    (h : Ascending segments) :
    ∃ climbs names, segments = List.replicate climbs dotDot ++ names ∧
      dotDot ∉ names := by
  induction segments with
  | nil => exact ⟨0, [], rfl, by simp⟩
  | cons first others ih =>
      obtain ⟨hfirst, hothers⟩ := List.pairwise_cons.mp h
      by_cases hdotDot : first = dotDot
      · obtain ⟨climbs, names, rfl, hnames⟩ := ih hothers
        exact ⟨climbs + 1, names,
          by rw [hdotDot, List.replicate_succ, List.cons_append], hnames⟩
      · refine ⟨0, first :: others, rfl, ?_⟩
        rw [List.mem_cons, not_or]
        exact ⟨fun heq => hdotDot heq.symm,
          fun hmem => hdotDot (hfirst dotDot hmem rfl)⟩

theorem ascending_climbs {names : List Text} (climbs : Nat)
    (h : dotDot ∉ names) :
    Ascending (List.replicate climbs dotDot ++ names) := by
  refine List.pairwise_append.mpr
    ⟨ascending_dotDots fun _ => List.eq_of_mem_replicate, ?_, ?_⟩
  · exact List.pairwise_of_forall_mem_list fun _ _ later hlater heq =>
      absurd (heq ▸ hlater) h
  · exact fun earlier hearlier _ _ _ => List.eq_of_mem_replicate hearlier

namespace Path

/-- A path built from texts.  Any path can be the directory that is cut off. -/
inductive Built (style : Style) : Path → Prop
  | parsed (raw : Text) : Built style (parse style raw)
  | resolved (hworkDir : Built style workDir) (raw : Text) :
      Built style (resolve style workDir raw)
  | stripped (hpath : Built style path)
      (hrest : path.strip? directory = some rest) :
      Built style rest

/-- The form of a path: what its segments are, where it climbs, when its end is
open and which drive it hangs from. -/
structure Formed (style : Style) (path : Path) : Prop where
  isSegment : ∀ segment ∈ path.segments, IsSegment style segment
  exists_climbs : ∃ climbs names,
    path.segments = List.replicate climbs dotDot ++ names ∧ dotDot ∉ names
  stays : path.isRooted = true → dotDot ∉ path.segments
  ne_nil_of_trailing : path.trailing = true → path.segments ≠ []
  trailing_of_climb : path.segments.getLast? = some dotDot →
    path.trailing = true
  drive : ∀ letter, path.root = .drive letter → style = .windows ∧
    letter.isAlpha = true ∧
    path.text = letter :: ':' :: '/' :: path.relativeText

variable {style : Style} {path : Path}

theorem formed_iff :
    Formed style path ↔ path.WellFormed style ∧ path.EndsOpen := by
  constructor
  · intro h
    obtain ⟨climbs, names, hsegments, hnames⟩ := h.exists_climbs
    refine ⟨⟨⟨h.isSegment, ?_, h.stays⟩, h.ne_nil_of_trailing, ?_⟩,
      h.trailing_of_climb⟩
    · rw [hsegments]
      exact ascending_climbs climbs hnames
    · intro letter hroot
      obtain ⟨hstyle, halpha, -⟩ := h.drive letter hroot
      exact ⟨hstyle, halpha⟩
  · rintro ⟨hwell, hopen⟩
    refine ⟨hwell.settled.isSegment, hwell.settled.ascending.exists_climbs,
      hwell.settled.stays,
      hwell.trailing, hopen, fun letter hroot => ?_⟩
    obtain ⟨hstyle, halpha⟩ := hwell.drive letter hroot
    have hrooted : path.isRooted = true := by
      rw [isRooted, hroot, Root.isRooted_drive]
    refine ⟨hstyle, halpha, ?_⟩
    rw [text_of_isRooted hrooted, hroot]
    rfl

/-! Each step keeps the form. -/

theorem EndsOpen.strip? {directory rest : Path} (h : path.EndsOpen)
    (hrest : path.strip? directory = some rest) : rest.EndsOpen := by
  intro hlast
  obtain ⟨-, hsegments, -, htrailing⟩ := strip?_eq_some_iff.mp hrest
  have hne : rest.segments.isEmpty = false := by
    rw [List.isEmpty_eq_false_iff]
    exact List.ne_nil_of_mem (List.mem_of_getLast? hlast)
  have hpath : path.trailing = true := by
    refine h ?_
    rw [hsegments, List.getLast?_append, hlast, Option.some_or]
  rw [htrailing, hpath, hne]
  rfl

theorem Built.wellFormed (h : Built style path) : path.WellFormed style := by
  induction h with
  | parsed raw => exact wellFormed_parse style raw
  | resolved _ raw ih => exact ih.resolve raw
  | stripped _ hrest ih => exact ih.strip? hrest

theorem Built.endsOpen (h : Built style path) : path.EndsOpen := by
  induction h with
  | parsed raw => exact endsOpen_append style _ _
  | resolved _ raw ih => exact endsOpen_resolve ih raw
  | stripped _ hrest ih => exact ih.strip? hrest

/-! A path of the form is read from its text, with a dot before it where the
path is relative: what follows a slash is no drive. -/

theorem append_dot_slash (path : Path) (raw : Text) :
    path.append style ('.' :: '/' :: raw) = path.append style raw := by
  have hdot : ∀ c ∈ dot, style.separates c = false := by
    simp only [dot, List.mem_singleton, forall_eq]
    cases style <;> rfl
  have hpieces : Text.pieces style.separates ('.' :: '/' :: raw) =
      dot :: Text.pieces style.separates raw :=
    Text.pieces_append_cons raw hdot style.separates_slash
  simp only [append, hpieces, List.foldl_cons, enter_dot,
    leavesOpen_cons (Text.pieces_ne_nil style.separates raw)]

theorem splitRoot_dot_slash (style : Style) (raw : Text) :
    splitRoot style ('.' :: '/' :: raw) = (.relative, '.' :: '/' :: raw) := by
  cases style <;> rfl

theorem WellFormed.exists_parse_eq (h : path.WellFormed style)
    (hopen : path.EndsOpen) :
    ∃ raw, parse style raw = path := by
  cases hrooted : path.isRooted with
  | true => exact ⟨path.text, h.parse_text hopen hrooted⟩
  | false =>
      have hroot : path.root = .relative :=
        Root.isRooted_eq_false_iff.mp hrooted
      refine ⟨'.' :: '/' :: path.relativeText, ?_⟩
      rw [parse_of_splitRoot (splitRoot_dot_slash style _), append_dot_slash,
        ← hroot, h.append_relativeText hopen]

/-- However a path is built, one text is read as the same path. -/
theorem built_iff_exists_parse :
    Built style path ↔ ∃ raw, parse style raw = path := by
  constructor
  · exact fun h => h.wellFormed.exists_parse_eq h.endsOpen
  · rintro ⟨raw, rfl⟩
    exact .parsed raw

theorem built_iff_formed : Built style path ↔ Formed style path := by
  rw [formed_iff]
  constructor
  · exact fun h => ⟨h.wellFormed, h.endsOpen⟩
  · rintro ⟨hwell, hopen⟩
    exact built_iff_exists_parse.mpr (hwell.exists_parse_eq hopen)

/-- What is left of `..\..\x` is read on from; where there are no drives nothing
hangs from one. -/
theorem built_iff_formed_climbing :
    Formed .windows ⟨.relative, [dotDot, dotDot], true⟩ ∧
      ¬ Built .posix ⟨.drive 'C', [['w']], false⟩ := by
  have hcut : (parse .windows ['.', '.', '\\', '.', '.', '\\', 'x']).strip?
      (parse .windows ['.', '.']) =
        some ⟨.relative, [dotDot, ['x']], false⟩ := by
    decide
  have hclimbing : Built .windows ⟨.relative, [dotDot, dotDot], true⟩ :=
    .resolved (.stripped (.parsed _) hcut) ['.', '.', '\\', '.', '.']
  refine ⟨built_iff_formed.mp hclimbing, fun hbuilt => ?_⟩
  cases ((built_iff_formed.mp hbuilt).drive 'C' rfl).1

end Path

end InputResolution.Lexical
