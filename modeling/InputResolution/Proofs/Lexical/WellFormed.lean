import InputResolution.Lexical.Print
import InputResolution.Proofs.Text.Pieces

namespace InputResolution.Lexical

/-! What every normalized path has in common.  Segments are settled: reading one
more piece keeps them so, and a path is built by reading pieces. -/

structure IsSegment (style : Style) (segment : Text) : Prop where
  ne_nil : segment ≠ []
  ne_dot : segment ≠ dot
  unseparated : ∀ c ∈ segment, style.separates c = false

/-- Only double dots stand before a double dot. -/
def Ascending (segments : List Text) : Prop :=
  segments.Pairwise fun earlier later => later = dotDot → earlier = dotDot

structure Settled (style : Style) (rooted : Bool) (segments : List Text) :
    Prop where
  isSegment : ∀ segment ∈ segments, IsSegment style segment
  ascending : Ascending segments
  stays : rooted = true → dotDot ∉ segments

structure Path.WellFormed (style : Style) (path : Path) : Prop where
  settled : Settled style path.isRooted path.segments
  trailing : path.trailing = true → path.segments ≠ []
  drive : ∀ letter, path.root = .drive letter → style = .windows ∧
    letter.isAlpha = true

theorem isSegment_dotDot (style : Style) : IsSegment style dotDot where
  ne_nil := by simp [dotDot]
  ne_dot := by simp [dotDot, dot]
  unseparated := by
    intro c hc
    obtain rfl : c = '.' := by simpa [dotDot] using hc
    cases style <;> rfl

theorem settled_nil (style : Style) (rooted : Bool) :
    Settled style rooted [] where
  isSegment := by simp
  ascending := List.Pairwise.nil
  stays := by simp

theorem Settled.sublist {first second : List Text}
    (h : Settled style rooted second) (hsublist : first.Sublist second) :
    Settled style rooted first where
  isSegment :=
  fun segment hsegment => h.isSegment segment (hsublist.subset hsegment)
  ascending := h.ascending.sublist hsublist
  stays := fun hrooted hmem => h.stays hrooted (hsublist.subset hmem)

theorem Settled.append_ordinary (h : Settled style rooted segments)
    (hpiece : IsSegment style piece) (hne : piece ≠ dotDot) :
    Settled style rooted (segments ++ [piece]) where
  isSegment := by
    intro segment hsegment
    rcases List.mem_append.mp hsegment with hold | hnew
    · exact h.isSegment segment hold
    · obtain rfl : segment = piece := by simpa using hnew
      exact hpiece
  ascending := by
    refine List.pairwise_append.mpr
      ⟨h.ascending, List.pairwise_singleton _ _, ?_⟩
    intro earlier _ later hlater heq
    obtain rfl : later = piece := by simpa using hlater
    exact absurd heq hne
  stays := by
    intro hrooted hmem
    rcases List.mem_append.mp hmem with hold | hnew
    · exact h.stays hrooted hold
    · exact hne (List.mem_singleton.mp hnew).symm

theorem ascending_dotDots (h : ∀ segment ∈ segments, segment = dotDot) :
    Ascending segments := by
  induction segments with
  | nil => exact List.Pairwise.nil
  | cons first others ih =>
      exact List.pairwise_cons.mpr
        ⟨fun _ _ _ => h first (by simp),
          ih fun other hother => h other (by simp [hother])⟩

theorem settled_dotDots {style : Style}
    (h : ∀ segment ∈ segments, segment = dotDot) :
    Settled style false segments where
  isSegment :=
  fun segment hsegment => h segment hsegment ▸ isSegment_dotDot style
  ascending := ascending_dotDots h
  stays := by simp

theorem Ascending.dotDots_of_concat {segments : List Text}
    (h : Ascending (segments ++ [dotDot])) :
    ∀ segment ∈ segments, segment = dotDot := fun segment hsegment =>
  (List.pairwise_append.mp h).2.2 segment hsegment dotDot (by simp) rfl

theorem leave_dotDots {segments : List Text}
    (h : ∀ segment ∈ segments, segment = dotDot) :
    leave false segments = segments ++ [dotDot] := by
  rcases List.eq_nil_or_concat segments with rfl | ⟨above, last, rfl⟩
  · rfl
  · have hlast : last = dotDot := h last (by simp)
    simp [leave, hlast]

theorem Settled.leave (h : Settled style rooted segments) :
    Settled style rooted (leave rooted segments) := by
  rcases List.eq_nil_or_concat segments with rfl | ⟨above, last, rfl⟩
  · cases rooted with
    | false => exact settled_dotDots (by simp)
    | true => exact settled_nil _ _
  · rw [List.concat_eq_append] at h ⊢
    by_cases hlast : last = dotDot
    · subst hlast
      cases rooted with
      | true => exact absurd (h.stays rfl) (by simp)
      | false =>
          have hups : ∀ segment ∈ above ++ [dotDot], segment = dotDot := by
            intro segment hsegment
            rcases List.mem_append.mp hsegment with habove | hend
            · exact h.ascending.dotDots_of_concat segment habove
            · exact List.mem_singleton.mp hend
          rw [leave_dotDots hups]
          refine settled_dotDots fun segment hsegment => ?_
          rcases List.mem_append.mp hsegment with hold | hnew
          · exact hups segment hold
          · exact List.mem_singleton.mp hnew
    · rw [leave_append_singleton _ _ hlast]
      exact h.sublist (List.sublist_append_left _ _)

theorem Settled.enter (h : Settled style rooted segments)
    (hpiece : ∀ c ∈ piece, style.separates c = false) :
    Settled style rooted (enter rooted segments piece) := by
  by_cases hnil : piece = []
  · simpa [hnil] using h
  by_cases hdot : piece = dot
  · simpa [hdot] using h
  by_cases hdotDot : piece = dotDot
  · simpa [hdotDot] using h.leave
  · rw [enter_of_ordinary hnil hdot hdotDot]
    exact h.append_ordinary ⟨hnil, hdot, hpiece⟩ hdotDot

theorem Settled.enterAll {pieces : List Text}
    (h : Settled style rooted segments)
    (hpieces : ∀ piece ∈ pieces, ∀ c ∈ piece, style.separates c = false) :
    Settled style rooted (pieces.foldl (Lexical.enter rooted) segments) := by
  induction pieces generalizing segments with
  | nil => exact h
  | cons piece pieces ih =>
      exact ih (h.enter (hpieces piece (by simp))) fun other hother =>
        hpieces other (by simp [hother])

theorem splitDrive?_eq_some {style : Style} {raw rest : Text} {letter : Char}
    (h : splitDrive? style raw = some (letter, rest)) :
    style = .windows ∧ letter.isAlpha = true := by
  unfold splitDrive? at h
  split at h
  · split at h
    · rename_i halpha
      cases h
      exact ⟨rfl, halpha⟩
    · cases h
  · cases h

theorem splitRoot_drive {style : Style} {raw : Text} {letter : Char}
    (h : (splitRoot style raw).1 = .drive letter) :
    style = .windows ∧ letter.isAlpha = true := by
  unfold splitRoot at h
  split at h
  · rename_i found rest hdrive
    cases h
    exact splitDrive?_eq_some hdrive
  · split at h <;> cases h

namespace Path

theorem WellFormed.append {path : Path} (h : path.WellFormed style)
    (raw : Text) :
    (path.append style raw).WellFormed style where
  settled :=
  h.settled.enterAll fun _ hpiece _ hc => (Text.mem_piece hpiece hc).2
  trailing := by
    intro htrailing hnil
    have hnil : (Text.pieces style.separates raw).foldl (enter path.isRooted)
          path.segments = [] :=
      hnil
    simp [Path.append, hnil] at htrailing
  drive := h.drive

theorem wellFormed_parse (style : Style) (raw : Text) :
    (parse style raw).WellFormed style := by
  apply WellFormed.append
  exact ⟨settled_nil _ _, by simp [ofRoot], fun _ => splitRoot_drive⟩

theorem WellFormed.adoptDrive {workDir path : Path}
    (hworkDir : workDir.WellFormed style) (hpath : path.WellFormed style) :
    (adoptDrive style workDir path).WellFormed style := by
  unfold Path.adoptDrive
  split
  · rename_i letter hroot hdrive
    have hsettled := hpath.settled
    simp only [isRooted, hroot] at hsettled
    exact ⟨hsettled, hpath.trailing,
      fun _ heq => hworkDir.drive _ (hdrive.trans heq)⟩
  · exact hpath

theorem WellFormed.resolve {workDir : Path} (h : workDir.WellFormed style)
    (raw : Text) :
    (resolve style workDir raw).WellFormed style := by
  unfold Path.resolve
  split
  · exact h.adoptDrive (wellFormed_parse style raw)
  · split
    · exact h
    · exact h.append raw

@[simp] theorem isRooted_adoptDrive (style : Style) (workDir path : Path) :
    (adoptDrive style workDir path).isRooted = path.isRooted := by
  unfold adoptDrive
  split
  · rename_i hroot hdrive
    simp [isRooted, hroot]
  · rfl

theorem isRooted_resolve (style : Style) (workDir : Path) (raw : Text) :
    (resolve style workDir raw).isRooted =
      ((splitRoot style raw).1.isRooted || workDir.isRooted) := by
  unfold resolve
  split
  · rename_i hrooted
    rw [isRooted_adoptDrive, isRooted, root_parse, hrooted, Bool.true_or]
  · rename_i hrelative
    rw [Bool.not_eq_true] at hrelative
    rw [hrelative, Bool.false_or]
    split
    · rfl
    · exact isRooted_append style workDir raw

theorem strip?_eq_some_iff {path directory rest : Path} :
    path.strip? directory = some rest ↔
      path.root.agrees directory.root = true ∧
        path.segments = directory.segments ++ rest.segments ∧
        rest.root = .relative ∧
        rest.trailing = (path.trailing && !rest.segments.isEmpty) := by
  unfold strip?
  constructor
  · intro h
    split at h
    · rename_i hholds
      obtain ⟨hroot, tail, htail⟩ := hholds
      cases h
      simp [hroot, ← htail]
    · cases h
  · rintro ⟨hroot, hsegments, hrest, htrailing⟩
    rw [if_pos ⟨hroot, rest.segments, hsegments.symm⟩]
    cases rest
    simp_all

theorem WellFormed.strip? {path directory rest : Path}
    (h : path.WellFormed style) (hstrip : path.strip? directory = some rest) :
    rest.WellFormed style := by
  obtain ⟨-, hsegments, hroot, htrailing⟩ := strip?_eq_some_iff.mp hstrip
  refine ⟨?_, ?_, ?_⟩
  · have hsublist : rest.segments.Sublist path.segments :=
      hsegments ▸ List.sublist_append_right _ _
    have hsettled := h.settled.sublist hsublist
    exact ⟨hsettled.isSegment, hsettled.ascending, by simp [isRooted, hroot]⟩
  · intro htrue hnil
    simp [htrailing, hnil] at htrue
  · intro letter hletter
    simp [hroot] at hletter

/-! The text of the segments is cut into them again. -/

theorem WellFormed.trailing_of_nil {path : Path} (h : path.WellFormed style)
    (hnil : path.segments = []) : path.trailing = false := by
  rw [Bool.eq_false_iff]
  exact fun htrailing => h.trailing htrailing hnil

theorem WellFormed.relativeText_eq_nil {path : Path} (h : path.WellFormed style)
    (hnil : path.segments = []) : path.relativeText = [] := by
  simp [relativeText, hnil, h.trailing_of_nil hnil, Text.join]

theorem WellFormed.pieces_relativeText {path : Path} (h : path.WellFormed style)
    (hne : path.segments ≠ []) :
    Text.pieces style.separates path.relativeText =
      path.segments ++ if path.trailing then [[]] else [] := by
  have hjoin : Text.pieces style.separates (Text.join '/' path.segments) =
      path.segments :=
    Text.pieces_join style.separates_slash hne fun segment hsegment =>
      (h.settled.isSegment segment hsegment).unseparated
  unfold relativeText
  cases path.trailing with
  | false => simpa using hjoin
  | true =>
      rw [if_pos rfl, Text.pieces_append_separator _ _ style.separates_slash,
        hjoin]
      rfl

theorem WellFormed.relativeText_eq_nil_iff {path : Path}
    (h : path.WellFormed style) :
    path.relativeText = [] ↔ path.segments = [] := by
  refine ⟨fun htext => ?_, h.relativeText_eq_nil⟩
  cases hsegments : path.segments with
  | nil => rfl
  | cons segment others =>
      have hpieces := h.pieces_relativeText (by simp [hsegments])
      rw [htext, hsegments] at hpieces
      have hnil : segment = [] := (List.cons.inj hpieces).1.symm
      exact absurd hnil
        (h.settled.isSegment segment (by simp [hsegments])).ne_nil

theorem WellFormed.text_ne_nil {path : Path} (h : path.WellFormed style) :
    path.text ≠ [] := by
  unfold text
  split
  · simp [dot]
  · rename_i hplain
    intro hnil
    obtain ⟨hroot, hrelative⟩ := List.append_eq_nil_iff.mp hnil
    have hroot : path.root = .relative := by
      cases hcase : path.root <;> simp_all [Root.text]
    exact hplain ⟨hroot, h.relativeText_eq_nil_iff.mp hrelative⟩

theorem WellFormed.head?_relativeText {path : Path}
    (h : path.WellFormed style) :
    ∀ c ∈ path.relativeText.head?, style.separates c = false := by
  intro c hc
  by_cases hnil : path.segments = []
  · simp [h.relativeText_eq_nil hnil] at hc
  · obtain ⟨rest, hrest⟩ : ∃ rest, path.relativeText = c :: rest :=
      List.head?_eq_some_iff.mp hc
    obtain ⟨first, others, hsegments⟩ := List.exists_cons_of_ne_nil hnil
    have hpieces := h.pieces_relativeText hnil
    rw [Bool.eq_false_iff]
    intro hseparates
    rw [hrest, Text.pieces_cons_of_separates rest hseparates,
      hsegments] at hpieces
    have : first = [] := (List.cons.inj hpieces).1.symm
    exact (h.settled.isSegment first (by simp [hsegments])).ne_nil this

end Path

end InputResolution.Lexical
