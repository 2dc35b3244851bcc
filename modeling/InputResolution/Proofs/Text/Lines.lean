import InputResolution.Text.Lines
import InputResolution.Proofs.Text.Pieces

namespace InputResolution.Text

/-! Cutting a text into lines and writing the lines again.  Every line is
written with a line feed; what that changes in a text is a carriage return
before a line feed, which is lost, and a line feed at the end, which is not
doubled. -/

/-- A carriage return stands right before a line feed. -/
def HasReturn (text : Text) : Prop :=
  ['\r', '\n'] <:+: text

instance (text : Text) : Decidable text.HasReturn :=
  inferInstanceAs (Decidable (_ <:+: _))

theorem hasReturn_append {first second : Text} :
    HasReturn (first ++ second) ↔
      HasReturn first ∨ HasReturn second ∨
        (first.getLast? = some '\r' ∧ second.head? = some '\n') := by
  constructor
  · intro h
    rcases List.infix_append_iff.mp h with
      hfirst | hsecond | ⟨left, right, hsplit, hleft, hright⟩
    · exact .inl hfirst
    · exact .inr (.inl hsecond)
    · rcases left with _ | ⟨c, _ | ⟨d, left⟩⟩
      · obtain rfl : right = ['\r', '\n'] := hsplit.symm
        exact .inr (.inl hright.isInfix)
      · obtain ⟨rfl, rfl⟩ : '\r' = c ∧ ['\n'] = right := by simpa using hsplit
        obtain ⟨before, rfl⟩ := hleft
        obtain ⟨after, rfl⟩ := hright
        exact .inr (.inr ⟨by simp, rfl⟩)
      · obtain ⟨rfl, rfl, rfl, -⟩ : '\r' = c ∧ '\n' = d ∧ left = [] ∧
          right = [] := by
          simpa using hsplit
        exact .inl hleft.isInfix
  · rintro (hfirst | hsecond | ⟨hfirst, hsecond⟩)
    · exact List.infix_append_of_infix_left hfirst
    · exact List.infix_append_of_infix_right hsecond
    · obtain ⟨before, rfl⟩ := List.getLast?_eq_some_iff.mp hfirst
      obtain ⟨after, rfl⟩ := List.head?_eq_some_iff.mp hsecond
      exact ⟨before, after, by simp⟩

theorem not_hasReturn_of_notMem {text : Text} (h : '\n' ∉ text) :
    ¬ text.HasReturn :=
  fun hreturn => h (hreturn.subset (by simp))

theorem not_hasReturn_of_return_notMem {text : Text} (h : '\r' ∉ text) :
    ¬ text.HasReturn :=
  fun hreturn => h (hreturn.subset (by simp))

theorem hasReturn_append_left {fixed : Text} (text : Text) (h : '\r' ∉ fixed) :
    HasReturn (fixed ++ text) ↔ HasReturn text := by
  have hlast : fixed.getLast? ≠ some '\r' :=
    fun hlast => h (List.mem_of_getLast? hlast)
  simp [hasReturn_append, not_hasReturn_of_return_notMem h, hlast]

theorem hasReturn_append_right {fixed : Text} (text : Text) (h : '\n' ∉ fixed) :
    HasReturn (text ++ fixed) ↔ HasReturn text := by
  have hhead : fixed.head? ≠ some '\n' :=
    fun hhead => h (List.mem_of_head? hhead)
  simp [hasReturn_append, not_hasReturn_of_notMem h, hhead]

/-! A text is its terminated lines followed by what stands after the last line
feed. -/

section Lines

variable {terminated : List Text} {last : Text}

theorem unlines_cons (line : Text) (lines : List Text) :
    unlines (line :: lines) = line ++ '\n' :: unlines lines := by
  simp [unlines]

theorem unlines_concat (lines : List Text) (line : Text) :
    unlines (lines ++ [line]) = unlines lines ++ line ++ ['\n'] := by
  simp [unlines]

theorem exists_eq_unlines_append (text : Text) :
    ∃ terminated last, (∀ piece ∈ terminated ++ [last], '\n' ∉ piece) ∧
      text = unlines terminated ++ last := by
  induction text with
  | nil => exact ⟨[], [], by simp, rfl⟩
  | cons c text ih =>
      obtain ⟨terminated, last, hpieces, rfl⟩ := ih
      by_cases hc : c = '\n'
      · exact ⟨[] :: terminated, last, by simpa using
          hpieces, by simp [hc, unlines_cons]⟩
      · have hc' : '\n' ≠ c := Ne.symm hc
        cases terminated with
        | nil => exact ⟨[], c :: last, by simpa [hc'] using hpieces, rfl⟩
        | cons line terminated =>
            exact ⟨(c :: line) :: terminated, last, by simpa [hc'] using
              hpieces,
              by simp [unlines_cons]⟩

theorem pieces_unlines_append
    (h : ∀ piece ∈ terminated ++ [last], '\n' ∉ piece) :
    pieces (· == '\n') (unlines terminated ++ last) = terminated ++ [last] := by
  induction terminated with
  | nil => exact pieces_eq_singleton (beq_eq_false_of_notMem (h last (by simp)))
  | cons line terminated ih =>
      rw [unlines_cons, List.append_assoc, List.cons_append,
        pieces_append_cons _ (beq_eq_false_of_notMem (h line (by simp))) rfl,
        ih fun piece hpiece => h piece (by simp [hpiece])]
      rfl

theorem unlines_injective {first second : List Text}
    (hfirst : ∀ line ∈ first, '\n' ∉ line)
    (hsecond : ∀ line ∈ second, '\n' ∉ line)
    (h : unlines first = unlines second) :
    first = second := by
  have pieces_unlines : ∀ {lines : List Text}, (∀ line ∈ lines, '\n' ∉ line) →
      pieces (· == '\n') (unlines lines ++ []) = lines ++ [[]] := by
    intro lines hlines
    refine pieces_unlines_append fun piece hpiece => ?_
    rcases List.mem_append.mp hpiece with hline | hlast
    · exact hlines piece hline
    · simp [List.mem_singleton.mp hlast]
  have hpieces := pieces_unlines hfirst
  rw [h, pieces_unlines hsecond] at hpieces
  exact (List.append_cancel_right hpieces).symm

theorem hasReturn_unlines_append
    (h : ∀ piece ∈ terminated ++ [last], '\n' ∉ piece) :
    HasReturn (unlines terminated ++ last) ↔
    ∃ line ∈ terminated, line.getLast? = some '\r' := by
  induction terminated with
  | nil => simpa using not_hasReturn_of_notMem (h last (by simp))
  | cons line terminated ih =>
      have hline := not_hasReturn_of_notMem (h line (by simp))
      have hfeed : ¬ HasReturn ['\n'] := by decide
      rw [unlines_cons, List.append_assoc, List.cons_append,
        ← List.singleton_append, hasReturn_append, hasReturn_append,
        ih fun piece hpiece => h piece (by simp [hpiece])]
      simp [hline, hfeed, or_comm]

theorem getLast?_unlines_append (h : '\n' ∉ last) :
    (unlines terminated ++ last).getLast? = some '\n' ↔
    last = [] ∧ terminated ≠ [] := by
  rcases List.eq_nil_or_concat last with rfl | ⟨front, c, rfl⟩
  · rcases List.eq_nil_or_concat terminated with rfl | ⟨lines, line, rfl⟩
    · simp
    · rw [List.concat_eq_append, unlines_concat]
      simp
  · have hc : c ≠ '\n' := by rintro rfl; simp at h
    simp [← List.append_assoc, hc]

theorem dropReturn_eq_self_iff {line : Text} :
    dropReturn line = line ↔ line.getLast? ≠ some '\r' := by
  constructor
  · intro hsame hlast
    obtain ⟨front, rfl⟩ := List.getLast?_eq_some_iff.mp hlast
    have hlength := congrArg List.length hsame
    simp [dropReturn] at hlength
  · exact fun hlast => if_neg hlast

theorem lines_unlines_append
    (h : ∀ piece ∈ terminated ++ [last], '\n' ∉ piece) :
    lines (unlines terminated ++ last) =
      terminated.map dropReturn ++ if last.isEmpty then [] else [last] := by
  simp [lines, pieces_unlines_append h]

theorem lines_unlines_append_eq_iff
    (h : ∀ piece ∈ terminated ++ [last], '\n' ∉ piece) :
    lines (unlines terminated ++ last) = terminated ++ [last] ↔
      (∀ line ∈ terminated, line.getLast? ≠ some '\r') ∧ last ≠ [] := by
  rw [lines_unlines_append h]
  constructor
  · intro hsame
    have hlast : last ≠ [] := by
      rintro rfl
      have hlength := congrArg List.length hsame
      simp at hlength
    refine ⟨fun line hline => ?_, hlast⟩
    have hmap : terminated.map dropReturn = terminated.map id := by
      simpa [List.isEmpty_iff, hlast] using hsame
    exact dropReturn_eq_self_iff.mp (List.map_inj_left.mp hmap line hline)
  · rintro ⟨hterminated, hlast⟩
    have hmap : terminated.map dropReturn = terminated.map id :=
      List.map_inj_left.mpr fun line hline =>
        dropReturn_eq_self_iff.mpr (hterminated line hline)
    simp [List.isEmpty_iff, hlast, hmap]

end Lines

theorem lineFeed_notMem_of_mem_lines {text line : Text}
    (h : line ∈ lines text) : '\n' ∉ line := by
  obtain ⟨terminated, last, hpieces, rfl⟩ := exists_eq_unlines_append text
  rw [lines_unlines_append hpieces] at h
  have mem_of_mem_dropReturn : ∀ {piece : Text} {c : Char},
      c ∈ dropReturn piece → c ∈ piece := by
    intro piece c hc
    unfold dropReturn at hc
    split at hc
    · exact List.dropLast_subset _ hc
    · exact hc
  rcases List.mem_append.mp h with hterminated | hlast
  · obtain ⟨piece, hpiece, rfl⟩ := List.mem_map.mp hterminated
    exact fun hfeed =>
      hpieces piece (by simp [hpiece]) (mem_of_mem_dropReturn hfeed)
  · have : line = last := by
      split at hlast <;> simp_all
    exact this ▸ hpieces last (by simp)

theorem unlines_lines_eq_iff {text : Text} (hne : text ≠ []) :
    unlines (lines text) = text ++ ['\n'] ↔
    ¬ text.HasReturn ∧ text.getLast? ≠ some '\n' := by
  have hlines : ∀ line ∈ lines text, '\n' ∉ line :=
    fun _ => lineFeed_notMem_of_mem_lines
  obtain ⟨terminated, last, hpieces, rfl⟩ := exists_eq_unlines_append text
  have hlast : '\n' ∉ last := hpieces last (by simp)
  rw [← unlines_concat, hasReturn_unlines_append hpieces, ne_eq,
    getLast?_unlines_append hlast]
  have hinjective : unlines (lines (unlines terminated ++ last)) =
      unlines (terminated ++ [last]) ↔
      lines (unlines terminated ++ last) = terminated ++ [last] :=
    ⟨unlines_injective hlines hpieces, congrArg unlines⟩
  rw [hinjective, lines_unlines_append_eq_iff hpieces]
  have hsome : last = [] → terminated ≠ [] := by
    rintro rfl rfl
    exact hne rfl
  grind

end InputResolution.Text
