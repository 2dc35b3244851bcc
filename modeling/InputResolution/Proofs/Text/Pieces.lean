import InputResolution.Text.Pieces

namespace InputResolution.Text

/-! Cutting at a separator cuts the text there, whatever stands on both sides of
it. -/

theorem prependFirst_append (a : α) {first : List (List α)}
    (second : List (List α)) (hne : first ≠ []) :
    prependFirst a (first ++ second) = prependFirst a first ++ second := by
  cases first with
  | nil => exact absurd rfl hne
  | cons piece others => rfl

theorem pieces_append_separator {separates : α → Bool} {separator : α}
    (before after : List α) (hseparator : separates separator = true) :
    pieces separates (before ++ separator :: after) =
      pieces separates before ++ pieces separates after := by
  induction before with
  | nil => simp [pieces, hseparator]
  | cons a before ih =>
      cases h : separates a with
      | true =>
          rw [List.cons_append, pieces_cons_of_separates _ h, ih,
            pieces_cons_of_separates _ h]
          rfl
      | false =>
          rw [List.cons_append, pieces_cons_of_not_separates _ h, ih,
            pieces_cons_of_not_separates _ h,
            prependFirst_append _ _ (pieces_ne_nil _ _)]

theorem mem_prependFirst {a : α} {lists : List (List α)} {list : List α}
    (h : list ∈ prependFirst a lists) :
    list ∈ lists ∨ list = [a] ∨ ∃ first ∈ lists, list = a :: first := by
  cases lists with
  | nil => exact Or.inr (Or.inl (by simpa [prependFirst] using h))
  | cons first others =>
      rcases List.mem_cons.mp h with rfl | hother
      · exact Or.inr (Or.inr ⟨first, by simp, rfl⟩)
      · exact Or.inl (List.mem_cons_of_mem _ hother)

theorem mem_piece {separates : α → Bool} {text piece : List α}
    (hpiece : piece ∈ pieces separates text) {a : α} (ha : a ∈ piece) :
    a ∈ text ∧ separates a = false := by
  induction text generalizing piece with
  | nil =>
      have : piece = [] := by simpa using hpiece
      simp [this] at ha
  | cons b rest ih =>
      cases h : separates b with
      | true =>
          rw [pieces_cons_of_separates _ h] at hpiece
          rcases List.mem_cons.mp hpiece with rfl | hrest
          · simp at ha
          · exact ⟨List.mem_cons_of_mem _ (ih hrest ha).1, (ih hrest ha).2⟩
      | false =>
          rw [pieces_cons_of_not_separates _ h] at hpiece
          rcases mem_prependFirst hpiece with hrest | rfl | ⟨first, hfirst, rfl⟩
          · exact ⟨List.mem_cons_of_mem _ (ih hrest ha).1, (ih hrest ha).2⟩
          · obtain rfl : a = b := by simpa using ha
            exact ⟨by simp, h⟩
          · rcases List.mem_cons.mp ha with rfl | ha
            · exact ⟨by simp, h⟩
            · exact ⟨List.mem_cons_of_mem _ (ih hfirst ha).1, (ih hfirst ha).2⟩

theorem mem_join {separator : Char} {texts : List Text} {c : Char}
    (h : c ∈ join separator texts) :
    c = separator ∨ ∃ text ∈ texts, c ∈ text := by
  induction texts with
  | nil => simp [join] at h
  | cons text others ih =>
      cases others with
      | nil => exact Or.inr ⟨text, by simp, h⟩
      | cons next others =>
          rw [join_cons_of_ne_nil _ _ (by simp), List.mem_append,
            List.mem_cons] at h
          rcases h with htext | hseparator | hothers
          · exact Or.inr ⟨text, by simp, htext⟩
          · exact Or.inl hseparator
          · rcases ih hothers with hseparator | ⟨other, hother, hc⟩
            · exact Or.inl hseparator
            · exact Or.inr ⟨other, List.mem_cons_of_mem _ hother, hc⟩

theorem getLast?_pieces_append_separator {separates : α → Bool} {separator : α}
    (before after : List α) (hseparator : separates separator = true) :
    (pieces separates (before ++ separator :: after)).getLast? =
      (pieces separates after).getLast? := by
  rw [pieces_append_separator _ _ hseparator, List.getLast?_append]
  cases hlast : (pieces separates after).getLast? with
  | none =>
      exact absurd (List.getLast?_eq_none_iff.mp hlast) (pieces_ne_nil _ _)
  | some last => rfl

end InputResolution.Text
