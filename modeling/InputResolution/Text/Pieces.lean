namespace InputResolution

/-! Texts are lists of characters: every operation on a text is an operation on
lists, and two texts are equal when they hold the same code points in the same
order. -/

abbrev Text := List Char

namespace Text

def prependFirst (a : α) : List (List α) → List (List α)
  | [] => [[a]]
  | first :: others => (a :: first) :: others

/-- The pieces between separators, empty ones included, so that a list with `n`
separators has `n + 1` pieces. -/
def pieces (separates : α → Bool) : List α → List (List α)
  | [] => [[]]
  | a :: rest =>
      if separates a then [] :: pieces separates rest
      else prependFirst a (pieces separates rest)

def join (separator : Char) : List Text → Text
  | [] => []
  | [piece] => piece
  | piece :: next :: others =>
      piece ++ separator :: join separator (next :: others)

/-- Cuts at the first occurrence of `mark`, which belongs to neither half. -/
def cut? (mark : Char) : Text → Option (Text × Text)
  | [] => none
  | c :: rest =>
      if c = mark then some ([], rest)
      else (cut? mark rest).map fun halves => (c :: halves.1, halves.2)

@[simp] theorem prependFirst_ne_nil (a : α) (lists : List (List α)) :
    prependFirst a lists ≠ [] := by
  cases lists <;> simp [prependFirst]

@[simp] theorem pieces_nil (separates : α → Bool) :
    pieces separates [] = [[]] := rfl

theorem pieces_cons_of_separates {separates : α → Bool} {a : α} (rest : List α)
    (h : separates a = true) :
    pieces separates (a :: rest) = [] :: pieces separates rest := by
  simp [pieces, h]

theorem pieces_cons_of_not_separates {separates : α → Bool} {a : α}
    (rest : List α) (h : separates a = false) :
    pieces separates (a :: rest) = prependFirst a (pieces separates rest) := by
  simp [pieces, h]

@[simp] theorem pieces_ne_nil (separates : α → Bool) (list : List α) :
    pieces separates list ≠ [] := by
  cases list with
  | nil => simp
  | cons a rest => by_cases h : separates a <;> simp [pieces, h]

@[simp] theorem join_singleton (separator : Char) (piece : Text) :
    join separator [piece] = piece := rfl

theorem join_cons_of_ne_nil (separator : Char) (piece : Text)
    {others : List Text} (h : others ≠ []) :
    join separator (piece :: others) =
      piece ++ separator :: join separator others := by
  cases others with
  | nil => exact absurd rfl h
  | cons next others => rfl

theorem join_prependFirst (separator c : Char) {texts : List Text}
    (h : texts ≠ []) :
    join separator (prependFirst c texts) = c :: join separator texts := by
  match texts, h with
  | [_], _ => rfl
  | _ :: _ :: _, _ => rfl

theorem join_pieces (separator : Char) (text : Text) :
    join separator (pieces (· == separator) text) = text := by
  induction text with
  | nil => rfl
  | cons c rest ih =>
      by_cases h : c = separator
      · rw [pieces_cons_of_separates rest (by simpa using h),
          join_cons_of_ne_nil _ _ (pieces_ne_nil _ _), ih, h]
        rfl
      · rw [pieces_cons_of_not_separates rest (by simpa using h),
          join_prependFirst _ _ (pieces_ne_nil _ _), ih]

theorem beq_eq_false_of_notMem {separator : Char} {text : Text}
    (h : separator ∉ text) :
    ∀ c ∈ text, (c == separator) = false := by
  intro c hc
  have : c ≠ separator := fun heq => h (heq ▸ hc)
  simpa using this

theorem pieces_eq_singleton {separates : Char → Bool} {piece : Text}
    (h : ∀ c ∈ piece, separates c = false) :
    pieces separates piece = [piece] := by
  induction piece with
  | nil => rfl
  | cons c rest ih =>
      rw [pieces_cons_of_not_separates rest (h c (by simp)),
        ih fun d hd => h d (by simp [hd])]
      rfl

theorem pieces_append_cons {separates : Char → Bool} {piece : Text}
    {separator : Char} (rest : Text) (hpiece : ∀ c ∈ piece, separates c = false)
    (hseparator : separates separator = true) :
    pieces separates (piece ++ separator :: rest) =
      piece :: pieces separates rest := by
  induction piece with
  | nil => exact pieces_cons_of_separates rest hseparator
  | cons c piece ih =>
      rw [List.cons_append, pieces_cons_of_not_separates _ (hpiece c (by simp)),
        ih fun d hd => hpiece d (by simp [hd])]
      rfl

/-- Cutting into pieces undoes joining, for pieces that hold no separator. -/
theorem pieces_join {separates : Char → Bool} {separator : Char}
    {texts : List Text} (hseparator : separates separator = true)
    (hne : texts ≠ [])
    (htexts : ∀ text ∈ texts, ∀ c ∈ text, separates c = false) :
    pieces separates (join separator texts) = texts := by
  induction texts with
  | nil => exact absurd rfl hne
  | cons text others ih =>
      cases others with
      | nil => exact pieces_eq_singleton (htexts text (by simp))
      | cons next others =>
          rw [join_cons_of_ne_nil _ _ (by simp),
            pieces_append_cons _ (htexts text (by simp)) hseparator,
            ih (by simp) fun other hother => htexts other (by simp [hother])]

theorem cut?_eq_some_iff {mark : Char} {text before after : Text} :
    cut? mark text = some (before, after) ↔
    mark ∉ before ∧ text = before ++ mark :: after := by
  induction text generalizing before with
  | nil => simp [cut?]
  | cons c rest ih =>
      by_cases h : c = mark
      · subst h
        cases before with
        | nil => simp [cut?, eq_comm]
        | cons d before =>
            simp only [cut?, if_true, Option.some.injEq, Prod.mk.injEq,
              List.mem_cons, List.cons_append, List.cons.injEq]
            constructor
            · intro heq
              exact absurd heq.1 (by simp)
            · rintro ⟨hnot, rfl, -⟩
              exact absurd (Or.inl rfl) hnot
      · cases before with
        | nil => simp [cut?, h]
        | cons d before =>
            simp only [cut?, h, if_false, Option.map_eq_some_iff, Prod.exists,
              Prod.mk.injEq, List.cons.injEq, List.mem_cons, List.cons_append,
              not_or]
            constructor
            · rintro ⟨left, right, hcut, ⟨rfl, rfl⟩, rfl⟩
              have := ih.mp hcut
              exact ⟨⟨fun heq => h heq.symm, this.1⟩, rfl, this.2⟩
            · rintro ⟨⟨-, hnot⟩, rfl, hrest⟩
              exact ⟨before, after, ih.mpr ⟨hnot, hrest⟩, ⟨rfl, rfl⟩, rfl⟩

theorem cut?_eq_none_iff {mark : Char} {text : Text} :
    cut? mark text = none ↔ mark ∉ text := by
  induction text with
  | nil => simp [cut?]
  | cons c rest ih =>
      by_cases h : c = mark
      · simp [cut?, h]
      · have hmark : ¬ mark = c := fun heq => h heq.symm
        simp [cut?, h, hmark, ih]

end Text

end InputResolution
