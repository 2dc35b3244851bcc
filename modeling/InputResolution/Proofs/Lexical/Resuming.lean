import InputResolution.Proofs.Lexical.Printing
import Mathlib.Data.List.TakeWhile

namespace InputResolution.Lexical

/-! Reading a text in two runs.  Main statement: a text may be cut at a slash,
its first part read alone, and the second part read from the path that the first
one gave. -/

section Splitting

variable {style : Style} {first : Text}

theorem splitDrive?_append_slash (style : Style) (first second : Text) :
    splitDrive? style (first ++ '/' :: second) =
      (splitDrive? style first).map fun split =>
        (split.1, split.2 ++ '/' :: second) := by
  cases style with
  | posix => rfl
  | windows =>
      rcases first with _ | ⟨letter, _ | ⟨next, rest⟩⟩
      · exact splitDrive?_of_separates Style.windows.separates_slash second
      · rfl
      · by_cases hnext : next = ':'
        · subst hnext
          by_cases halpha : letter.isAlpha = true <;> simp [splitDrive?, halpha]
        · simp [splitDrive?, hnext]

theorem splitRoot_append_slash (h : ∃ c ∈ first, style.separates c = false)
    (second : Text) :
    splitRoot style (first ++ '/' :: second) =
      ((splitRoot style first).1,
        (splitRoot style first).2 ++ '/' :: second) := by
  have hall : ¬ ∀ c ∈ first, style.separates c = true := by simpa using h
  have htake : (first ++ '/' :: second).takeWhile style.separates =
      first.takeWhile style.separates := by
    rw [List.takeWhile_append, if_neg]
    intro hlength
    exact hall (List.takeWhile_eq_self_iff.mp
      ((List.takeWhile_prefix style.separates).eq_of_length hlength))
  have hdrop : (first ++ '/' :: second).dropWhile style.separates =
      first.dropWhile style.separates ++ '/' :: second := by
    rw [List.dropWhile_append, if_neg]
    rwa [List.isEmpty_iff, List.dropWhile_eq_nil_iff]
  rw [splitRoot, splitRoot, splitDrive?_append_slash, htake, hdrop]
  cases splitDrive? style first with
  | some split => rfl
  | none =>
      rcases (first.takeWhile style.separates).length with _ | _ | _ | more <;>
      rfl

end Splitting

namespace Path

/-- The second run starts from the segments that the first one left, and alone
decides whether the end is open. -/
theorem append_append_slash (style : Style) (path : Path)
    (first second : Text) :
    path.append style (first ++ '/' :: second) =
      (path.append style first).append style second := by
  have hpieces : Text.pieces style.separates (first ++ '/' :: second) =
      Text.pieces style.separates first ++ Text.pieces style.separates second :=
    Text.pieces_append_separator first second style.separates_slash
  simp only [append, hpieces, List.foldl_append,
    leavesOpen_append (Text.pieces_ne_nil style.separates second)]
  rfl

/-- A text of more than separators, continued behind a slash by a text without a
root, is read as the second text from where the first leads. -/
theorem parse_append_slash {style : Style} {first second : Text}
    (hfirst : ∃ c ∈ first, style.separates c = false) (hne : second ≠ [])
    (hroot : (splitRoot style second).1 = .relative) :
    parse style (first ++ '/' :: second) =
      resolve style (parse style first) second := by
  have hrootless : (splitRoot style second).1.isRooted = false :=
    Root.isRooted_eq_false_iff.mpr hroot
  rw [resolve_of_rootless hrootless hne,
    parse_of_splitRoot (splitRoot_append_slash hfirst second),
    append_append_slash]
  rfl

theorem parse_append_slash_climbing :
    (∃ c ∈ ['C', ':', 'x'], Style.windows.separates c = false) ∧
      (splitRoot .windows ['.', '.', '\\', '.', '.', '\\', 'y', '\\']).1 =
        .relative ∧
      parse .windows
          ['C', ':', 'x', '/', '.', '.', '\\', '.', '.', '\\', 'y', '\\'] =
        resolve .windows (parse .windows ['C', ':', 'x'])
          ['.', '.', '\\', '.', '.', '\\', 'y', '\\'] ∧
      (∃ c ∈ ['a', '/', '.', '.'], Style.posix.separates c = false) ∧
      (splitRoot .posix ['.', '.', '/', 'b']).1 = .relative ∧
      parse .posix ['a', '/', '.', '.', '/', '.', '.', '/', 'b'] =
        resolve .posix (parse .posix ['a', '/', '.', '.'])
            ['.', '.', '/', 'b'] := by
  have hdrive : ∃ c ∈ ['C', ':', 'x'], Style.windows.separates c = false :=
    ⟨'C', by simp, rfl⟩
  have hrelative : ∃ c ∈ ['a', '/', '.', '.'],
      Style.posix.separates c = false :=
    ⟨'a', by simp, rfl⟩
  refine ⟨hdrive, by decide, ?_, hrelative, by decide, ?_⟩
  · exact parse_append_slash hdrive (by decide) (by decide)
  · exact parse_append_slash hrelative (by decide) (by decide)

end Path

end InputResolution.Lexical
