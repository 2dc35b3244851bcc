import InputResolution.Proofs.Lexical.Containment
import Mathlib.Data.List.Basic

namespace InputResolution.Lexical.Path

open Native (moves slashPieces isAbsolute)

/-! The text that the host makes of a directory and what is put behind it.  Main
statement: it is read as the directory continued by the second text, so that
reading can stop in between. -/

section Root

variable {path : Path} {raw : Text}

theorem WellFormed.splitRoot_append (h : path.WellFormed .posix) {rest : Text}
    (hrest : ∀ c ∈ rest.head?, Style.posix.separates c = false) :
    splitRoot .posix (path.root.text ++ rest) = (path.root, rest) := by
  rcases h.root_posix with hroot | hroot | hroot <;> rw [hroot]
  · exact splitRoot_relative hrest (splitDrive?_posix rest)
  · exact splitRoot_slash hrest
  · exact splitRoot_doubleSlash hrest

theorem WellFormed.exists_join_eq (h : path.WellFormed .posix)
    (hraw : isAbsolute raw = false) :
    ∃ rest, Native.join path.text raw = path.root.text ++ rest ∧
      ∀ c ∈ rest.head?, Style.posix.separates c = false := by
  have hhead : ∀ c ∈ raw.head?, Style.posix.separates c = false := by
    intro c hc
    have hne : c ≠ '/' := by
      rintro rfl
      simp [isAbsolute, Option.mem_def.mp hc] at hraw
    simpa [Style.separates] using hne
  by_cases hnil : path.segments = []
  · rcases h.root_posix with hroot | hroot
    · refine ⟨'.' :: '/' :: raw, ?_, by simp [Style.separates]⟩
      simp [text, hroot, hnil, Native.join, hraw, dot, Root.text]
    · refine ⟨raw, ?_, hhead⟩
      rcases hroot with hroot | hroot <;>
        simp [text, hroot, h.relativeText_eq_nil hnil, Native.join, hraw,
          Root.text]
  · obtain ⟨tail, htail⟩ := Native.exists_join_eq_append path.text hraw
    have hrelative : path.relativeText ≠ [] := by
      rwa [ne_eq, h.relativeText_eq_nil_iff]
    refine ⟨path.relativeText ++ tail, ?_, ?_⟩
    · rw [htail, text, if_neg fun hdot => hnil hdot.2, List.append_assoc]
    · rw [List.head?_append_of_ne_nil _ hrelative]
      exact h.head?_relativeText

theorem WellFormed.root_parse_join (h : path.WellFormed .posix)
    (hraw : isAbsolute raw = false) :
    (parse .posix (Native.join path.text raw)).root = path.root := by
  obtain ⟨rest, hjoin, hrest⟩ := h.exists_join_eq hraw
  rw [root_parse, hjoin, h.splitRoot_append hrest]

end Root

theorem WellFormed.parse_join {directory : Path}
    (h : directory.WellFormed .posix) {raw : Text}
    (hraw : isAbsolute raw = false) :
    parse .posix (Native.join directory.text raw) =
      directory.append .posix raw := by
  have hroot := h.root_parse_join hraw
  have habsolute :
      isAbsolute (Native.join directory.text raw) = directory.isRooted := by
    rw [← isRooted_splitRoot_posix, ← root_parse, hroot, isRooted]
  have hsegments : (parse .posix (Native.join directory.text raw)).segments =
      (directory.append .posix raw).segments := by
    rw [segments_parse_posix, habsolute, Native.moves_join _ hraw, h.moves_text,
      List.foldl_append, h.settled.foldl_enter, segments_append_posix,
      ← foldl_enter_moves]
  refine Coincides.eq ⟨hroot, hsegments⟩ ?_
  rw [trailing_parse_posix, hsegments,
    leavesOpen_congr (Native.getLast?_slashPieces_join directory.text raw)]
  rfl

/-- From wherever it is read, such a text leads where the second one leads from
the directory. -/
theorem WellFormed.resolve_join {directory : Path}
    (h : directory.WellFormed .posix) (hrooted : directory.isRooted = true)
    {raw : Text} (hraw : isAbsolute raw = false) (hne : raw ≠ [])
    (workDir : Path) :
    Path.resolve .posix workDir (Native.join directory.text raw) =
      Path.resolve .posix directory raw := by
  have habsolute : isAbsolute (Native.join directory.text raw) = true := by
    rw [← isRooted_splitRoot_posix, ← root_parse, h.root_parse_join hraw]
    exact hrooted
  rw [resolve_of_isAbsolute habsolute, h.parse_join hraw,
    resolve_of_relative hraw hne]

end InputResolution.Lexical.Path
