import InputResolution.Proofs.Lexical.Moves
import InputResolution.Request.Remapping

namespace InputResolution

open Lexical (dot dotDot)
open Native (moves slashPieces isAbsolute)

/-! The directory of a target.  It is cut off the raw text at the last slash,
while dots and double dots in that text are understood only when it is read.
Main statement: read lexically, the target is that directory or lies right below
it. -/

/-- A directory that is the path itself or the one right above it.  How their
roots are written does not matter. -/
structure Lexical.Path.HoldsDirectly (directory path : Lexical.Path) :
    Prop where
  isRooted_eq : directory.isRooted = path.isRooted
  segments_eq : path.segments = directory.segments ∨
    ∃ last, last ≠ dotDot ∧ path.segments = directory.segments ++ [last]

theorem Lexical.Path.holdsDirectly_parse {directory path last : Text}
    (habsolute : isAbsolute directory = isAbsolute path)
    (hdotDot : last ≠ dotDot)
    (hmoves : moves (slashPieces path) =
      moves (slashPieces directory) ++ moves [last]) :
    (parse .posix directory).HoldsDirectly (parse .posix path) where
  isRooted_eq := by
    simp only [isRooted, root_parse, isRooted_splitRoot_posix, habsolute]
  segments_eq := by
    rw [segments_parse_posix path, hmoves, List.foldl_append, ← habsolute,
      ← segments_parse_posix]
    cases hidle : Native.isIdle last with
    | true =>
        left
        rw [Native.moves_cons_of_isIdle _ hidle]
        rfl
    | false =>
        right
        refine ⟨last, hdotDot, ?_⟩
        rw [Native.moves_cons_of_moving _ hidle]
        exact enter_of_moving _ _ hidle hdotDot

/-- How a directory is cut off a target: a double dot at the end is left alone,
any other last piece is taken away. -/
inductive CutsOff (target : Text) : Text → Prop
  | whole (hlast : (slashPieces target).getLast? = some dotDot) : CutsOff target
      target
  | bare (hslash : '/' ∉ target) (hdotDot : target ≠ dotDot) : CutsOff target
      dot
  | top (htarget : target = '/' :: last) (hslash : '/' ∉ last)
      (hdotDot : last ≠ dotDot) :
      CutsOff target ['/']
  | front (htarget : target = directory ++ '/' :: last) (hne : directory ≠ [])
      (hslash : '/' ∉ last) (hdotDot : last ≠ dotDot) : CutsOff target directory

theorem exists_cutsOff (target : Text) :
    ∃ directory, CutsOff target directory := by
  by_cases hslash : '/' ∈ target
  · obtain ⟨front, last, htarget, hlast⟩ := Native.exists_eq_append_last hslash
    by_cases hdotDot : last = dotDot
    · refine ⟨target, .whole ?_⟩
      rw [htarget, Native.slashPieces_append_last front hlast,
        List.getLast?_concat, hdotDot]
    · by_cases hfront : front = []
      · exact ⟨['/'], .top (by rw [htarget, hfront]; rfl) hlast hdotDot⟩
      · exact ⟨front, .front htarget hfront hlast hdotDot⟩
  · by_cases hdotDot : target = dotDot
    · exact ⟨target, .whole (by rw [hdotDot]; rfl)⟩
    · exact ⟨dot, .bare hslash hdotDot⟩

namespace CutsOff

variable {target directory : Text}

theorem ne_nil (h : CutsOff target directory) (hne : target ≠ []) :
    directory ≠ [] := by
  cases h with
  | whole => exact hne
  | bare | top => simp [dot]
  | front _ hfront => exact hfront

theorem isAbsolute_eq (h : CutsOff target directory) :
    isAbsolute directory = isAbsolute target := by
  cases h with
  | whole => rfl
  | bare hslash =>
      cases target with
      | nil => rfl
      | cons c rest =>
          have hc : c ≠ '/' := fun heq => hslash (by simp [heq])
          simp [isAbsolute, dot, hc]
  | top htarget =>
      rw [htarget]
      rfl
  | front htarget hfront =>
      obtain ⟨c, rest, rfl⟩ := List.exists_cons_of_ne_nil hfront
      rw [htarget]
      rfl

theorem exists_moves_eq (h : CutsOff target directory) :
    ∃ last, last ≠ dotDot ∧
      moves (slashPieces target) =
        moves (slashPieces directory) ++ moves [last] := by
  cases h with
  | whole => exact ⟨[], by simp [dotDot], by simp⟩
  | bare hslash hdotDot =>
      refine ⟨target, hdotDot, ?_⟩
      rw [Native.slashPieces_of_notMem hslash]
      rfl
  | top htarget hslash hdotDot =>
      refine ⟨_, hdotDot, ?_⟩
      rw [htarget, Native.slashPieces_cons_slash,
        Native.slashPieces_of_notMem hslash]
      rfl
  | front htarget hfront hslash hdotDot =>
      refine ⟨_, hdotDot, ?_⟩
      rw [htarget, Native.slashPieces_append_last directory hslash,
        Native.moves_append]

theorem holdsDirectly (h : CutsOff target directory) :
    (Lexical.Path.parse .posix directory).HoldsDirectly
        (.parse .posix target) := by
  obtain ⟨last, hdotDot, hmoves⟩ := h.exists_moves_eq
  exact Lexical.Path.holdsDirectly_parse h.isAbsolute_eq hdotDot hmoves

end CutsOff

namespace Remapping

variable {remapping : Remapping} {directory : Text}

theorem directory?_of_slashPieces {before : List Text} {last : Text}
    (hne : remapping.target ≠ [])
    (hpieces : slashPieces remapping.target = before ++ [last])
    (hdotDot : last ≠ dotDot) :
    remapping.directory? =
      some (if before = [] then dot else if before = [[]] then ['/']
        else Text.join '/' before) := by
  have hcut : Text.pieces (· == '/') remapping.target = before ++ [last] :=
    hpieces
  have hlast : ¬ (before ++ [last]).getLast? = some ['.', '.'] := by
    rw [List.getLast?_concat]
    exact fun h => hdotDot (Option.some.inj h)
  unfold directory?
  rw [hcut, if_neg (by simpa using hne), if_neg hlast, List.dropLast_concat]
  split
  · rfl
  · rfl
  · rename_i hbare htop
    rw [if_neg hbare, if_neg htop]

theorem directory?_of_cutsOff (hne : remapping.target ≠ [])
    (h : CutsOff remapping.target directory) :
    remapping.directory? = some directory := by
  cases h with
  | whole hlast =>
      unfold directory?
      rw [if_neg (by simpa using hne)]
      exact if_pos hlast
  | bare hslash hdotDot =>
      have hpieces : slashPieces remapping.target = [] ++ [remapping.target] :=
        Native.slashPieces_of_notMem hslash
      rw [directory?_of_slashPieces hne hpieces hdotDot]
      rfl
  | @top last htarget hslash hdotDot =>
      have hpieces : slashPieces remapping.target = [[]] ++ [last] := by
        rw [htarget]
        exact Native.slashPieces_append_last [] hslash
      rw [directory?_of_slashPieces hne hpieces hdotDot]
      rfl
  | @front _ last htarget hfront hslash hdotDot =>
      have hpieces :
          slashPieces remapping.target = slashPieces directory ++ [last] := by
        rw [htarget]
        exact Native.slashPieces_append_last directory hslash
      have hjoin : Text.join '/' (slashPieces directory) = directory :=
        Text.join_pieces '/' directory
      have htop : slashPieces directory ≠ [[]] := by
        intro htop
        rw [htop] at hjoin
        exact hfront hjoin.symm
      rw [directory?_of_slashPieces hne hpieces hdotDot,
        if_neg (Native.slashPieces_ne_nil directory), if_neg htop, hjoin]

theorem directory?_eq_some_iff :
    remapping.directory? = some directory ↔
      remapping.target ≠ [] ∧ CutsOff remapping.target directory := by
  constructor
  · intro h
    have hne : remapping.target ≠ [] := by
      intro hnil
      simp [directory?, hnil] at h
    obtain ⟨other, hcuts⟩ := exists_cutsOff remapping.target
    rw [directory?_of_cutsOff hne hcuts] at h
    exact ⟨hne, Option.some.inj h ▸ hcuts⟩
  · rintro ⟨hne, hcuts⟩
    exact directory?_of_cutsOff hne hcuts

/-- A target that names something has a directory, and is it or lies right below
it. -/
theorem exists_directory?_holdsDirectly (h : remapping.target ≠ []) :
    ∃ directory, remapping.directory? = some directory ∧ directory ≠ [] ∧
      (Lexical.Path.parse .posix directory).HoldsDirectly
          (.parse .posix remapping.target) := by
  obtain ⟨directory, hcuts⟩ := exists_cutsOff remapping.target
  exact ⟨directory, directory?_eq_some_iff.mpr ⟨h, hcuts⟩, hcuts.ne_nil h,
    hcuts.holdsDirectly⟩

/-- The directory of a target below two slashes is the top, and idle pieces at
the end of a target are not what its directory holds. -/
theorem exists_directory?_holdsDirectly_idle :
    (⟨[], ['p'], ['/', '/', 'x']⟩ : Remapping).target ≠ [] ∧
      (Lexical.Path.parse .posix ['/']).HoldsDirectly
          (.parse .posix ['/', '/', 'x']) ∧
      (⟨['c'], ['p'], ['.', '.', '/', 'q', '/', '/', '.']⟩ : Remapping).target ≠
        [] ∧
      (Lexical.Path.parse .posix ['.', '.', '/', 'q', '/']).HoldsDirectly
        (.parse .posix ['.', '.', '/', 'q', '/', '/', '.']) := by
  have htop : (⟨[], ['p'], ['/', '/', 'x']⟩ : Remapping).target ≠ [] := by
    decide
  have hidle : (⟨['c'], ['p'], ['.', '.', '/', 'q', '/', '/', '.']⟩ :
      Remapping).target ≠ [] := by
    decide
  obtain ⟨directory, hdirectory, -, hbelow⟩ :=
    exists_directory?_holdsDirectly htop
  obtain rfl : ['/'] = directory := Option.some.inj hdirectory
  obtain ⟨directory, hdirectory, -, hitself⟩ :=
    exists_directory?_holdsDirectly hidle
  obtain rfl : ['.', '.', '/', 'q', '/'] = directory :=
    Option.some.inj hdirectory
  exact ⟨htop, hbelow, hidle, hitself⟩

end Remapping

end InputResolution
