import InputResolution.Proofs.Lexical.Moves
import Mathlib.Data.List.Basic
import Mathlib.Data.List.TakeWhile
import Mathlib.Logic.Relation

namespace InputResolution.Native

/-! Spellings of one path.  A dot before a component and a second separator
behind another change neither the moves of a path nor its root nor whether it is
written as a directory, and nothing else of a spelling is ever looked at. -/

/-- One way to spell a path anew: a dot before a component, or a separator that
is not one of the leading ones written twice. -/
inductive Respells : Text → Text → Prop
  | dotted (hbefore : before = [] ∨ before.getLast? = some '/')
      (hcomponent : c ≠ '/') :
      Respells (before ++ c :: after) (before ++ '.' :: '/' :: c :: after)
  | doubled (hinterior : ∃ c ∈ before, c ≠ '/') :
      Respells (before ++ '/' :: after) (before ++ '/' :: '/' :: after)

structure LeadsAlike (first second : Text) : Prop where
  moves : moves (slashPieces first) = moves (slashPieces second)
  last : (slashPieces first).getLast? = (slashPieces second).getLast?
  eq_nil_iff : first = [] ↔ second = []

/-- Paths that are followed alike and hang from the same root. -/
structure SamePath (first second : Text) :
    Prop extends LeadsAlike first second where
  leading : first.takeWhile (· == '/') = second.takeWhile (· == '/')

theorem LeadsAlike.symm {first second : Text} (h : LeadsAlike first second) :
    LeadsAlike second first :=
  ⟨h.moves.symm, h.last.symm, h.eq_nil_iff.symm⟩

theorem SamePath.refl (path : Text) : SamePath path path :=
  ⟨⟨rfl, rfl, Iff.rfl⟩, rfl⟩

theorem SamePath.trans {first second third : Text}
    (hfirst : SamePath first second) (hsecond : SamePath second third) :
    SamePath first third :=
  ⟨⟨hfirst.moves.trans hsecond.moves, hfirst.last.trans hsecond.last,
    hfirst.eq_nil_iff.trans hsecond.eq_nil_iff⟩,
    hfirst.leading.trans hsecond.leading⟩

theorem takeWhile_slash_append_cons (before after : Text) {c : Char}
    (hc : c ≠ '/') :
    (before ++ c :: after).takeWhile (· == '/') =
      before.takeWhile (· == '/') := by
  rw [List.takeWhile_append]
  split
  · rename_i hlength
    rw [List.takeWhile_cons_of_neg (by simpa using hc), List.append_nil,
      (List.takeWhile_prefix _).eq_of_length hlength]
  · rfl

theorem takeWhile_slash_append {before : Text} (h : ∃ c ∈ before, c ≠ '/')
    (after : Text) :
    (before ++ after).takeWhile (· == '/') = before.takeWhile (· == '/') := by
  obtain ⟨c, hc, hne⟩ := h
  rw [List.takeWhile_append, if_neg]
  intro hlength
  have hall : before.takeWhile (· == '/') = before :=
    (List.takeWhile_prefix _).eq_of_length hlength
  rw [← hall] at hc
  exact hne (by simpa using List.mem_takeWhile_imp hc)

theorem exists_slashPieces_append {before : Text}
    (h : before = [] ∨ before.getLast? = some '/') :
    ∃ pieces, ∀ after,
      slashPieces (before ++ after) = pieces ++ slashPieces after := by
  rcases h with rfl | hlast
  · exact ⟨[], fun _ => rfl⟩
  · obtain ⟨front, rfl⟩ := List.getLast?_eq_some_iff.mp hlast
    exact ⟨slashPieces front, fun after => by simp [slashPieces_append_slash]⟩

theorem getLast?_append_slashPieces (pieces : List Text) (path : Text) :
    (pieces ++ slashPieces path).getLast? = (slashPieces path).getLast? :=
  List.getLast?_append_of_ne_nil _ (slashPieces_ne_nil path)

theorem Respells.samePath {first second : Text} (h : Respells first second) :
    SamePath first second := by
  cases h with
  | @dotted before c after hbefore hcomponent =>
      obtain ⟨pieces, hpieces⟩ := exists_slashPieces_append hbefore
      have hdotted : slashPieces (before ++ '.' :: '/' :: c :: after) =
          pieces ++ [['.']] ++ slashPieces (c :: after) := by
        rw [hpieces, ← List.singleton_append, slashPieces_append_slash,
          List.append_assoc]
        rfl
      refine ⟨⟨?_, ?_, by simp⟩, ?_⟩
      · rw [hdotted, hpieces]
        have hdot : moves [['.']] = [] := rfl
        rw [moves_append, moves_append, moves_append, hdot, List.append_nil]
      · rw [hdotted, hpieces, getLast?_append_slashPieces,
          getLast?_append_slashPieces]
      · rw [takeWhile_slash_append_cons _ _ hcomponent,
          takeWhile_slash_append_cons _ _ (by decide)]
  | @doubled before after hinterior =>
      refine ⟨⟨?_, ?_, by simp⟩, ?_⟩
      · rw [slashPieces_append_slash, slashPieces_append_slash,
          slashPieces_cons_slash, moves_append, moves_append, moves_cons_nil]
      · rw [slashPieces_append_slash, slashPieces_append_slash,
          slashPieces_cons_slash, ← List.singleton_append, ← List.append_assoc,
          getLast?_append_slashPieces, getLast?_append_slashPieces]
      · rw [takeWhile_slash_append hinterior, takeWhile_slash_append hinterior]

theorem samePath_of_reflTransGen {first second : Text}
    (h : Relation.ReflTransGen Respells first second) :
    SamePath first second := by
  induction h with
  | refl => exact .refl first
  | tail _ hstep ih => exact ih.trans hstep.samePath

theorem Respells.slash_mem {first second : Text} (h : Respells first second) :
    '/' ∈ second := by
  cases h <;> simp

theorem LeadsAlike.mem_iff {first second : Text} (h : LeadsAlike first second)
    {c : Char} (hslash : c ≠ '/') (hdot : c ≠ '.') :
    c ∈ first ↔ c ∈ second := by
  rw [mem_iff_exists_move hslash hdot, mem_iff_exists_move hslash hdot, h.moves]

theorem SamePath.root_eq {first second : Text} (h : SamePath first second) :
    (Lexical.splitRoot .posix first).1 =
      (Lexical.splitRoot .posix second).1 := by
  rw [Lexical.splitRoot_posix, Lexical.splitRoot_posix, h.leading]

theorem SamePath.leadsAlike_join {first second : Text}
    (h : SamePath first second) (base : Text) :
    LeadsAlike (join base first) (join base second) := by
  have habsolute : isAbsolute first = isAbsolute second := by
    rw [← Lexical.isRooted_splitRoot_posix, h.root_eq,
      Lexical.isRooted_splitRoot_posix]
  cases hsecond : isAbsolute second with
  | true =>
      rw [join_of_isAbsolute base (habsolute.trans hsecond),
        join_of_isAbsolute base hsecond]
      exact h.toLeadsAlike
  | false =>
      have hfirst := habsolute.trans hsecond
      refine ⟨?_, ?_, ?_⟩
      · rw [moves_join base hfirst, moves_join base hsecond, h.moves]
      · rw [getLast?_slashPieces_join, getLast?_slashPieces_join, h.last]
      · rw [join_eq_nil_iff hfirst, join_eq_nil_iff hsecond, h.eq_nil_iff]

end InputResolution.Native

namespace InputResolution.Lexical.Path

open Native (moves slashPieces SamePath)

theorem append_posix_congr (path : Path) {first second : Text}
    (hmoves : moves (slashPieces first) = moves (slashPieces second))
    (hlast : (slashPieces first).getLast? = (slashPieces second).getLast?) :
    path.append .posix first = path.append .posix second := by
  have hsegments :
      (slashPieces first).foldl (enter path.isRooted) path.segments =
        (slashPieces second).foldl (enter path.isRooted) path.segments := by
    rw [foldl_enter_moves, hmoves, ← foldl_enter_moves]
  have hopen :
      leavesOpen (slashPieces first) = leavesOpen (slashPieces second) :=
    leavesOpen_congr hlast
  have happend (raw : Text) : path.append .posix raw =
      let segments :=
        (slashPieces raw).foldl (enter path.isRooted) path.segments
      ⟨path.root, segments,
        !segments.isEmpty && leavesOpen (slashPieces raw)⟩ := rfl
  rw [happend, happend, hsegments, hopen]

theorem parse_posix_congr {first second : Text} (h : SamePath first second) :
    parse .posix first = parse .posix second := by
  rw [parse, parse, h.root_eq, splitRoot_posix_snd, splitRoot_posix_snd]
  apply append_posix_congr
  · rw [moves_dropWhile_slash, moves_dropWhile_slash, h.moves]
  · rw [getLast?_slashPieces_dropWhile_slash,
      getLast?_slashPieces_dropWhile_slash, h.last]

theorem resolve_posix_congr (workDir : Path) {first second : Text}
    (h : SamePath first second) :
    resolve .posix workDir first = resolve .posix workDir second := by
  have hempty : first.isEmpty = second.isEmpty := by
    rw [Bool.eq_iff_iff, List.isEmpty_iff, List.isEmpty_iff, h.eq_nil_iff]
  rw [resolve, resolve, h.root_eq, parse_posix_congr h, hempty,
    append_posix_congr workDir h.moves h.last]

end InputResolution.Lexical.Path
