import InputResolution.Lexical.Path
import InputResolution.Native.Path
import InputResolution.Proofs.Text.Pieces

namespace InputResolution.Native

/-! Idle pieces of a path lead nowhere; what it denotes is told by its moves,
the pieces that are left without them, and by whether it is written as a
directory. -/

def moves (pieces : List Text) : List Text :=
  pieces.filter (! isIdle ·)

structure IsName (name : Text) : Prop where
  moving : isIdle name = false
  ne_dotDot : name ≠ Lexical.dotDot
  unseparated : '/' ∉ name

def endsIdle (pieces : List Text) : Bool :=
  pieces.getLast?.any isIdle

@[simp] theorem moves_nil : moves [] = [] := rfl

@[simp] theorem moves_append (first second : List Text) :
    moves (first ++ second) = moves first ++ moves second := by
  simp [moves]

theorem moves_cons_of_isIdle {piece : Text} (pieces : List Text)
    (h : isIdle piece = true) :
    moves (piece :: pieces) = moves pieces := by
  simp [moves, h]

theorem moves_cons_of_moving {piece : Text} (pieces : List Text)
    (h : isIdle piece = false) :
    moves (piece :: pieces) = piece :: moves pieces := by
  simp [moves, h]

@[simp] theorem moves_cons_nil (pieces : List Text) :
    moves ([] :: pieces) = moves pieces :=
  moves_cons_of_isIdle pieces rfl

theorem moves_names {names : List Text} (h : ∀ name ∈ names, IsName name) :
    moves names = names := by
  apply List.filter_eq_self.mpr
  intro name hname
  simp [(h name hname).moving]

theorem isIdle_of_moves_eq_nil {pieces : List Text} (h : moves pieces = []) :
    ∀ piece ∈ pieces, isIdle piece = true := by
  simpa [moves] using h

theorem endsIdle_cons {piece : Text} {pieces : List Text} (hne : pieces ≠ []) :
    endsIdle (piece :: pieces) = endsIdle pieces := by
  cases pieces with
  | nil => exact absurd rfl hne
  | cons next others => simp [endsIdle]

theorem endsIdle_append {first second : List Text} (hne : second ≠ []) :
    endsIdle (first ++ second) = endsIdle second := by
  induction first with
  | nil => rfl
  | cons piece first ih =>
      rw [List.cons_append, endsIdle_cons (by simp [hne]), ih]

theorem endsIdle_of_forall {pieces : List Text} (hne : pieces ≠ [])
    (h : ∀ piece ∈ pieces, isIdle piece = true) : endsIdle pieces = true := by
  obtain ⟨before, last, rfl⟩ := List.eq_nil_or_concat pieces |>.resolve_left hne
  simpa [endsIdle] using h last (by simp)

theorem endsIdle_append_cons (front : List Text) (piece : Text)
    {pieces : List Text} (h : endsIdle pieces = true) :
    endsIdle (front ++ piece :: pieces) = true := by
  have hne : pieces ≠ [] := by
    rintro rfl
    cases h
  rw [endsIdle_append (by simp), endsIdle_cons hne, h]

theorem endsIdle_append_of_forall {first second : List Text}
    (hfirst : endsIdle first = true)
    (hsecond : ∀ piece ∈ second, isIdle piece = true) :
    endsIdle (first ++ second) = true := by
  by_cases hnil : second = []
  · rwa [hnil, List.append_nil]
  · rw [endsIdle_append hnil, endsIdle_of_forall hnil hsecond]

@[simp] theorem moves_moves (pieces : List Text) :
    moves (moves pieces) = moves pieces := by
  simp [moves]

theorem isIdle_of_mem_moves {piece : Text} {pieces : List Text}
    (h : piece ∈ moves pieces) :
    isIdle piece = false := by
  simpa using (List.mem_filter.mp h).2

theorem endsIdle_moves (pieces : List Text) :
    endsIdle (moves pieces) = false := by
  unfold endsIdle
  cases hlast : (moves pieces).getLast? with
  | none => rfl
  | some last => exact isIdle_of_mem_moves (List.mem_of_getLast? hlast)

theorem leavesOpen_eq_endsIdle_or (pieces : List Text) :
    Lexical.leavesOpen pieces =
      (endsIdle pieces || pieces.getLast? == some Lexical.dotDot) := by
  unfold Lexical.leavesOpen endsIdle
  cases pieces.getLast? with
  | none => rfl
  | some last =>
      rw [Bool.eq_iff_iff, decide_eq_true_iff]
      simp [isIdle, Lexical.dot, or_assoc]

theorem leavesOpen_of_endsIdle {pieces : List Text}
    (h : endsIdle pieces = true) :
    Lexical.leavesOpen pieces = true := by
  rw [leavesOpen_eq_endsIdle_or, h, Bool.true_or]

/-! The pieces of a text. -/

theorem slash_notMem_piece {path piece : Text} (h : piece ∈ slashPieces path) :
    '/' ∉ piece :=
  fun hslash => by simpa using (Text.mem_piece h hslash).2

theorem slash_notMem_move {path piece : Text}
    (h : piece ∈ moves (slashPieces path)) :
    '/' ∉ piece :=
  slash_notMem_piece (List.mem_filter.mp h).1

theorem slashPieces_append_slash (before after : Text) :
    slashPieces (before ++ '/' :: after) =
      slashPieces before ++ slashPieces after :=
  Text.pieces_append_separator before after rfl

theorem slashPieces_cons_slash (rest : Text) :
    slashPieces ('/' :: rest) = [] :: slashPieces rest :=
  Text.pieces_cons_of_separates rest rfl

theorem slashPieces_of_notMem {piece : Text} (h : '/' ∉ piece) :
    slashPieces piece = [piece] :=
  Text.pieces_eq_singleton (Text.beq_eq_false_of_notMem h)

theorem slashPieces_append_last (front : Text) {last : Text} (h : '/' ∉ last) :
    slashPieces (front ++ '/' :: last) = slashPieces front ++ [last] := by
  rw [slashPieces_append_slash, slashPieces_of_notMem h]

theorem exists_eq_append_last {target : Text} (h : '/' ∈ target) :
    ∃ front last, target = front ++ '/' :: last ∧ '/' ∉ last := by
  obtain ⟨after, before, hreverse, hslash⟩ :=
    List.eq_append_cons_of_mem (List.mem_reverse.mpr h)
  refine ⟨before.reverse, after.reverse, ?_, by simpa using hslash⟩
  rw [← List.reverse_reverse target, hreverse]
  simp

@[simp] theorem slashPieces_ne_nil (path : Text) : slashPieces path ≠ [] :=
  Text.pieces_ne_nil _ path

theorem slashPieces_join {pieces : List Text} (hne : pieces ≠ [])
    (h : ∀ piece ∈ pieces, '/' ∉ piece) :
    slashPieces (Text.join '/' pieces) = pieces :=
  Text.pieces_join rfl hne fun piece hpiece =>
    Text.beq_eq_false_of_notMem (h piece hpiece)

theorem mem_slashPieces_of_mem {path : Text} {c : Char} (hc : c ∈ path)
    (hne : c ≠ '/') :
    ∃ piece ∈ slashPieces path, c ∈ piece := by
  rw [← Text.join_pieces '/' path] at hc
  exact (Text.mem_join hc).resolve_left hne

theorem mem_iff_exists_move {path : Text} {c : Char} (hslash : c ≠ '/')
    (hdot : c ≠ '.') :
    c ∈ path ↔ ∃ piece ∈ moves (slashPieces path), c ∈ piece := by
  constructor
  · intro hc
    obtain ⟨piece, hpiece, hmem⟩ := mem_slashPieces_of_mem hc hslash
    have hmoving : isIdle piece = false := by
      rw [Bool.eq_false_iff]
      intro hidle
      have : piece = [] ∨ piece = ['.'] := by simpa [isIdle] using hidle
      rcases this with rfl | rfl
      · cases hmem
      · exact hdot (List.mem_singleton.mp hmem)
    exact ⟨piece, List.mem_filter.mpr ⟨hpiece, by simp [hmoving]⟩, hmem⟩
  · rintro ⟨piece, hpiece, hmem⟩
    exact (Text.mem_piece (List.mem_filter.mp hpiece).1 hmem).1

theorem exists_join_eq_append (base : Text) {child : Text}
    (hchild : isAbsolute child = false) :
    ∃ tail, join base child = base ++ tail := by
  rw [join, if_neg (by simp [hchild])]
  split
  · exact ⟨child, rfl⟩
  · exact ⟨'/' :: child, rfl⟩

theorem join_eq_nil_iff {base child : Text}
    (hchild : isAbsolute child = false) :
    join base child = [] ↔ base = [] ∧ child = [] := by
  rw [join, if_neg (by simp [hchild])]
  split <;> simp_all

theorem join_eq_append_slash {base child : Text} (hbase : base ≠ [])
    (hchild : isAbsolute child = false) :
    ∃ front, join base child = front ++ '/' :: child ∧
      (front = base ∨ base = front ++ ['/']) := by
  obtain ⟨front, last, rfl⟩ := (List.eq_nil_or_concat base).resolve_left hbase
  by_cases hlast : last = '/'
  · exact ⟨front, by simp [join, hchild, hlast], Or.inr (by simp [hlast])⟩
  · exact ⟨front ++ [last], by simp [join, hchild, hlast], Or.inl (by simp)⟩

theorem moves_join (base : Text) {child : Text}
    (hchild : isAbsolute child = false) :
    moves (slashPieces (join base child)) =
      moves (slashPieces base) ++ moves (slashPieces child) := by
  by_cases hbase : base = []
  · simp [hbase, join, hchild, slashPieces]
  · obtain ⟨front, hjoin, rfl | rfl⟩ := join_eq_append_slash hbase hchild
    · rw [hjoin, slashPieces_append_slash, moves_append]
    · rw [hjoin, slashPieces_append_slash, slashPieces_append_slash,
        moves_append, moves_append]
      simp [slashPieces]

theorem getLast?_slashPieces_join (base child : Text) :
    (slashPieces (join base child)).getLast? =
      (slashPieces child).getLast? := by
  cases hchild : isAbsolute child with
  | true => rw [join_of_isAbsolute base hchild]
  | false =>
      by_cases hbase : base = []
      · simp [hbase, join, hchild]
      · obtain ⟨front, hjoin, -⟩ := join_eq_append_slash hbase hchild
        rw [hjoin]
        exact Text.getLast?_pieces_append_separator front child rfl

/-! Double dots are never idle, so they can be told from moves and from
components. -/

theorem dotDot_mem_moves_iff {pieces : List Text} :
    Lexical.dotDot ∈ moves pieces ↔ Lexical.dotDot ∈ pieces := by
  simp [moves, isIdle, Lexical.dotDot]

theorem parent_mem_components_iff {path : Text} :
    .parent ∈ components path ↔ Lexical.dotDot ∈ slashPieces path := by
  obtain ⟨first, others, hpieces⟩ :=
    List.exists_cons_of_ne_nil (slashPieces_ne_nil path)
  have hbody : .parent ∈ bodyComponents others ↔ Lexical.dotDot ∈ others := by
    rw [← dotDot_mem_moves_iff]
    constructor
    · intro h
      obtain ⟨piece, hpiece, hcomponent⟩ := List.mem_map.mp h
      unfold bodyComponent at hcomponent
      split at hcomponent
      · rename_i hdotDot
        subst hdotDot
        exact hpiece
      · cases hcomponent
    · exact fun h => List.mem_map.mpr ⟨Lexical.dotDot, h, rfl⟩
  have hleading : .parent ∈ leadingComponents first others ↔
      Lexical.dotDot = first := by
    unfold leadingComponents bodyComponent
    split
    · rename_i hnil
      subst hnil
      split <;> simp [Lexical.dotDot]
    · split
      · rename_i hdot
        subst hdot
        simp [Lexical.dotDot]
      · split
        · rename_i hdotDot
          subst hdotDot
          simp [Lexical.dotDot]
        · rename_i hname
          have hne : ¬ Lexical.dotDot = first := fun heq => hname heq.symm
          simp [hne]
  rw [components, hpieces]
  simp only [List.mem_append, List.mem_cons, hleading, hbody]

end InputResolution.Native
