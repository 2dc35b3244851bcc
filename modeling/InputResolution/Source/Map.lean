import InputResolution.Text.Pieces

namespace InputResolution

/-! Sources by name, in the order in which their names first came. -/

structure SourceMap where
  entries : List (Text × Text)
  deriving DecidableEq, Repr

namespace SourceMap

def empty : SourceMap := ⟨[]⟩

def get? (sources : SourceMap) (name : Text) : Option Text :=
  sources.entries.lookup name

def contains (sources : SourceMap) (name : Text) : Bool :=
  (sources.get? name).isSome

def names (sources : SourceMap) : List Text :=
  sources.entries.map Prod.fst

def size (sources : SourceMap) : Nat :=
  sources.entries.length

def isEmpty (sources : SourceMap) : Bool :=
  sources.entries.isEmpty

def putEntry (name content : Text) : List (Text × Text) → List (Text × Text)
  | [] => [(name, content)]
  | entry :: others =>
      if entry.1 = name then (name, content) :: others
      else entry :: putEntry name content others

/-- A name that is present keeps its position and takes the new content. -/
def insert (sources : SourceMap) (name content : Text) : SourceMap :=
  ⟨putEntry name content sources.entries⟩

@[simp] theorem get?_empty (name : Text) : empty.get? name = none := rfl

@[simp] theorem names_empty : empty.names = [] := rfl

@[simp] theorem isEmpty_insert (sources : SourceMap) (name content : Text) :
    (sources.insert name content).isEmpty = false := by
  unfold insert isEmpty
  cases sources.entries with
  | nil => rfl
  | cons entry others =>
      unfold putEntry
      split <;> rfl

theorem lookup_putEntry (name content other : Text)
    (entries : List (Text × Text)) :
    (putEntry name content entries).lookup other =
      if other = name then some content else entries.lookup other := by
  induction entries with
  | nil =>
      by_cases h : other = name
      · simp [putEntry, h]
      · have hbeq : (other == name) = false := by simpa using h
        simp [putEntry, List.lookup_cons, h, hbeq]
  | cons entry others ih =>
      unfold putEntry
      by_cases hentry : entry.1 = name
      · rw [if_pos hentry, List.lookup_cons, List.lookup_cons, hentry]
        by_cases h : other = name
        · simp [h]
        · have hbeq : (other == name) = false := by simpa using h
          simp [h, hbeq]
      · rw [if_neg hentry, List.lookup_cons, List.lookup_cons, ih]
        by_cases h : other = name
        · have hbeq : (name == entry.1) = false := by
            simpa using fun heq => hentry heq.symm
          simp [h, hbeq]
        · simp [h]

theorem get?_insert (sources : SourceMap) (name content other : Text) :
    (sources.insert name content).get? other =
      if other = name then some content else sources.get? other :=
  lookup_putEntry name content other sources.entries

theorem names_putEntry (name content : Text) (entries : List (Text × Text)) :
    (putEntry name content entries).map Prod.fst =
      if name ∈ entries.map Prod.fst then entries.map Prod.fst
      else entries.map Prod.fst ++ [name] := by
  induction entries with
  | nil => simp [putEntry]
  | cons entry others ih =>
      unfold putEntry
      by_cases hentry : entry.1 = name
      · simp [hentry]
      · have hname : ¬ name = entry.1 := fun heq => hentry heq.symm
        rw [if_neg hentry, List.map_cons, ih]
        by_cases hmem : name ∈ others.map Prod.fst <;> simp [hmem, hname]

theorem names_insert (sources : SourceMap) (name content : Text) :
    (sources.insert name content).names =
      if name ∈ sources.names then sources.names else sources.names ++ [name] :=
  names_putEntry name content sources.entries

end SourceMap

end InputResolution
