import InputResolution.Native.Path

namespace InputResolution.Native

/-! Sets of directories.  Two spellings with the same components are one member,
and the set keeps the spelling that came first.  Members are listed by their
components: a root before a leading dot, that before a double dot, that before
every name; names by their characters, and a shorter path before the ones it
begins. -/

def Component.rank : Component → Nat
  | .root => 0
  | .current => 1
  | .parent => 2
  | .name _ => 3

/-- The rank of the component and then the characters of its name. -/
def Component.sortKey (component : Component) : List Nat :=
  component.rank :: match component with
    | .name text => text.map Char.toNat
    | _ => []

def sortKey (path : Text) : List (List Nat) :=
  (components path).map Component.sortKey

def insertSorted (directory : Text) : List Text → List Text
  | [] => [directory]
  | first :: others =>
      if components directory = components first then first :: others
      else if sortKey directory < sortKey first then
        directory :: first :: others
      else first :: insertSorted directory others

structure DirectorySet where
  toList : List Text
  deriving DecidableEq, Repr

namespace DirectorySet

def empty : DirectorySet := ⟨[]⟩

def contains (set : DirectorySet) (directory : Text) : Bool :=
  set.toList.any fun member => components member == components directory

def insert (set : DirectorySet) (directory : Text) : DirectorySet :=
  ⟨insertSorted directory set.toList⟩

def size (set : DirectorySet) : Nat :=
  set.toList.length

@[simp] theorem toList_empty : empty.toList = [] := rfl

@[simp] theorem contains_empty (directory : Text) :
    empty.contains directory = false := rfl

end DirectorySet

theorem mem_insertSorted {directory member : Text} {members : List Text}
    (h : member ∈ insertSorted directory members) :
    member = directory ∨ member ∈ members := by
  induction members with
  | nil => simpa [insertSorted] using h
  | cons first others ih =>
      unfold insertSorted at h
      split at h
      · exact Or.inr h
      · split at h
        · simpa using h
        · rcases List.mem_cons.mp h with rfl | hothers
          · simp
          · rcases ih hothers with heq | hmem
            · exact Or.inl heq
            · exact Or.inr (List.mem_cons_of_mem _ hmem)

theorem contains_insert (set : DirectorySet) (directory other : Text) :
    (set.insert directory).contains other =
      (components directory == components other || set.contains other) := by
  simp only [DirectorySet.insert, DirectorySet.contains]
  induction set.toList with
  | nil => simp [insertSorted]
  | cons first others ih =>
      unfold insertSorted
      split
      · rename_i heq
        simp [heq]
      · split
        · simp
        · simp only [List.any_cons, ih]
          cases components first == components other <;> simp

end InputResolution.Native
