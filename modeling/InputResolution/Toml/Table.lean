import InputResolution.Toml.Value

namespace InputResolution.Toml

/-! Adding to tables.  A key is given once.  A header opens a table once, though
it may be passed through before; a dotted key adds only to tables that dotted
keys made; a table in braces is added to by nothing. -/

def alter (key : Text) (change : Option Value → Option Value) :
    Entries → Option Entries
  | [] => (change none).map fun value => [(key, value)]
  | entry :: others =>
      if entry.1 = key then
        (change (some entry.2)).map fun value => (key, value) :: others
      else (alter key change others).map (entry :: ·)

abbrev TableChange := TableOrigin → Entries → Option Value

/-- Applies a change to the table under a key.  A list of tables stands for its
last one. -/
def inTable (byDottedKey : Bool) (change : TableChange) :
    Option Value → Option Value
  | none => change (if byDottedKey then .dotted else .passed) []
  | some (.table origin entries) =>
      if origin = .inline ∨ (byDottedKey ∧ origin = .header) then none
      else change origin entries
  | some (.tables items) =>
      match items.getLast? with
      | some (.table origin entries) =>
          (change origin entries).map fun value =>
            .tables (items.dropLast ++ [value])
      | _ => none
  | some _ => none

def alongPath (byDottedKey : Bool) (change : TableChange) :
    List Text → TableChange
  | [] => change
  | key :: path => fun origin entries =>
      (alter key (inTable byDottedKey (alongPath byDottedKey change path))
        entries).map
        (.table origin)

def addNew (value : Value) : Option Value → Option Value
  | none => some value
  | some _ => none

def putKey (path : List Text) (key : Text) (value : Value) : TableChange :=
  alongPath true (fun origin entries =>
    if path ≠ [] ∧ origin ≠ .dotted then none
    else (alter key (addNew value) entries).map (.table origin)) path

def openTable (path : List Text) (key : Text) : TableChange :=
  alongPath false (fun origin entries =>
    (alter key (fun
      | none => some (.table .header [])
      | some (.table .passed entries) => some (.table .header entries)
      | some _ => none) entries).map (.table origin)) path

def openListedTable (path : List Text) (key : Text) : TableChange :=
  alongPath false (fun origin entries =>
    (alter key (fun
      | none => some (.tables [.table .header []])
      | some (.tables items) => some (.tables (items ++ [.table .header []]))
      | some _ => none) entries).map (.table origin)) path

/-- A document under construction: its top table, and the path of the table that
keys go to. -/
structure Draft where
  top : Value
  current : List Text

namespace Draft

def empty : Draft := ⟨.table .header [], []⟩

def change (draft : Draft) (tableChange : TableChange) : Option Value :=
  match draft.top with
  | .table origin entries => tableChange origin entries
  | _ => none

def put (draft : Draft) (path : List Text) (key : Text) (value : Value) :
    Option Draft :=
  (draft.change (alongPath false (putKey path key value) draft.current)).map
    (⟨·, draft.current⟩)

def openTable (draft : Draft) (path : List Text) (key : Text) : Option Draft :=
  (draft.change (Toml.openTable path key)).map (⟨·, path ++ [key]⟩)

def openListedTable (draft : Draft) (path : List Text) (key : Text) :
    Option Draft :=
  (draft.change (Toml.openListedTable path key)).map (⟨·, path ++ [key]⟩)

end Draft

end InputResolution.Toml
