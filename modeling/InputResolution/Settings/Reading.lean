import InputResolution.Disk.FileSystem
import InputResolution.Settings.Defaults
import InputResolution.Toml.Document

namespace InputResolution.Settings

/-! Settings files.  A record is a table, or a list of its fields in order, and
may leave out any field; a table may hold further keys and a list further
items. -/

open Toml

inductive Fields where
  | named (entries : Entries)
  | listed (items : List Value)

/-- A date and time is read like a table with no field of ours. -/
def fields? : Value → Option Fields
  | .table _ entries => some (.named entries)
  | .array items => some (.listed items)
  | .tables items => some (.listed items)
  | .scalar .dateTime => some (.named [])
  | .scalar _ => none

def Fields.get? (fields : Fields) (position : Nat) (name : Text) :
    Option Value :=
  match fields with
  | .named entries => entries.lookup name
  | .listed items => items[position]?

/-- The numbers under further keys have to be representable; further items are
not looked at. -/
def Fields.othersRepresentable (fields : Fields) (names : List Text) : Bool :=
  match fields with
  | .named entries =>
      entriesRepresentable
        (entries.filter fun entry => ! names.contains entry.1)
  | .listed _ => true

def boolean? : Value → Option Bool
  | .scalar (.boolean value) => some value
  | _ => none

def string? : Value → Option Text
  | .scalar (.string text) => some text
  | _ => none

def strings? : Value → Option (List Text)
  | .array items => items.mapM string?
  | .tables items => items.mapM string?
  | _ => none

def field? (fields : Fields) (position : Nat) (name : Text) (absent : α)
    (read? : Value → Option α) : Option α :=
  match fields.get? position name with
  | none => some absent
  | some value => read? value

def inputNames : List Text :=
  ["ignore_missing", "base_path", "include_paths", "allow_paths"].map
    String.toList

def input? (value : Value) : Option InputDefaults := do
  let fields ← fields? value
  let ignoreMissing ← field? fields 0 "ignore_missing".toList false boolean?
  let basePath ← field? fields 1 "base_path".toList none fun value =>
      (string? value).map some
  let includePaths ← field? fields 2 "include_paths".toList [] strings?
  let allowPaths ← field? fields 3 "allow_paths".toList [] strings?
  if fields.othersRepresentable inputNames then
    some ⟨ignoreMissing, basePath, includePaths, allowPaths⟩
  else none

def logFilter? (value : Value) : Option Text := do
  let fields ← fields? value
  let filter ← field? fields 0 "filter".toList defaultLogFilter string?
  if fields.othersRepresentable ["filter".toList] then some filter else none

def ofDocument? (entries : Entries) : Option Settings := do
  let fields := Fields.named entries
  let input ← field? fields 0 "input".toList .none input?
  let logFilter ← field? fields 1 "logging".toList defaultLogFilter logFilter?
  if fields.othersRepresentable ["input".toList, "logging".toList] then
    some ⟨input, logFilter⟩
  else none

def parse? (text : Text) : Option Settings :=
  (Toml.parse? text).bind ofDocument?

/-! Loading. -/

/-- Why a settings file cannot be used.  `file` is its path as given. -/
inductive LoadFailure where
  | unreadable (file : Text)
  | malformed (file : Text)
  | invalid (problem : SettingsProblem)
  deriving DecidableEq, Repr

def LoadFailure.message : LoadFailure → Text
  | .unreadable file =>
      "Failed to read config file '".toList ++ file ++ "': not readable".toList
  | .malformed file =>
      "Failed to parse config file '".toList ++ file ++
        "': not a settings document".toList
  | .invalid problem => "Config validation failed: ".toList ++ problem.message

/-- Reads the settings file at `place`.  Where nothing is, the default settings
hold. -/
def load (fs : Disk.FileSystem) (file place : Text) :
    Except LoadFailure Settings :=
  if fs.kindOf place = .missing then .ok .default
  else
    match (fs.read place).toOption.bind Utf8.decode? with
    | none => .error (.unreadable file)
    | some text =>
        match parse? text with
        | none => .error (.malformed file)
        | some settings =>
            match settings.problem? with
            | some problem => .error (.invalid problem)
            | none => .ok settings

end InputResolution.Settings
