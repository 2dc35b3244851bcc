import InputResolution.Request.Plan

namespace InputResolution

/-! Settings that lie under the options of a command line. -/

structure InputDefaults where
  ignoreMissing : Bool
  basePath : Option Text
  includePaths : List Text
  allowPaths : List Text
  deriving DecidableEq, Repr

def InputDefaults.none : InputDefaults :=
  ⟨false, .none, [], []⟩

structure Settings where
  input : InputDefaults
  logFilter : Text
  deriving DecidableEq, Repr

def defaultLogFilter : Text := "info".toList

def Settings.default : Settings :=
  ⟨.none, defaultLogFilter⟩

inductive SettingsProblem where
  | emptyBasePath
  | includePathsWithoutBasePath
  deriving DecidableEq, Repr

def SettingsProblem.message : SettingsProblem → Text
  | .emptyBasePath => "input.base_path must not be empty".toList
  | .includePathsWithoutBasePath =>
      "input.include_paths requires input.base_path".toList

/-- A base path that is set is not empty, and include paths come only with a
base path. -/
def Settings.problem? (settings : Settings) : Option SettingsProblem :=
  if settings.input.basePath = some [] then some .emptyBasePath
  else if ! settings.input.includePaths.isEmpty &&
  settings.input.basePath.isNone then
    some .includePathsWithoutBasePath
  else none

end InputResolution
