import InputResolution.Text.Styled

namespace InputResolution.Command

/-! The arguments of one invocation.  An option waits for its value until the
next argument that cannot be one; whatever is wrong with the option comes to
light only then. -/

inductive Setting where
  | basePath
  | includePath
  | allowPaths
  | config
  deriving DecidableEq, Repr

inductive Switch where
  | standardJson
  | ignoreMissing
  | help
  | version
  deriving DecidableEq, Repr

def Setting.name : Setting → Text
  | .basePath => "base-path".toList
  | .includePath => "include-path".toList
  | .allowPaths => "allow-paths".toList
  | .config => "config".toList

def Setting.valueName : Setting → Text
  | .basePath => "PATH".toList
  | .includePath => "PATH".toList
  | .allowPaths => "PATHS".toList
  | .config => "FILE".toList

def Setting.usage (setting : Setting) : Text :=
  "--".toList ++ setting.name ++ " <".toList ++ setting.valueName ++ ['>']

def Switch.name : Switch → Text
  | .standardJson => "standard-json".toList
  | .ignoreMissing => "ignore-missing".toList
  | .help => "help".toList
  | .version => "version".toList

def Switch.usage (switch : Switch) : Text :=
  "--".toList ++ switch.name

def settings : List Setting := [.basePath, .includePath, .allowPaths, .config]

def switches : List Switch := [.standardJson, .ignoreMissing, .help, .version]

inductive UsageError where
  | unexpectedArgument (argument : Text)
  | missingValue (setting : Setting)
  | repeatedSetting (setting : Setting)
  | repeatedSwitch (switch : Switch)
  | unexpectedValue (value : Text) (switch : Switch)
  deriving DecidableEq, Repr

namespace UsageError

open StyledText

def explanation : UsageError → StyledText
  | .unexpectedArgument argument =>
      plain "unexpected argument '".toList ++ styled .rejected argument ++
        plain "' found".toList
  | .missingValue setting =>
      plain "a value is required for '".toList ++
        styled .rejected setting.usage ++
        plain "' but none was supplied".toList
  | .repeatedSetting setting =>
      plain "the argument '".toList ++ styled .rejected setting.usage ++
        plain "' cannot be used multiple times".toList
  | .repeatedSwitch switch =>
      plain "the argument '".toList ++ styled .rejected switch.usage ++
        plain "' cannot be used multiple times".toList
  | .unexpectedValue value switch =>
      plain "unexpected value '".toList ++ styled .rejected value ++
        plain "' for '".toList ++
        styled .literal switch.usage ++
          plain "' found; no more were expected".toList

def styledMessage (error : UsageError) : StyledText :=
  styled .failure "error:".toList ++ plain [' '] ++ error.explanation

def message (error : UsageError) : Text :=
  error.styledMessage.unstyled

end UsageError

inductive Stop where
  | help
  | version
  | usage (error : UsageError)
  deriving DecidableEq, Repr

structure Arguments where
  standardJson : Bool
  ignoreMissing : Bool
  basePath : Option Text
  includePaths : List Text
  allowPaths : List Text
  config : Option Text
  inputs : List Text
  deriving DecidableEq, Repr

namespace Arguments

def none : Arguments := ⟨false, false, .none, [], [], .none, []⟩

/-- A setting that holds one value is given at most once, and a settings file
has a name. -/
def assign (arguments : Arguments) (setting : Setting) (value : Text) :
    Except Stop Arguments :=
  match setting with
  | .basePath =>
      if arguments.basePath.isSome then
        .error (.usage (.repeatedSetting .basePath))
      else .ok { arguments with basePath := some value }
  | .includePath =>
      .ok { arguments with includePaths := arguments.includePaths ++ [value] }
  | .allowPaths =>
      .ok { arguments with
        allowPaths := arguments.allowPaths ++ Text.pieces (· == ',') value }
  | .config =>
      if arguments.config.isSome then .error (.usage (.repeatedSetting .config))
      else if value.isEmpty then .error (.usage (.missingValue .config))
      else .ok { arguments with config := some value }

def turnOn (arguments : Arguments) : Switch → Except Stop Arguments
  | .help => .error .help
  | .version => .error .version
  | .standardJson =>
      if arguments.standardJson then
        .error (.usage (.repeatedSwitch .standardJson))
      else .ok { arguments with standardJson := true }
  | .ignoreMissing =>
      if arguments.ignoreMissing then
        .error (.usage (.repeatedSwitch .ignoreMissing))
      else .ok { arguments with ignoreMissing := true }

end Arguments

/-! Reading. -/

/-- A setting that has been named, with its value once that has come. -/
structure Pending where
  setting : Setting
  value : Option Text
  deriving DecidableEq, Repr

structure Reader where
  arguments : Arguments
  pending : Option Pending
  /-- After a double dash every argument is an input. -/
  onlyInputs : Bool
  deriving DecidableEq, Repr

namespace Reader

def start : Reader := ⟨.none, none, false⟩

def settle (reader : Reader) : Except Stop Reader :=
  match reader.pending with
  | none => .ok reader
  | some ⟨setting, none⟩ => .error (.usage (.missingValue setting))
  | some ⟨setting, some value⟩ =>
      (reader.arguments.assign setting value).map fun arguments =>
        { reader with arguments, pending := none }

def takeInput (reader : Reader) (argument : Text) : Except Stop Reader := do
  let reader ← reader.settle
  return { reader with
    arguments :=
    { reader.arguments with inputs := reader.arguments.inputs ++ [argument] } }

def takeSetting (reader : Reader) (setting : Setting) (value : Option Text) :
    Except Stop Reader := do
  let reader ← reader.settle
  match value with
  | none => return { reader with pending := some ⟨setting, none⟩ }
  | some value =>
      return { reader with
        arguments := ← reader.arguments.assign setting value }

def takeSwitch (reader : Reader) (switch : Switch) : Except Stop Reader := do
  let reader ← reader.settle
  return { reader with arguments := ← reader.arguments.turnOn switch }

def takeLong (reader : Reader) (text : Text) : Except Stop Reader :=
  let (name, value) :=
    match Text.cut? '=' text with
    | none => (text, none)
    | some (name, value) => (name, some value)
  match settings.find? (·.name == name), switches.find? (·.name == name),
      value with
  | some setting, _, value => reader.takeSetting setting value
  | none, some switch, none => reader.takeSwitch switch
  | none, some switch, some value =>
      .error (.usage (.unexpectedValue value switch))
  | none, none, _ => .error (.usage (.unexpectedArgument ("--".toList ++ name)))

/-- Of several letters after one dash the first decides. -/
def takeShort (reader : Reader) (letter : Char) : Except Stop Reader :=
  if letter = 'h' then reader.takeSwitch .help
  else if letter = 'V' then reader.takeSwitch .version
  else .error (.usage (.unexpectedArgument ['-', letter]))

def takePlain (reader : Reader) (argument : Text) : Except Stop Reader :=
  match reader.pending with
  | some ⟨setting, none⟩ =>
      .ok { reader with pending := some ⟨setting, some argument⟩ }
  | _ => reader.takeInput argument

def take (reader : Reader) (argument : Text) : Except Stop Reader :=
  if reader.onlyInputs then reader.takeInput argument
  else
    match argument with
    | ['-', '-'] => .ok { reader with onlyInputs := true }
    | '-' :: '-' :: text => reader.takeLong text
    | '-' :: letter :: _ => reader.takeShort letter
    | _ => reader.takePlain argument

end Reader

def Arguments.parse (arguments : List Text) : Except Stop Arguments := do
  let reader ← arguments.foldlM Reader.take .start
  return (← reader.settle).arguments

end InputResolution.Command
