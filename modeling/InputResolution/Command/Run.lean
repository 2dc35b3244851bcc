import InputResolution.Command.Help
import InputResolution.Command.Options
import InputResolution.Log.Filter
import InputResolution.Report.Json
import InputResolution.Settings.Reading

namespace InputResolution.Command

/-! One run of the program as a function of its arguments, its environment and
what it can read. -/

structure Environment where
  workDir : Text
  configHome : Option Text
  home : Option Text
  /-- The home that the host knows for the user when the environment names
  none. -/
  accountHome : Option Text
  /-- Where to log to.  Without it nothing is logged. -/
  logPath : Option Text
  logFilter : Option Text
  /-- Whether styles are asked for, and whether they are ruled out: both by any
  text but none. -/
  forcedStyles : Option Text
  ruledOutStyles : Option Text
  deriving DecidableEq, Repr

structure LogRequest where
  path : Text
  records : List Log.Record
  deriving DecidableEq, Repr

structure Outcome where
  exitCode : UInt32
  output : Text
  errors : Text
  log : Option LogRequest
  deriving DecidableEq, Repr

namespace Environment

def homeDirectory (environment : Environment) : Option Text :=
  (environment.home.filter (! ·.isEmpty)).or environment.accountHome

/-- An absolute directory of settings counts; else it lies in the home, and
without a home the working directory stands in for it. -/
def settingsDirectory (environment : Environment) : Text :=
  match environment.configHome.filter Native.isAbsolute,
      environment.homeDirectory with
  | some directory, _ => directory
  | none, some home => Native.join home ".config".toList
  | none, none => ['.']

def settingsFile (environment : Environment) : Text :=
  Native.join (Native.join environment.settingsDirectory programName)
    "config.toml".toList

/-- What is written goes to no terminal, so that it has no styles by itself. -/
def showsStyles (environment : Environment) : Bool :=
  environment.forcedStyles.any (! ·.isEmpty) &&
  environment.ruledOutStyles.all (·.isEmpty)

end Environment

def finished (environment : Environment) (output : StyledText) : Outcome :=
  ⟨0, output.render environment.showsStyles, [], none⟩

def usageFailure (environment : Environment) (error : UsageError) : Outcome :=
  ⟨2, [], (error.styledMessage ++ usageHint).render environment.showsStyles,
    none⟩

def settingsFailure (failure : Settings.LoadFailure) : Outcome :=
  ⟨1, [], "Error: failed to load configuration: ".toList ++ failure.message ++
    ['\n'], none⟩

structure Invocation where
  settings : Settings
  options : Options
  deriving DecidableEq, Repr

def Environment.chosenFile (environment : Environment) (arguments : Arguments) :
    Text :=
  arguments.config.getD environment.settingsFile

def Environment.chosenPlace (environment : Environment)
    (arguments : Arguments) : Text :=
  Native.join environment.workDir (environment.chosenFile arguments)

/-- Nothing is read before the arguments are understood. -/
def prepare (environment : Environment) (fs : Disk.FileSystem)
    (arguments : List Text) :
    Except Outcome Invocation :=
  match Arguments.parse arguments with
  | .error .help => .error (finished environment helpText)
  | .error .version => .error (finished environment versionText)
  | .error (.usage error) => .error (usageFailure environment error)
  | .ok arguments =>
      match Settings.load fs (environment.chosenFile arguments)
          (environment.chosenPlace arguments) with
      | .error failure => .error (settingsFailure failure)
      | .ok settings => .ok ⟨settings, arguments.options settings.input⟩

namespace Invocation

def log? (invocation : Invocation) (environment : Environment)
    (events : List Event) :
    Option LogRequest :=
  environment.logPath.map fun path =>
    let filter :=
      Log.chosenFilter
        (environment.logFilter.toList ++ [invocation.settings.logFilter])
    ⟨path, Log.records filter events⟩

/-- A failure leaves no output and is among the errors. -/
def outcome (invocation : Invocation) (environment : Environment)
    (traced : Traced Resolution) :
    Outcome :=
  let errors := (Diagnostics.empty.recordAll traced.events).text
  let log := invocation.log? environment traced.events
  match traced.result with
  | .error _ => ⟨1, [], errors, log⟩
  | .ok resolution => ⟨0, resolution.toJson.text ++ ['\n'], errors, log⟩

def inputPlaces (invocation : Invocation) (resolver : Resolver) : List Text :=
  match Plan.ofOptions invocation.options with
  | .error _ => []
  | .ok plan => plan.paths.map (resolver.naming invocation.options).nativePath

def readsStdin (invocation : Invocation) : Bool :=
  match Plan.ofOptions invocation.options with
  | .error _ => false
  | .ok plan => plan.readsStdin

end Invocation

def run (environment : Environment) (fs : Disk.FileSystem) (stdin : Stdin)
    (arguments : List Text) : Outcome :=
  match prepare environment fs arguments with
  | .error outcome => outcome
  | .ok invocation =>
      invocation.outcome environment
        ((Resolver.make fs environment.workDir).resolve invocation.options
          stdin)

def logWarning (path : Text) : Text :=
  "Warning: Failed to create log file: ".toList ++ path ++ ['\n']

end InputResolution.Command
