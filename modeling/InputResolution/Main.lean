import InputResolution.Command.Account
import InputResolution.Command.Run
import InputResolution.Disk.Sightings
import InputResolution.Log.Instant
import Std.Time.DateTime.Timestamp

namespace InputResolution.Program

/-! The program: looks at the disk where resolution will look, lets the library
decide, and writes what it decided. -/

def failureText : IO.Error → Text
  | .userError message => message.toList
  | .unexpectedEof => "unexpected end of file".toList
  | .noFileOrDirectory _ code details | .interrupted _ code details
  | .alreadyExists _ code details | .invalidArgument _ code details
  | .permissionDenied _ code details | .resourceExhausted _ code details
  | .inappropriateType _ code details | .noSuchThing _ code details
  | .otherError code details | .resourceBusy code details | .resourceVanished
      code details
  | .unsupportedOperation code details | .hardwareFault code details
  | .unsatisfiedConstraints code details | .illegalOperation code details
  | .protocolError code details | .timeExpired code details =>
      (details ++ " (os error " ++ toString code ++ ")").toList

def attempt (action : IO α) : IO (Except Text α) := do
  match ← action.toBaseIO with
  | .ok value => return .ok value
  | .error error => return .error (failureText error)

def readBytes (path : Text) : IO (Except Text Utf8.Bytes) :=
  attempt do return (← IO.FS.readBinFile (String.ofList path)).toList

def readText (path : String) : IO Text := do
  return ((← readBytes path.toList).toOption.map Utf8.decodeLossy).getD []

def look (reads : Disk.EntryKind → Bool) (path : Text) :
    IO (Text × Disk.Sighting) := do
  match ← attempt (IO.FS.realPath (String.ofList path)) with
  | .error reason => return (path, ⟨.error reason, .missing, .error reason⟩)
  | .ok place =>
      let kind : Disk.EntryKind ←
        match ← attempt place.metadata with
        | .error _ => pure .missing
        | .ok metadata =>
            pure (if metadata.type == .file then .file else .other)
      let content ← if reads kind then readBytes path else pure (.ok [])
      return (path, ⟨.ok place.toString.toList, kind, content⟩)

partial def readAll (stream : IO.FS.Stream) (read : ByteArray) : IO ByteArray :=
  do
  let bytes ← stream.read 65536
  if bytes.isEmpty then return read
  readAll stream (read ++ bytes)

def readStdin : IO Stdin :=
  attempt do return (← readAll (← IO.getStdin) .empty).toList

def environment : IO Command.Environment := do
  let value? (name : String) : IO (Option Text) := do
    return (← IO.getEnv name).map String.toList
  let status ← readText "/proc/self/status"
  let accounts ← readText "/etc/passwd"
  return {
    workDir := (← IO.currentDir).toString.toList
    configHome := ← value? "XDG_CONFIG_HOME"
    home := ← value? "HOME"
    accountHome :=
      (Command.statusField? "Uid".toList status).bind
        (Command.accountHome? · accounts)
    logPath := ← value? "SOLC_INPUT_LOG"
    logFilter := ← value? "RUST_LOG"
    forcedStyles := ← value? "CLICOLOR_FORCE"
    ruledOutStyles := ← value? "NO_COLOR" }

def now : IO Log.Instant := do
  let time ← Std.Time.Timestamp.now
  return ⟨time.val.second.val.toNat, time.val.nano.val.toNat⟩

/-- The log's own path has the time and the process in it, so that no two runs
share one. -/
def writeLog (log : Command.LogRequest) : IO Unit := do
  let time ← now
  let process :=
    (Command.statusField? "Pid".toList (← readText "/proc/self/status")).getD
      ['0']
  let path := log.path ++ '.' :: Nat.toDigits 10 time.seconds ++ '.' :: process
  match ← attempt (IO.FS.Handle.mk (String.ofList path) .write) with
  | .error _ => IO.eprint (String.ofList (Command.logWarning path))
  | .ok file =>
      for record in log.records do
        file.putStrLn (String.ofList ((← now).text ++ ' ' :: record.text))

def finish (outcome : Command.Outcome) : IO UInt32 := do
  if let some log := outcome.log then writeLog log
  IO.eprint (String.ofList outcome.errors)
  IO.print (String.ofList outcome.output)
  return outcome.exitCode

/-- Looks at the settings first, for they say which inputs there are to look
at. -/
def run (arguments : List String) : IO UInt32 := do
  let environment ← environment
  let arguments := arguments.map String.toList
  let settingsPlaces :=
    ((Command.Arguments.parse arguments).toOption.map
      environment.chosenPlace).toList
  let seen ← (environment.workDir :: settingsPlaces).mapM (look fun _ => true)
  let fs := Disk.Sightings.fileSystem seen
  match Command.prepare environment fs arguments with
  | .error outcome => finish outcome
  | .ok invocation =>
      let resolver := Resolver.make fs environment.workDir
      let inputs ← (invocation.inputPlaces resolver).mapM (look (· == .file))
      let stdin ← if invocation.readsStdin then readStdin else pure (.ok [])
      let loading : Resolver :=
        ⟨Disk.Sightings.fileSystem inputs, resolver.workDir⟩
      finish (invocation.outcome environment
        (loading.resolve invocation.options stdin))

end InputResolution.Program

def main (arguments : List String) : IO UInt32 :=
  InputResolution.Program.run arguments
