import InputResolution.Report.Event

namespace InputResolution.Log

/-! Log records: what is written of each event, and under which target. -/

inductive Level where
  | error
  | warn
  | info
  | debug
  | trace
  deriving DecidableEq, Repr

def Level.rank : Level → Nat
  | .error => 1
  | .warn => 2
  | .info => 3
  | .debug => 4
  | .trace => 5

/-- The name of the level, five columns wide. -/
def Level.label : Level → Text
  | .error => "ERROR".toList
  | .warn => " WARN".toList
  | .info => " INFO".toList
  | .debug => "DEBUG".toList
  | .trace => "TRACE".toList

structure Field where
  name : Text
  value : Text
  deriving DecidableEq, Repr

structure Record where
  level : Level
  target : Text
  message : Text
  fields : List Field
  deriving DecidableEq, Repr

def number (value : Nat) : Text :=
  Nat.toDigits 10 value

def truth (value : Bool) : Text :=
  if value then "true".toList else "false".toList

def modeName : Mode → Text
  | .compiler => "Compiler".toList
  | .standardJson => "StandardJson".toList

def planTarget : Text := "solc_input::args::pipeline".toList

def loadingTarget : Text := "solc_input::input::loader".toList

def sandboxTarget : Text := "solc_input::paths::allowed".toList

def diagnosticsTarget : Text := "solc_input::input::diagnostics".toList

def resolutionTarget : Text := "solc_input::input".toList

def field (name : String) (value : Text) : Field :=
  ⟨name.toList, value⟩

def Record.ofEvent : Event → Record
  | .planned plan =>
      ⟨.debug, planTarget, "input plan built".toList,
        [field "mode" (modeName plan.mode),
          field "paths" (number plan.paths.length),
          field "stdin" (truth plan.readsStdin),
          field "remappings" (number plan.remappings.length)]⟩
  | .skipped skip => ⟨.warn, diagnosticsTarget, skip.message, []⟩
  | .registered name path =>
      ⟨.debug, loadingTarget, "source registered".toList,
        [field "name" name, field "path" path]⟩
  | .replaced name path =>
      ⟨.warn, loadingTarget, "source unit name reused, content replaced".toList,
        [field "name" name, field "path" path]⟩
  | .allowed directory =>
      ⟨.debug, sandboxTarget, "allowed directory".toList,
        [field "dir" directory]⟩
  | .resolved mode sources directories =>
      ⟨.info, resolutionTarget, "inputs resolved".toList,
        [field "mode" (modeName mode), field "sources" (number sources),
          field "allowed" (number directories)]⟩
  | .failed failure => ⟨.error, diagnosticsTarget, failure.message, []⟩

/-! Writing. -/

def hexDigits (value : Nat) : Text :=
  Nat.toDigits 16 value

/-- Characters of a message that could steer a terminal are written as
escapes. -/
def safeCharacter (c : Char) : Text :=
  if c = '\x1b' ∨ c = '\x07' ∨ c = '\x08' ∨ c = '\x0c' ∨ c = '\x7f' then
    "\\x".toList ++ (if c.toNat < 0x10 then ['0'] else []) ++ hexDigits c.toNat
  else if 0x80 ≤ c.toNat ∧ c.toNat ≤ 0x9F then
    "\\u\x7b".toList ++ hexDigits c.toNat ++ ['\x7d']
  else [c]

def Field.text (field : Field) : Text :=
  ' ' :: field.name ++ '=' :: field.value

def Record.text (record : Record) : Text :=
  record.level.label ++ ' ' :: record.target ++ ": ".toList ++
    record.message.flatMap safeCharacter ++ record.fields.flatMap Field.text

end InputResolution.Log
