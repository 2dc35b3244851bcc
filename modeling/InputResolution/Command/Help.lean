import InputResolution.Command.Arguments

namespace InputResolution.Command

/-! The texts that explain the command line. -/

open StyledText

def programName : Text := "solc-input".toList

def versionText : StyledText := plain (programName ++ " 0.1.0\n".toList)

def usageLine : StyledText :=
  styled .heading "Usage:".toList ++ plain [' '] ++
    styled .literal programName ++
    plain " [OPTIONS] [INPUT]...".toList

/-- A line about an option: the letter that stands for it, its name, the name of
its value with a blank before it, and what it is for. -/
structure OptionLine where
  letter : Option Char
  name : Text
  valueName : Text
  purpose : Text
  deriving DecidableEq, Repr

namespace OptionLine

def ofSetting (setting : Setting) (purpose : String) : OptionLine :=
  ⟨none, setting.name, " <".toList ++ setting.valueName ++ ['>'],
    purpose.toList⟩

def ofSwitch (letter : Option Char) (switch : Switch) (purpose : String) :
    OptionLine :=
  ⟨letter, switch.name, [], purpose.toList⟩

def width (line : OptionLine) : Nat :=
  2 + line.name.length + line.valueName.length

def letterText (line : OptionLine) : StyledText :=
  match line.letter with
  | none => plain "    ".toList
  | some letter => styled .literal ['-', letter] ++ plain ", ".toList

/-- Purposes begin in one column, two after the widest of the options. -/
def text (widest : Nat) (line : OptionLine) : StyledText :=
  plain "  ".toList ++ line.letterText ++
    styled .literal ("--".toList ++ line.name) ++
    plain (line.valueName ++ List.replicate (widest - line.width + 2) ' ' ++
      line.purpose)

end OptionLine

def optionLines : List OptionLine :=
  [.ofSwitch none .standardJson
    "Read a single Standard JSON document from a file or stdin",
    .ofSwitch none .ignoreMissing
      "Skip missing or non-regular input files instead of failing",
    .ofSetting .basePath
      "Directory that source unit names are made relative to",
    .ofSetting .includePath
      "Extra directory to strip from source unit names (repeatable)",
    .ofSetting .allowPaths
      "Comma-separated directories added to the read sandbox",
    .ofSetting .config "Config file (default: platform config dir)",
    .ofSwitch (some 'h') .help "Print help",
    .ofSwitch (some 'V') .version "Print version"]

def widestOption : Nat :=
  (optionLines.map OptionLine.width).foldl max 0

def summary : Text :=
  "Input resolution for a compiler command line: ".toList ++
    "source unit names, remappings and read sandbox".toList

def inputLine : Text :=
  "  [INPUT]...  Input files, `-` for stdin and `[context:]prefix=target` remappings".toList

def helpText : StyledText :=
  unlines
    ([plain summary, [], usageLine, [], styled .heading "Arguments:".toList,
      plain inputLine, [],
        styled .heading "Options:".toList] ++
      optionLines.map (OptionLine.text widestOption))

def usageHint : StyledText :=
  unlines
    [[], [], usageLine, [],
      plain "For more information, try '".toList ++
        styled .literal "--help".toList ++
        plain "'.".toList]

end InputResolution.Command
