import InputResolution.Text.Pieces

namespace InputResolution

/-! Why a resolution fails, and how each cause is worded. -/

inductive Failure where
  | tooManyStandardJsonInputs
  | remappingInStandardJson
  | invalidRemapping (token : Text)
  | noInputFiles
  | includePathWithoutBasePath
  | notFound (path : Text)
  | notAValidFile (path : Text)
  | allInputsSkipped
  | readFailed (path reason : Text)
  | stdinReadFailed (reason : Text)
  deriving DecidableEq, Repr

def quoted (text : Text) : Text :=
  '"' :: text ++ ['"']

def Failure.message : Failure → Text
  | .tooManyStandardJsonInputs =>
      "Too many input files for --standard-json.\n".toList ++
        "Please either specify a single file name or provide its content on standard input.".toList
  | .remappingInStandardJson =>
      "Import remappings are not accepted on the command line in Standard JSON mode.\n".toList ++
        "Please put them under 'settings.remappings' in the JSON input.".toList
  | .invalidRemapping token =>
      "Invalid remapping: ".toList ++ quoted token ++ ['.']
  | .noInputFiles =>
      "No input files given. If you wish to use the standard input ".toList ++
        "please specify \"-\" explicitly.".toList
  | .includePathWithoutBasePath =>
      "--include-path option requires a non-empty base path.".toList
  | .notFound path => quoted path ++ " is not found.".toList
  | .notAValidFile path => quoted path ++ " is not a valid file.".toList
  | .allInputsSkipped =>
      "All specified input files either do not exist or are not regular files.".toList
  | .readFailed path reason =>
      quoted path ++ " could not be read: ".toList ++ reason
  | .stdinReadFailed reason =>
      "Failed to read standard input: ".toList ++ reason

end InputResolution
