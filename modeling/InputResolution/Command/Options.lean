import InputResolution.Command.Arguments
import InputResolution.Settings.Defaults

namespace InputResolution.Command

/-! Arguments over settings: what the arguments say wins, and their lists come
after those of the settings. -/

def Arguments.options (arguments : Arguments) (defaults : InputDefaults) :
    Options where
  mode := if arguments.standardJson then .standardJson else .compiler
  ignoreMissing := arguments.ignoreMissing || defaults.ignoreMissing
  basePath := arguments.basePath.or defaults.basePath
  includePaths := defaults.includePaths ++ arguments.includePaths
  allowPaths := defaults.allowPaths ++ arguments.allowPaths
  tokens := arguments.inputs

end InputResolution.Command
