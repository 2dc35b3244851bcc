import InputResolution.Native.DirectorySet
import InputResolution.Report.Failure
import InputResolution.Request.Token

namespace InputResolution

/-! What one invocation asks for, and the plan of what to read for it.  A plan
exists only if the request obeys the rules of its mode, so nothing is read for a
request that breaks them. -/

inductive Mode where
  | compiler
  | standardJson
  deriving DecidableEq, Repr

structure Options where
  mode : Mode
  ignoreMissing : Bool
  basePath : Option Text
  includePaths : List Text
  allowPaths : List Text
  tokens : List Text
  deriving DecidableEq, Repr

/-- An empty base path counts as none. -/
def Options.effectiveBasePath (options : Options) : Option Text :=
  options.basePath.filter (! ·.isEmpty)

structure Plan where
  mode : Mode
  /-- The path tokens without repetitions, each where it stood first. -/
  paths : List Text
  readsStdin : Bool
  remappings : List Remapping
  remappingDirectories : Native.DirectorySet
  deriving DecidableEq, Repr

namespace Plan

def empty (mode : Mode) : Plan :=
  ⟨mode, [], false, [], .empty⟩

def addPath (plan : Plan) (path : Text) : Plan :=
  if path ∈ plan.paths then plan
  else { plan with paths := plan.paths ++ [path] }

def addRemapping (plan : Plan) (remapping : Remapping) : Plan :=
  { plan with
    remappings := plan.remappings ++ [remapping]
    remappingDirectories :=
      match remapping.directory? with
      | none => plan.remappingDirectories
      | some directory => plan.remappingDirectories.insert directory }

def addToken (plan : Plan) : Token → Except Failure Plan
  | .badRemapping token => .error (.invalidRemapping token)
  | .remapping remapping =>
      match plan.mode with
      | .standardJson => .error .remappingInStandardJson
      | .compiler => .ok (plan.addRemapping remapping)
  | .stdin => .ok { plan with readsStdin := true }
  | .path path => .ok (plan.addPath path)

def addTokens (plan : Plan) : List Token → Except Failure Plan
  | [] => .ok plan
  | token :: tokens =>
      match plan.addToken token with
      | .error failure => .error failure
      | .ok next => next.addTokens tokens

/-- Standard JSON comes from exactly one place, which is standard input if no
path is given; a compiler needs at least one input. -/
def checkInputs (plan : Plan) : Except Failure Plan :=
  match plan.mode, plan.paths, plan.readsStdin with
  | .standardJson, [], _ => .ok { plan with readsStdin := true }
  | .standardJson, [_], false => .ok plan
  | .standardJson, _, _ => .error .tooManyStandardJsonInputs
  | .compiler, [], false => .error .noInputFiles
  | .compiler, _, _ => .ok plan

def ofOptions (options : Options) : Except Failure Plan :=
  if ! options.includePaths.isEmpty && options.effectiveBasePath.isNone then
    .error .includePathWithoutBasePath
  else
    match (empty options.mode).addTokens
        (options.tokens.map Token.classify) with
    | .error failure => .error failure
    | .ok plan => plan.checkInputs

end Plan

end InputResolution
