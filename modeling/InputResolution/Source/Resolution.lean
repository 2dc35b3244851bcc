import InputResolution.Disk.WeaklyCanonical
import InputResolution.Report.Diagnostics
import InputResolution.Source.Loading

namespace InputResolution

/-! From the options of one invocation to its named sources, its sandbox and its
remappings. -/

structure Resolution where
  mode : Mode
  readsStdin : Bool
  paths : List Text
  sources : SourceMap
  standardJson : Option Text
  allowedDirectories : Native.DirectorySet
  remappingDirectories : Native.DirectorySet
  allowPaths : List Text
  remappings : List Remapping
  basePath : Option Text
  includePaths : List Text
  deriving DecidableEq, Repr

/-- Every directory that an import may be read from. -/
def Resolution.sandbox (resolution : Resolution) : List Text :=
  resolution.allowedDirectories.toList ++
    resolution.remappingDirectories.toList ++
    resolution.allowPaths

structure Resolver where
  fs : Disk.FileSystem
  workDir : Text

namespace Resolver

/-- The working directory loses its links here, once, so that a double dot in a
token never looks through one of its ancestors. -/
def make (fs : Disk.FileSystem) (workDir : Text) : Resolver :=
  ⟨fs, Disk.weaklyCanonical fs workDir⟩

def naming (resolver : Resolver) (options : Options) : UnitNaming :=
  .make .posix resolver.workDir options.effectiveBasePath options.includePaths

def loader (resolver : Resolver) (options : Options) : Loader :=
  ⟨resolver.fs, resolver.naming options, options.ignoreMissing⟩

def describe (options : Options) (naming : UnitNaming) (plan : Plan)
    (loaded : Loaded) :
    Resolution where
  mode := plan.mode
  readsStdin := plan.readsStdin
  paths := plan.paths
  sources := loaded.sources
  standardJson := loaded.standardJson
  allowedDirectories := loaded.allowedDirectories
  remappingDirectories := plan.remappingDirectories
  allowPaths := options.allowPaths
  remappings := plan.remappings
  basePath := naming.basePath.map (·.text)
  includePaths := naming.includePaths.map (·.text)

def attempt (resolver : Resolver) (options : Options) (stdin : Stdin) :
    Traced Resolution :=
  match Plan.ofOptions options with
  | .error failure => .fail failure []
  | .ok plan =>
      (Traced.ok plan [.planned plan]).andThen fun plan =>
        ((resolver.loader options).load plan stdin).andThen fun loaded =>
          .ok (describe options (resolver.naming options) plan loaded)
            [.resolved plan.mode loaded.sources.size
              loaded.allowedDirectories.size]

/-- A failure is the last event. -/
def resolve (resolver : Resolver) (options : Options) (stdin : Stdin) :
    Traced Resolution :=
  let attempted := resolver.attempt options stdin
  match attempted.result with
  | .ok _ => attempted
  | .error failure => ⟨.error failure, attempted.events ++ [.failed failure]⟩

end Resolver

end InputResolution
