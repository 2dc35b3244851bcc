import InputResolution.Report.Event
import InputResolution.Source.Map
import InputResolution.Source.Sandbox
import InputResolution.Source.UnitName
import InputResolution.Text.Utf8

namespace InputResolution

/-! Reading what a plan names: standard input first, then each path in plan
order. -/

/-- What standard input holds, or the message of the failure to read it. -/
abbrev Stdin := Except Text Utf8.Bytes

structure Loaded where
  sources : SourceMap
  standardJson : Option Text
  allowedDirectories : Native.DirectorySet
  deriving DecidableEq, Repr

namespace Loaded

def empty : Loaded := ⟨.empty, none, .empty⟩

def isEmpty (loaded : Loaded) : Bool :=
  loaded.sources.isEmpty && loaded.standardJson.isNone

end Loaded

structure Loader where
  fs : Disk.FileSystem
  naming : UnitNaming
  ignoreMissing : Bool

namespace Loader

def store (mode : Mode) (loaded : Loaded) (name content : Text) : Loaded :=
  match mode with
  | .standardJson => { loaded with standardJson := some content }
  | .compiler => { loaded with sources := loaded.sources.insert name content }

def loadStdin (mode : Mode) (stdin : Stdin) : Traced Loaded :=
  match stdin with
  | .error reason => .fail (.stdinReadFailed reason) []
  | .ok bytes =>
      .ok (store mode .empty stdinUnitName (Utf8.decodeLossy bytes)) []

def register (loader : Loader) (loaded : Loaded) (path content : Text) :
    Traced Loaded :=
  let name := loader.naming.name path
  let noted : Event :=
    if loaded.sources.contains name then .replaced name path
    else .registered name path
  match Sandbox.allowFile loader.fs loaded.allowedDirectories
      (loader.naming.nativePath path) with
  | .error reason => .fail (.readFailed path reason) [noted]
  | .ok admission =>
      .ok
        { store .compiler loaded name content with
          allowedDirectories := admission.directories }
        (noted :: if admission.isNew then [.allowed admission.directory]
          else [])

def loadFile (loader : Loader) (mode : Mode) (loaded : Loaded) (path : Text) :
    Traced Loaded :=
  match loader.fs.read (loader.naming.nativePath path) with
  | .error reason => .fail (.readFailed path reason) []
  | .ok bytes =>
      let content := Utf8.decodeLossy bytes
      match mode with
      | .standardJson => .ok { loaded with standardJson := some content } []
      | .compiler => loader.register loaded path content

/-- A path that is no regular file is passed over if missing inputs are ignored,
and fatal if not. -/
def loadPath (loader : Loader) (mode : Mode) (loaded : Loaded) (path : Text) :
    Traced Loaded :=
  match loader.fs.kindOf (loader.naming.nativePath path),
      loader.ignoreMissing with
  | .file, _ => loader.loadFile mode loaded path
  | .missing, true => .ok loaded [.skipped (.notFound path)]
  | .missing, false => .fail (.notFound path) []
  | .other, true => .ok loaded [.skipped (.notAValidFile path)]
  | .other, false => .fail (.notAValidFile path) []

def loadPaths (loader : Loader) (mode : Mode) (loaded : Loaded) :
    List Text → Traced Loaded
  | [] => .ok loaded []
  | path :: paths =>
      (loader.loadPath mode loaded path).andThen fun next =>
        loader.loadPaths mode next paths

def load (loader : Loader) (plan : Plan) (stdin : Stdin) : Traced Loaded :=
  (if plan.readsStdin then loadStdin plan.mode stdin else .ok .empty []).andThen
    fun first =>
      (loader.loadPaths plan.mode first plan.paths).andThen fun loaded =>
        if loaded.isEmpty then .fail .allInputsSkipped [] else .ok loaded []

@[simp] theorem loadPaths_nil (loader : Loader) (mode : Mode)
    (loaded : Loaded) :
    loader.loadPaths mode loaded [] = .ok loaded [] := rfl

@[simp] theorem loadPaths_cons (loader : Loader) (mode : Mode) (loaded : Loaded)
    (path : Text) (paths : List Text) :
    loader.loadPaths mode loaded (path :: paths) =
      (loader.loadPath mode loaded path).andThen fun next =>
        loader.loadPaths mode next paths := rfl

end Loader

end InputResolution
