import InputResolution.Report.Diagnostics
import InputResolution.Source.Loading

namespace InputResolution

/-! A whole run of the loader in closed form.  What a path brings does not
depend on what was loaded before it: it is refused, passed over or taken.  A run
fails with its first refusal, and takes every path in order if there is none. -/

namespace Traced

theorem result_andThen (first : Traced α) (next : α → Traced β) :
    (first.andThen next).result =
      match first.result with
      | .error failure => .error failure
      | .ok value => (next value).result := by
  unfold andThen
  cases first.result <;> rfl

theorem events_andThen (first : Traced α) (next : α → Traced β) :
    (first.andThen next).events =
      match first.result with
      | .error _ => first.events
      | .ok value => first.events ++ (next value).events := by
  unfold andThen
  cases first.result <;> rfl

end Traced

def Diagnostics.warnAll (diagnostics : Diagnostics) (skips : List Skip) :
    Diagnostics :=
  ⟨diagnostics.lines ++ skips.map Skip.message⟩

@[simp] theorem Diagnostics.warnAll_nil (diagnostics : Diagnostics) :
    diagnostics.warnAll [] = diagnostics := by
  simp [warnAll]

theorem Diagnostics.warnAll_warnAll (diagnostics : Diagnostics)
    (first second : List Skip) :
    (diagnostics.warnAll first).warnAll second =
      diagnostics.warnAll (first ++ second) := by
  simp [warnAll]

namespace Loader

def isFile (loader : Loader) (path : Text) : Bool :=
  loader.fs.kindOf (loader.naming.nativePath path) == .file

def skip? (loader : Loader) (path : Text) : Option Skip :=
  match loader.fs.kindOf (loader.naming.nativePath path) with
  | .file => none
  | .missing => some (.notFound path)
  | .other => some (.notAValidFile path)

/-- A file is refused if it cannot be read or, where its directory is to be
allowed, has no real place. -/
def fileRefusal? (loader : Loader) (mode : Mode) (path : Text) :
    Option Failure :=
  match loader.fs.read (loader.naming.nativePath path), mode,
      loader.fs.canonicalize (loader.naming.nativePath path) with
  | .error reason, _, _ => some (.readFailed path reason)
  | .ok _, .compiler, .error reason => some (.readFailed path reason)
  | .ok _, _, _ => none

def refusal? (loader : Loader) (mode : Mode) (path : Text) : Option Failure :=
  match loader.fs.kindOf (loader.naming.nativePath path),
      loader.ignoreMissing with
  | .file, _ => loader.fileRefusal? mode path
  | .missing, false => some (.notFound path)
  | .other, false => some (.notAValidFile path)
  | _, true => none

def content (loader : Loader) (path : Text) : Text :=
  Utf8.decodeLossy
    ((loader.fs.read (loader.naming.nativePath path)).toOption.getD [])

theorem content_congr {loader : Loader} {first second : Text}
    (h : loader.fs.read (loader.naming.nativePath first) =
      loader.fs.read (loader.naming.nativePath second)) :
    loader.content first = loader.content second := by
  rw [content, content, h]

def directory (loader : Loader) (path : Text) : Text :=
  Sandbox.directoryOf
    ((loader.fs.canonicalize (loader.naming.nativePath path)).toOption.getD [])

def take (loader : Loader) (mode : Mode) (loaded : Loaded) (path : Text) :
    Loaded :=
  if loader.isFile path then
    match mode with
    | .standardJson =>
        { loaded with standardJson := some (loader.content path) }
    | .compiler =>
        { loaded with
          sources :=
            loaded.sources.insert (loader.naming.name path)
              (loader.content path)
          allowedDirectories :=
            loaded.allowedDirectories.insert (loader.directory path) }
  else loaded

/-- The warnings of a run: what it passes over before it is refused anything. -/
def passedOver (loader : Loader) (mode : Mode) (paths : List Text) :
    List Skip :=
  if loader.ignoreMissing then
    (paths.takeWhile fun path => (loader.refusal? mode path).isNone).filterMap
      loader.skip?
  else []

theorem recordAll_register (diagnostics : Diagnostics) (loader : Loader)
    (loaded : Loaded) (path content : Text) :
    diagnostics.recordAll (loader.register loaded path content).events =
      diagnostics := by
  simp only [register]
  cases Sandbox.allowFile loader.fs loaded.allowedDirectories
      (loader.naming.nativePath path) with
  | error reason =>
      cases loaded.sources.contains (loader.naming.name path) <;> rfl
  | ok admission =>
      cases loaded.sources.contains (loader.naming.name path) <;>
        cases hnew : admission.isNew <;>
        simp [hnew, Diagnostics.recordAll, Diagnostics.record]

theorem result_loadFile {loader : Loader} {path : Text} (mode : Mode)
    (loaded : Loaded) (hfile : loader.isFile path = true) :
    (loader.loadFile mode loaded path).result =
      match loader.fileRefusal? mode path with
      | some failure => .error failure
      | none => .ok (loader.take mode loaded path) := by
  simp only [loadFile, fileRefusal?, take, if_pos hfile, content, directory]
  cases loader.fs.read (loader.naming.nativePath path) with
  | error reason => rfl
  | ok bytes =>
      cases mode with
      | standardJson => rfl
      | compiler =>
          simp only [register, Sandbox.allowFile]
          cases loader.fs.canonicalize (loader.naming.nativePath path) <;> rfl

theorem result_loadPath (loader : Loader) (mode : Mode) (loaded : Loaded)
    (path : Text) :
    (loader.loadPath mode loaded path).result =
      match loader.refusal? mode path with
      | some failure => .error failure
      | none => .ok (loader.take mode loaded path) := by
  unfold loadPath refusal?
  cases hkind : loader.fs.kindOf (loader.naming.nativePath path) with
  | file => exact result_loadFile mode loaded (by simp [isFile, hkind])
  | missing | other =>
      have htake : loader.take mode loaded path = loaded := by
        simp [take, isFile, hkind]
      cases loader.ignoreMissing with
      | false => rfl
      | true => rw [htake]; rfl

theorem recordAll_loadPath (diagnostics : Diagnostics) (loader : Loader)
    (mode : Mode) (loaded : Loaded) (path : Text) :
    diagnostics.recordAll (loader.loadPath mode loaded path).events =
      if loader.ignoreMissing then
        diagnostics.warnAll (loader.skip? path).toList
      else diagnostics := by
  unfold loadPath skip?
  cases hkind : loader.fs.kindOf (loader.naming.nativePath path) with
  | missing | other => cases loader.ignoreMissing <;> rfl
  | file =>
      have hsame :
          diagnostics.recordAll (loader.loadFile mode loaded path).events =
            diagnostics := by
        unfold loadFile
        cases loader.fs.read (loader.naming.nativePath path) with
        | error reason => rfl
        | ok bytes =>
            cases mode with
            | standardJson => rfl
            | compiler => exact recordAll_register _ _ _ _ _
      simp [hsame]

theorem result_loadPaths (loader : Loader) (mode : Mode) (loaded : Loaded)
    (paths : List Text) :
    (loader.loadPaths mode loaded paths).result =
      match paths.findSome? (loader.refusal? mode) with
      | some failure => .error failure
      | none => .ok (paths.foldl (loader.take mode) loaded) := by
  induction paths generalizing loaded with
  | nil => rfl
  | cons path paths ih =>
      rw [loadPaths_cons, Traced.result_andThen, result_loadPath,
        List.findSome?_cons]
      cases loader.refusal? mode path with
      | some failure => rfl
      | none => exact ih _

theorem result_loadPaths_of_forall {loader : Loader} {mode : Mode}
    {first : Loaded} {paths : List Text}
    (hpassed : ∀ path ∈ paths, loader.refusal? mode path = none) :
    (loader.loadPaths mode first paths).result =
      .ok (paths.foldl (loader.take mode) first) := by
  rw [result_loadPaths, List.findSome?_eq_none_iff.mpr hpassed]

theorem skip?_eq_none_of_refusal? {loader : Loader} {mode : Mode} {path : Text}
    {failure : Failure} (hignore : loader.ignoreMissing = true)
    (h : loader.refusal? mode path = some failure) :
    loader.skip? path = none := by
  unfold refusal? at h
  unfold skip?
  cases hkind : loader.fs.kindOf (loader.naming.nativePath path) with
  | file => rfl
  | missing | other => simp [hkind, hignore] at h

theorem recordAll_loadPaths (diagnostics : Diagnostics) (loader : Loader)
    (mode : Mode) (loaded : Loaded) (paths : List Text) :
    diagnostics.recordAll (loader.loadPaths mode loaded paths).events =
      diagnostics.warnAll (loader.passedOver mode paths) := by
  induction paths generalizing loaded diagnostics with
  | nil => simp [passedOver]
  | cons path paths ih =>
      rw [loadPaths_cons, Traced.events_andThen, result_loadPath]
      cases hignore : loader.ignoreMissing with
      | false =>
          have hpassed (paths : List Text) :
              loader.passedOver mode paths = [] := by
            simp [passedOver, hignore]
          cases loader.refusal? mode path with
          | some failure => simp [recordAll_loadPath, hignore, hpassed]
          | none => simp [recordAll_loadPath, hignore, hpassed, ih]
      | true =>
          cases hrefusal : loader.refusal? mode path with
          | some failure =>
              simp [recordAll_loadPath, hignore,
                skip?_eq_none_of_refusal? hignore hrefusal, passedOver,
                hrefusal]
          | none =>
              have hpassed : loader.passedOver mode (path :: paths) =
                  (loader.skip? path).toList ++
                    loader.passedOver mode paths := by
                cases hskip : loader.skip? path <;>
                  simp [passedOver, hignore, hrefusal, hskip]
              simp [recordAll_loadPath, hignore, ih, hpassed,
                Diagnostics.warnAll_warnAll]

/-! The phases around the paths. -/

def opening (plan : Plan) (stdin : Stdin) : Traced Loaded :=
  if plan.readsStdin then loadStdin plan.mode stdin else .ok .empty []

def close (loaded : Loaded) : Except Failure Loaded :=
  if loaded.isEmpty then .error .allInputsSkipped else .ok loaded

theorem events_opening (plan : Plan) (stdin : Stdin) :
    (opening plan stdin).events = [] := by
  unfold opening loadStdin
  cases plan.readsStdin <;> cases stdin <;> rfl

theorem load_eq (loader : Loader) (plan : Plan) (stdin : Stdin) :
    loader.load plan stdin =
      (opening plan stdin).andThen fun first =>
        (loader.loadPaths plan.mode first plan.paths).andThen fun loaded =>
          if loaded.isEmpty then .fail .allInputsSkipped []
          else .ok loaded [] := rfl

theorem result_load (loader : Loader) (plan : Plan) (stdin : Stdin) :
    (loader.load plan stdin).result =
      match (opening plan stdin).result with
      | .error failure => .error failure
      | .ok first =>
          match plan.paths.findSome? (loader.refusal? plan.mode) with
          | some failure => .error failure
          | none => close (plan.paths.foldl (loader.take plan.mode) first) := by
  rw [load_eq, Traced.result_andThen]
  cases (opening plan stdin).result with
  | error failure => rfl
  | ok first =>
      simp only [Traced.result_andThen, result_loadPaths]
      cases plan.paths.findSome? (loader.refusal? plan.mode) with
      | some failure => rfl
      | none =>
          simp only [close]
          split <;> rfl

theorem recordAll_load (diagnostics : Diagnostics) (loader : Loader)
    (plan : Plan) (stdin : Stdin) :
    diagnostics.recordAll (loader.load plan stdin).events =
      match (opening plan stdin).result with
      | .error _ => diagnostics
      | .ok _ =>
          diagnostics.warnAll (loader.passedOver plan.mode plan.paths) := by
  rw [load_eq, Traced.events_andThen, events_opening]
  cases (opening plan stdin).result with
  | error failure => rfl
  | ok first =>
      simp only [List.nil_append, Traced.events_andThen]
      have hpaths :=
        recordAll_loadPaths diagnostics loader plan.mode first plan.paths
      cases (loader.loadPaths plan.mode first plan.paths).result with
      | error failure => exact hpaths
      | ok loaded =>
          simp only
          split <;> simpa using hpaths

/-- How a run ends, and the paths it gets past before that: none if standard
input cannot be read, those before the path that fails, or all. -/
inductive Ends (loader : Loader) (plan : Plan) (stdin : Stdin) :
    List Text → Except Failure Loaded → Prop
  | unread (hreads : plan.readsStdin = true) (hstdin : stdin = .error reason) :
      Ends loader plan stdin [] (.error (.stdinReadFailed reason))
  | failed {failure : Failure}
      (hopening : (opening plan stdin).result = .ok first)
      (hpaths : plan.paths = passed ++ path :: rest)
      (hpassed : (loader.loadPaths plan.mode first passed).result = .ok reached)
      (hpath : (loader.loadPath plan.mode reached path).result =
        .error failure) :
      Ends loader plan stdin passed (.error failure)
  | closed (hopening : (opening plan stdin).result = .ok first)
      (hpassed : (loader.loadPaths plan.mode first plan.paths).result =
        .ok reached) :
      Ends loader plan stdin plan.paths (close reached)

theorem opening_eq_error {plan : Plan} {stdin : Stdin} {failure : Failure}
    (h : (opening plan stdin).result = .error failure) :
    plan.readsStdin = true ∧ ∃ reason, stdin = .error reason ∧
      failure = .stdinReadFailed reason := by
  unfold opening at h
  cases hreads : plan.readsStdin with
  | false => simp [hreads] at h
  | true =>
      cases stdin with
      | ok bytes => simp [hreads, loadStdin] at h
      | error reason =>
          have hfailure : .stdinReadFailed reason = failure := by
            simpa [hreads, loadStdin] using h
          exact ⟨rfl, reason, rfl, hfailure.symm⟩

theorem passedOver_append_refused {loader : Loader} {mode : Mode}
    {passed rest : List Text} {path : Text} {failure : Failure}
    (hpassed : ∀ earlier ∈ passed, loader.refusal? mode earlier = none)
    (hrefusal : loader.refusal? mode path = some failure) :
    loader.passedOver mode (passed ++ path :: rest) =
      if loader.ignoreMissing then passed.filterMap loader.skip? else [] := by
  have hreached : (passed ++ path :: rest).takeWhile
      (fun path => (loader.refusal? mode path).isNone) = passed := by
    rw [List.takeWhile_append_of_pos fun earlier hearlier => by
      simp [hpassed earlier hearlier],
      List.takeWhile_cons_of_neg (by simp [hrefusal]), List.append_nil]
  rw [passedOver, hreached]

theorem passedOver_of_forall {loader : Loader} {mode : Mode} {paths : List Text}
    (hpassed : ∀ path ∈ paths, loader.refusal? mode path = none) :
    loader.passedOver mode paths =
      if loader.ignoreMissing then paths.filterMap loader.skip? else [] := by
  have hreached : (paths ++ []).takeWhile
        (fun path => (loader.refusal? mode path).isNone) =
      paths ++ [] :=
    List.takeWhile_append_of_pos fun path hpath => by simp [hpassed path hpath]
  rw [List.append_nil] at hreached
  rw [passedOver, hreached]

/-- A run warns of what it passes over before its end, if it is to pass anything
over. -/
theorem exists_ends (loader : Loader) (plan : Plan) (stdin : Stdin)
    (diagnostics : Diagnostics) :
    ∃ passed, loader.Ends plan stdin passed (loader.load plan stdin).result ∧
      diagnostics.recordAll (loader.load plan stdin).events =
        diagnostics.warnAll
          (if loader.ignoreMissing then passed.filterMap loader.skip?
            else []) := by
  rw [result_load, recordAll_load]
  cases hopening : (opening plan stdin).result with
  | error failure =>
      obtain ⟨hreads, reason, hstdin, rfl⟩ := opening_eq_error hopening
      exact ⟨[], .unread hreads hstdin, by simp⟩
  | ok first =>
      cases hrefusal : plan.paths.findSome? (loader.refusal? plan.mode) with
      | some failure =>
          obtain ⟨passed, path, rest, hpaths, hpath, hpassed⟩ :=
            List.findSome?_eq_some_iff.mp hrefusal
          have hreached : (loader.loadPaths plan.mode first passed).result =
              .ok (passed.foldl (loader.take plan.mode) first) :=
            result_loadPaths_of_forall hpassed
          refine ⟨passed, .failed hopening hpaths hreached ?_, ?_⟩
          · rw [result_loadPath, hpath]
          · rw [hpaths, passedOver_append_refused hpassed hpath]
      | none =>
          have hpassed := List.findSome?_eq_none_iff.mp hrefusal
          exact ⟨plan.paths,
            .closed hopening (result_loadPaths_of_forall hpassed),
            by rw [passedOver_of_forall hpassed]⟩

/-! A successful run: nothing was refused, and every path was taken. -/

theorem load_eq_ok {loader : Loader} {plan : Plan} {stdin : Stdin}
    {loaded : Loaded} (h : (loader.load plan stdin).result = .ok loaded) :
    ∃ first, (opening plan stdin).result = .ok first ∧
      (∀ path ∈ plan.paths, loader.refusal? plan.mode path = none) ∧
      loaded = plan.paths.foldl (loader.take plan.mode) first ∧
      loaded.isEmpty = false := by
  rw [result_load] at h
  cases hopening : (opening plan stdin).result with
  | error failure => simp [hopening] at h
  | ok first =>
      cases hrefusal : plan.paths.findSome? (loader.refusal? plan.mode) with
      | some failure => simp [hopening, hrefusal] at h
      | none =>
          simp only [hopening, hrefusal, close] at h
          split at h
          · cases h
          · rename_i hempty
            cases h
            exact ⟨first, rfl, List.findSome?_eq_none_iff.mp hrefusal, rfl,
              by simpa using hempty⟩

theorem load_of_forall {loader : Loader} {plan : Plan} {stdin : Stdin}
    {first : Loaded} (hopening : (opening plan stdin).result = .ok first)
    (hrefusal : ∀ path ∈ plan.paths, loader.refusal? plan.mode path = none)
    (hsome : (plan.paths.foldl (loader.take plan.mode) first).isEmpty = false) :
    (loader.load plan stdin).result =
      .ok (plan.paths.foldl (loader.take plan.mode) first) := by
  rw [result_load, hopening, List.findSome?_eq_none_iff.mpr hrefusal]
  simp only [close, hsome, Bool.false_eq_true, if_false]

theorem file_of_refusal?_eq_none {loader : Loader} {mode : Mode} {path : Text}
    (h : loader.refusal? mode path = none) (hfile : loader.isFile path = true) :
    ∃ bytes, loader.fs.read (loader.naming.nativePath path) = .ok bytes ∧
      loader.content path = Utf8.decodeLossy bytes ∧
      (mode = .compiler → ∃ place,
        loader.fs.canonicalize (loader.naming.nativePath path) = .ok place ∧
        loader.directory path = Sandbox.directoryOf place) := by
  have hkind : loader.fs.kindOf (loader.naming.nativePath path) = .file := by
    simpa [isFile] using hfile
  simp only [refusal?, hkind, fileRefusal?] at h
  cases hread : loader.fs.read (loader.naming.nativePath path) with
  | error reason => simp [hread] at h
  | ok bytes =>
      refine ⟨bytes, rfl, by simp [content, hread, Except.toOption], ?_⟩
      rintro rfl
      cases hplace : loader.fs.canonicalize (loader.naming.nativePath path) with
      | error reason => simp [hread, hplace] at h
      | ok place =>
          exact ⟨place, rfl, by simp [directory, hplace, Except.toOption]⟩

end Loader

end InputResolution
