import InputResolution.Proofs.Source.ResolutionRun

namespace InputResolution

/-! Which failure a resolution ends with.  It goes through six stages, and the
first three of them look at the options alone.  Main statement: the first stage
that fails decides, among tokens and among paths the first at fault; a
resolution in which no stage fails succeeds. -/

inductive Mode.Rejects (mode : Mode) (token : Text) : Failure → Prop
  | unparsed (hdirective : IsDirective token)
      (hparse : Remapping.parse? token = none) :
      Rejects mode token (.invalidRemapping token)
  | unwelcome (hdirective : IsDirective token)
      (hparse : Remapping.parse? token = some parsed)
      (hmode : mode = .standardJson) : Rejects mode token
        .remappingInStandardJson

theorem Mode.rejects_iff (mode : Mode) (token : Text) (failure : Failure) :
    mode.Rejects token failure ↔
    (Token.classify token).fault? mode = some failure := by
  rw [Token.fault?_classify]
  constructor
  · rintro (⟨hdirective, hparse⟩ | ⟨hdirective, hparse, rfl⟩) <;>
      rw [if_pos hdirective, hparse]
  · intro h
    split at h
    · rename_i hdirective
      split at h
      · cases h
        exact .unparsed hdirective ‹_›
      · cases h
        exact .unwelcome hdirective ‹_› rfl
      · cases h
    · cases h

inductive Loader.Refuses (loader : Loader) (mode : Mode) (path : Text) :
    Failure → Prop
  | missing
      (hkind : loader.fs.kindOf (loader.naming.nativePath path) = .missing)
      (hignore : loader.ignoreMissing = false) : Refuses loader mode path
        (.notFound path)
  | other (hkind : loader.fs.kindOf (loader.naming.nativePath path) = .other)
      (hignore : loader.ignoreMissing = false) : Refuses loader mode path
        (.notAValidFile path)
  | unread (hkind : loader.fs.kindOf (loader.naming.nativePath path) = .file)
      (hread : loader.fs.read (loader.naming.nativePath path) = .error reason) :
      Refuses loader mode path (.readFailed path reason)
  | unplaced (hkind : loader.fs.kindOf (loader.naming.nativePath path) = .file)
      (hread : loader.fs.read (loader.naming.nativePath path) = .ok bytes)
      (hmode : mode = .compiler)
      (hplace : loader.fs.canonicalize (loader.naming.nativePath path) =
        .error reason) :
      Refuses loader mode path (.readFailed path reason)

theorem Loader.refuses_iff (loader : Loader) (mode : Mode) (path : Text)
    (failure : Failure) :
    loader.Refuses mode path failure ↔
    loader.refusal? mode path = some failure := by
  constructor
  · rintro (⟨hkind, hignore⟩ | ⟨hkind, hignore⟩ | ⟨hkind, hread⟩
      | ⟨hkind, hread, rfl, hplace⟩)
    · simp [refusal?, hkind, hignore]
    · simp [refusal?, hkind, hignore]
    · simp [refusal?, fileRefusal?, hkind, hread]
    · simp [refusal?, fileRefusal?, hkind, hread, hplace]
  · intro h
    unfold refusal? at h
    split at h
    · rename_i hkind
      unfold fileRefusal? at h
      split at h
      · cases h
        exact .unread hkind ‹_›
      · cases h
        exact .unplaced hkind ‹_› rfl ‹_›
      · cases h
    · cases h
      exact .missing ‹_› ‹_›
    · cases h
      exact .other ‹_› ‹_›
    · cases h

inductive Stage where
  | directories
  | tokens
  | inputs
  | stdin
  | paths
  | sources
  deriving DecidableEq, Repr

def Stage.ofOptions : List Stage :=
  [.directories, .tokens, .inputs]

def Stage.all : List Stage :=
  Stage.ofOptions ++ [.stdin, .paths, .sources]

namespace Resolver

/-- How each stage fails, wherever the others stand. -/
inductive Fails (resolver : Resolver) (options : Options) (stdin : Stdin) :
    Stage → Failure → Prop
  | baseless (hincludes : options.includePaths ≠ [])
      (hbase : options.basePath = none ∨ options.basePath = some []) :
      Fails resolver options stdin .directories .includePathWithoutBasePath
  | rejected {failure : Failure}
      (hfirst : FirstFault options.mode.Rejects options.tokens failure) :
      Fails resolver options stdin .tokens failure
  | crowded (hmode : options.mode = .standardJson)
      (hfirst : first ∈ options.tokens)
      (hpath : NamesPath first) (hsecond : second ∈ options.tokens)
      (hother : second = stdinMarker ∨ NamesPath second ∧ second ≠ first) :
      Fails resolver options stdin .inputs .tooManyStandardJsonInputs
  | idle (hmode : options.mode = .compiler)
      (hpaths : ∀ token ∈ options.tokens, ¬ NamesPath token)
      (hstdin : stdinMarker ∉ options.tokens) :
      Fails resolver options stdin .inputs .noInputFiles
  | unread (hreads : options.ReadsStdin) (hstdin : stdin = .error reason) :
      Fails resolver options stdin .stdin (.stdinReadFailed reason)
  | refused {failure : Failure}
      (hfirst : FirstFault ((resolver.loader options).Refuses options.mode)
        options.paths failure) :
      Fails resolver options stdin .paths failure
  | skipped (hreads : ¬ options.ReadsStdin)
      (hpaths : ∀ path ∈ options.paths,
        (resolver.loader options).isFile path = false) :
      Fails resolver options stdin .sources .allInputsSkipped

def fault? (resolver : Resolver) (options : Options) (stdin : Stdin) :
    Stage → Option Failure
  | .directories => options.directoriesFault?
  | .tokens => options.tokensFault?
  | .inputs => options.inputsFault?
  | .stdin =>
      match stdin with
      | .error reason =>
          if options.ReadsStdin then some (.stdinReadFailed reason) else none
      | .ok _ => none
  | .paths =>
      options.paths.findSome? ((resolver.loader options).refusal? options.mode)
  | .sources =>
      if options.ReadsStdin ∨
      options.paths.any (resolver.loader options).isFile then none
      else some .allInputsSkipped

variable {resolver : Resolver} {options : Options} {stdin : Stdin}
  {failure : Failure}

theorem fails_directories_iff :
    resolver.Fails options stdin .directories failure ↔
      options.directoriesFault? = some failure := by
  rw [Options.directoriesFault?_eq_some_iff]
  constructor
  · intro h
    cases h with
    | baseless hincludes hbase => exact ⟨rfl, hincludes, hbase⟩
  · rintro ⟨rfl, hincludes, hbase⟩
    exact .baseless hincludes hbase

theorem fails_tokens_iff :
    resolver.Fails options stdin .tokens failure ↔
    options.tokensFault? = some failure := by
  rw [Options.tokensFault?, ← firstFault_iff options.mode.rejects_iff]
  constructor
  · intro h
    cases h with
    | rejected hfirst => exact hfirst
  · exact .rejected

theorem fails_inputs_iff :
    resolver.Fails options stdin .inputs failure ↔
    options.inputsFault? = some failure := by
  rw [Options.inputsFault?_eq_some_iff]
  constructor
  · intro h
    cases h with
    | crowded hmode hfirst hpath hsecond hother =>
        exact .inl ⟨hmode, rfl,
          Options.exists_two_inputs_iff.mp
            ⟨_, hfirst, hpath, _, hsecond, hother⟩⟩
    | idle hmode hpaths hstdin =>
        exact .inr ⟨hmode, rfl, Options.paths_eq_nil_iff.mpr hpaths, hstdin⟩
  · rintro (⟨hmode, rfl, hpaths⟩ | ⟨hmode, rfl, hpaths, hstdin⟩)
    · obtain ⟨first, hfirst, hpath, second, hsecond, hother⟩ :=
        Options.exists_two_inputs_iff.mpr hpaths
      exact .crowded hmode hfirst hpath hsecond hother
    · exact .idle hmode (Options.paths_eq_nil_iff.mp hpaths) hstdin

theorem fails_stdin_iff :
    resolver.Fails options stdin .stdin failure ↔
      resolver.fault? options stdin .stdin = some failure := by
  constructor
  · intro h
    cases h with
    | unread hreads hstdin =>
        rw [hstdin]
        exact if_pos hreads
  · intro h
    unfold fault? at h
    cases hstdin : stdin with
    | ok bytes => simp [hstdin] at h
    | error reason =>
        simp only [hstdin, Option.ite_none_right_eq_some,
          Option.some.injEq] at h
        exact h.2 ▸ .unread h.1 rfl

theorem fails_paths_iff :
    resolver.Fails options stdin .paths failure ↔
      resolver.fault? options stdin .paths = some failure := by
  rw [fault?,
    ← firstFault_iff ((resolver.loader options).refuses_iff options.mode)]
  constructor
  · intro h
    cases h with
    | refused hfirst => exact hfirst
  · exact .refused

theorem fails_sources_iff :
    resolver.Fails options stdin .sources failure ↔
      resolver.fault? options stdin .sources = some failure := by
  constructor
  · intro h
    cases h with
    | skipped hreads hpaths => exact if_neg (by simpa [hreads] using hpaths)
  · intro h
    rw [fault?] at h
    split at h
    · cases h
    · rename_i hnothing
      cases h
      rw [not_or] at hnothing
      exact .skipped hnothing.1 (by simpa using hnothing.2)

theorem fails_iff (resolver : Resolver) (options : Options) (stdin : Stdin)
    (stage : Stage) (failure : Failure) :
    resolver.Fails options stdin stage failure ↔
      resolver.fault? options stdin stage = some failure := by
  cases stage with
  | directories => exact fails_directories_iff
  | tokens => exact fails_tokens_iff
  | inputs => exact fails_inputs_iff
  | stdin => exact fails_stdin_iff
  | paths => exact fails_paths_iff
  | sources => exact fails_sources_iff

/-! The run against its stages. -/

def failure? : Except Failure α → Option Failure
  | .error failure => some failure
  | .ok _ => none

theorem failure?_eq_some_iff {result : Except Failure α} :
    failure? result = some failure ↔ result = .error failure := by
  cases result <;> simp [failure?]

theorem failure?_eq_none_iff {result : Except Failure α} :
    failure? result = none ↔ ∃ value, result = .ok value := by
  cases result <;> simp [failure?]

theorem findSome?_ofOptions (resolver : Resolver) (options : Options)
    (stdin : Stdin) :
    Stage.ofOptions.findSome? (resolver.fault? options stdin) =
      options.fault? := by
  simp only [Stage.ofOptions, List.findSome?_cons, List.findSome?_nil, fault?,
    Options.fault?]
  cases options.directoriesFault? <;> cases options.tokensFault? <;>
    cases options.inputsFault? <;> rfl

theorem fault?_stdin_of_opening {first : Loaded}
    (h : (Loader.opening options.plan stdin).result = .ok first) :
    resolver.fault? options stdin .stdin = none := by
  rcases Loader.opening_eq_ok h with ⟨hreads, -⟩ | ⟨-, bytes, rfl, -⟩
  · have hreads : ¬ options.ReadsStdin := by simpa [Options.plan] using hreads
    cases stdin <;> simp [fault?, hreads]
  · rfl

theorem failure?_close (resolver : Resolver) {first : Loaded}
    (h : (Loader.opening options.plan stdin).result = .ok first) :
    failure? (Loader.close
        (options.paths.foldl ((resolver.loader options).take options.mode)
            first)) =
      resolver.fault? options stdin .sources := by
  rw [Loader.close, Loader.isEmpty_foldl_take, Loader.isEmpty_opening h, fault?]
  by_cases hreads : options.ReadsStdin <;>
    cases options.paths.any (resolver.loader options).isFile <;>
      simp [Options.plan, hreads, failure?]

theorem failure?_load (resolver : Resolver) (options : Options)
    (stdin : Stdin) :
    failure? ((resolver.loader options).load options.plan stdin).result =
      [Stage.stdin, .paths, .sources].findSome?
          (resolver.fault? options stdin) := by
  rw [Loader.result_load]
  cases hopening : (Loader.opening options.plan stdin).result with
  | error failure =>
      obtain ⟨hreads, reason, rfl, rfl⟩ := Loader.opening_eq_error hopening
      have hstdin : resolver.fault? options (.error reason) .stdin =
          some (.stdinReadFailed reason) :=
        if_pos (by simpa [Options.plan] using hreads)
      rw [List.findSome?_cons, hstdin, failure?]
  | ok first =>
      have hpaths : resolver.fault? options stdin .paths =
          options.plan.paths.findSome?
              ((resolver.loader options).refusal? options.plan.mode) := rfl
      rw [List.findSome?_cons, fault?_stdin_of_opening hopening,
        List.findSome?_cons, hpaths]
      simp only
      cases options.plan.paths.findSome?
          ((resolver.loader options).refusal? options.plan.mode) with
      | some failure => rfl
      | none =>
          rw [List.findSome?_singleton, ← failure?_close resolver hopening]
          rfl

theorem failure?_resolve (resolver : Resolver) (options : Options)
    (stdin : Stdin) :
    failure? (resolver.resolve options stdin).result =
      Stage.all.findSome? (resolver.fault? options stdin) := by
  rw [Stage.all, List.findSome?_append, findSome?_ofOptions, result_resolve,
    ← failure?_load]
  cases options.fault? with
  | some failure => rfl
  | none =>
      cases ((resolver.loader options).load options.plan stdin).result with
      | error failure => rfl
      | ok loaded => rfl

theorem fault?_of_firstFault
    (h : FirstFault (resolver.Fails options stdin) Stage.ofOptions failure) :
    options.fault? = some failure := by
  rw [← findSome?_ofOptions resolver options stdin]
  exact (firstFault_iff (resolver.fails_iff options stdin)).mp h

theorem resolve_of_fault? (h : options.fault? = some failure)
    (resolver : Resolver) (stdin : Stdin) (prior : Diagnostics) :
    (resolver.resolve options stdin).result = .error failure ∧
      prior.recordAll (resolver.resolve options stdin).events =
        prior.fail failure := by
  have hresult : (resolver.resolve options stdin).result = .error failure := by
    rw [result_resolve, h]
  have hnothing : resolver.passedOver options stdin = [] := if_pos (by simp [h])
  refine ⟨hresult, ?_⟩
  rw [recordAll_resolve, hresult, hnothing, Diagnostics.warnAll_nil]

/-- The first stage that fails gives a resolution its failure, and without one
it succeeds.  What is wrong with the options alone is found before anything is
looked at, so that nothing else is said. -/
theorem resolve_by_stages (resolver : Resolver) (options : Options)
    (stdin : Stdin) (prior : Diagnostics) :
    (∀ failure, (resolver.resolve options stdin).result = .error failure ↔
        FirstFault (resolver.Fails options stdin) Stage.all failure) ∧
      ((∃ resolution,
        (resolver.resolve options stdin).result = .ok resolution) ↔
        ∀ stage failure, ¬ resolver.Fails options stdin stage failure) ∧
      (∀ failure,
        FirstFault (resolver.Fails options stdin) Stage.ofOptions failure →
          ∀ (other : Resolver) (otherStdin : Stdin),
            (other.resolve options otherStdin).result = .error failure ∧
              prior.recordAll (other.resolve options otherStdin).events =
                prior.fail failure) ∧
      ∀ failure, (resolver.resolve options stdin).result = .error failure →
        ∃ skips, prior.recordAll (resolver.resolve options stdin).events =
          (prior.warnAll skips).fail failure := by
  have hall (stage : Stage) : stage ∈ Stage.all := by
    cases stage <;> decide
  refine ⟨?_, ?_, ?_, ?_⟩
  · intro failure
    rw [← failure?_eq_some_iff, failure?_resolve,
      firstFault_iff (resolver.fails_iff options stdin)]
  · rw [← failure?_eq_none_iff, failure?_resolve,
      ← faultless_iff (resolver.fails_iff options stdin)]
    exact ⟨fun h stage => h stage (hall stage), fun h stage _ => h stage⟩
  · intro failure hfirst other otherStdin
    exact resolve_of_fault? (fault?_of_firstFault hfirst) other otherStdin prior
  · intro failure hfailure
    exact ⟨resolver.passedOver options stdin,
      by rw [recordAll_resolve, hfailure]⟩

def emptyDisk : Disk.FileSystem :=
  ⟨fun _ => .error [], fun _ => .missing, fun _ => .error []⟩

def crowdedOptions : Options :=
  ⟨.standardJson, false, none, [], [],
    [['a', '=', 'b'], ['=', 'c'], ['p'], stdinMarker]⟩

theorem resolve_by_stages_emptyDisk :
    FirstFault ((make emptyDisk ['/']).Fails crowdedOptions (.error []))
        Stage.all .remappingInStandardJson ∧
      FirstFault
        ((make emptyDisk ['/']).Fails { crowdedOptions with mode := .compiler }
          (.error []))
        Stage.all (.invalidRemapping ['=', 'c']) ∧
      FirstFault
        ((make emptyDisk ['/']).Fails { crowdedOptions with tokens := [['p']] }
          (.error []))
        Stage.all (.notFound ['p']) ∧
      ∀ stage failure,
        ¬ (make emptyDisk ['/']).Fails { crowdedOptions with tokens := [] }
          (.ok []) stage failure :=
  ⟨((resolve_by_stages _ _ _ .empty).1 _).mp rfl,
    ((resolve_by_stages _ _ _ .empty).1 _).mp rfl,
    ((resolve_by_stages _ _ _ .empty).1 _).mp rfl,
    (resolve_by_stages _ _ _ .empty).2.1.mp ⟨_, rfl⟩⟩

end Resolver

end InputResolution
