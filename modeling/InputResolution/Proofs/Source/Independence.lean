import InputResolution.Proofs.Source.ResolutionRun
import InputResolution.Proofs.Source.Contents

namespace InputResolution

/-! What a resolution does not depend on.  Main statements: neither the
directories that names are relative to nor the remappings influence what is
read, and tokens of different kinds may be mixed and paths repeated in any
way. -/

inductive Alike (related : α → β → Prop) :
    Except Failure α → Except Failure β → Prop
  | failed (failure : Failure) : Alike related (.error failure) (.error failure)
  | succeeded (h : related first second) : Alike related (.ok first)
      (.ok second)

/-- Two loads that differ in nothing but the names of their sources. -/
structure Loaded.Agree (first second : Loaded) : Prop where
  standardJson : first.standardJson = second.standardJson
  allowedDirectories : first.allowedDirectories = second.allowedDirectories
  isEmpty : first.sources.isEmpty = second.sources.isEmpty

namespace Loader

/-- Loaders that look at the same places in the same way, whatever names they
give. -/
structure LooksAlike (first second : Loader) : Prop where
  fs : first.fs = second.fs
  nativePath : ∀ path,
    first.naming.nativePath path = second.naming.nativePath path
  ignoreMissing : first.ignoreMissing = second.ignoreMissing

namespace LooksAlike

variable {first second : Loader}

theorem isFile_eq (h : first.LooksAlike second) (path : Text) :
    first.isFile path = second.isFile path := by
  simp only [isFile, h.fs, h.nativePath]

theorem content_eq (h : first.LooksAlike second) (path : Text) :
    first.content path = second.content path := by
  simp only [content, h.fs, h.nativePath]

theorem directory_eq (h : first.LooksAlike second) (path : Text) :
    first.directory path = second.directory path := by
  simp only [directory, h.fs, h.nativePath]

theorem refusal?_eq (h : first.LooksAlike second) (mode : Mode) :
    first.refusal? mode = second.refusal? mode := by
  funext path
  simp only [refusal?, fileRefusal?, h.fs, h.nativePath, h.ignoreMissing]

theorem skip?_eq (h : first.LooksAlike second) :
    first.skip? = second.skip? := by
  funext path
  simp only [skip?, h.fs, h.nativePath]

theorem passedOver_eq (h : first.LooksAlike second) (mode : Mode)
    (paths : List Text) :
    first.passedOver mode paths = second.passedOver mode paths := by
  simp only [passedOver, h.ignoreMissing, h.refusal?_eq, h.skip?_eq]

theorem agree_take (h : first.LooksAlike second) (mode : Mode)
    {held other : Loaded} (hagree : held.Agree other) (path : Text) :
    (first.take mode held path).Agree (second.take mode other path) := by
  unfold take
  rw [h.isFile_eq]
  split
  · cases mode with
    | standardJson =>
        exact ⟨by simp only [h.content_eq], hagree.allowedDirectories,
          hagree.isEmpty⟩
    | compiler =>
        exact ⟨hagree.standardJson,
          by simp only [h.directory_eq, hagree.allowedDirectories],
          by simp only [SourceMap.isEmpty_insert]⟩
  · exact hagree

theorem agree_foldl_take (h : first.LooksAlike second) (mode : Mode)
    (paths : List Text) {held other : Loaded} (hagree : held.Agree other) :
    (paths.foldl (first.take mode) held).Agree
        (paths.foldl (second.take mode) other) := by
  induction paths generalizing held other with
  | nil => exact hagree
  | cons path paths ih => exact ih (h.agree_take mode hagree path)

end LooksAlike

theorem opening_congr {plan other : Plan} (hmode : plan.mode = other.mode)
    (hreads : plan.readsStdin = other.readsStdin) (stdin : Stdin) :
    opening plan stdin = opening other stdin := by
  rw [opening, opening, hmode, hreads]

theorem LooksAlike.alike_load {first second : Loader}
    (h : first.LooksAlike second) {plan other : Plan}
    (hmode : plan.mode = other.mode) (hpaths : plan.paths = other.paths)
    (hreads : plan.readsStdin = other.readsStdin) (stdin : Stdin) :
    Alike Loaded.Agree (first.load plan stdin).result
        (second.load other stdin).result := by
  rw [result_load, result_load, opening_congr hmode hreads, hmode, hpaths,
    h.refusal?_eq]
  cases (opening other stdin).result with
  | error failure => exact .failed failure
  | ok start =>
      simp only
      cases other.paths.findSome? (second.refusal? other.mode) with
      | some failure => exact .failed failure
      | none =>
          have hagree := h.agree_foldl_take other.mode other.paths
            (⟨rfl, rfl, rfl⟩ : start.Agree start)
          have hempty :
              (other.paths.foldl (first.take other.mode) start).isEmpty =
                (other.paths.foldl (second.take other.mode) start).isEmpty := by
            rw [Loaded.isEmpty, Loaded.isEmpty, hagree.isEmpty,
              hagree.standardJson]
          rw [close, close, hempty]
          cases (other.paths.foldl (second.take other.mode) start).isEmpty with
          | true => exact .failed _
          | false => exact .succeeded hagree

end Loader

structure Resolution.ReadsAlike (first second : Resolution) : Prop where
  paths : first.paths = second.paths
  readsStdin : first.readsStdin = second.readsStdin
  standardJson : first.standardJson = second.standardJson
  allowedDirectories : first.allowedDirectories = second.allowedDirectories
  permits : ∀ file, Sandbox.permits first.allowedDirectories file =
    Sandbox.permits second.allowedDirectories file

def Options.inputs (options : Options) : List Text :=
  options.tokens.filter fun token => ¬ IsDirective token

theorem Options.paths_eq_of_inputs_eq {first second : Options}
    (h : first.inputs = second.inputs) : first.paths = second.paths := by
  have hpaths (options : Options) :
      options.paths =
        (options.inputs.filter fun token => NamesPath token).eraseDups := by
    rw [inputs, List.filter_filter, paths]
    congr 2
    funext token
    by_cases hdirective : IsDirective token <;> simp [NamesPath, hdirective]
  rw [hpaths, hpaths, h]

theorem Options.readsStdin_plan_of_inputs_eq {first second : Options}
    (hmode : first.mode = second.mode) (h : first.inputs = second.inputs) :
    first.plan.readsStdin = second.plan.readsStdin := by
  have hmarker (options : Options) :
      options.AsksStdin ↔ stdinMarker ∈ options.inputs := by
    simp [AsksStdin, inputs, not_isDirective_stdinMarker]
  rw [plan, plan, decide_eq_decide, ReadsStdin, ReadsStdin, hmarker, hmarker, h,
    hmode, paths_eq_of_inputs_eq h]

namespace Resolver

variable {resolver : Resolver} {first second : Options} {stdin : Stdin}

theorem looksAlike_loader
    (hignore : first.ignoreMissing = second.ignoreMissing) :
    (resolver.loader first).LooksAlike (resolver.loader second) :=
  ⟨rfl, fun _ => rfl, hignore⟩

theorem passedOver_eq_of_inputs_eq (hmode : first.mode = second.mode)
    (hignore : first.ignoreMissing = second.ignoreMissing)
    (hinputs : first.inputs = second.inputs) (hfirst : first.fault? = none)
    (hsecond : second.fault? = none) :
    resolver.passedOver first stdin = resolver.passedOver second stdin := by
  have hopening :
      Loader.opening first.plan stdin = Loader.opening second.plan stdin :=
    Loader.opening_congr hmode
      (Options.readsStdin_plan_of_inputs_eq hmode hinputs) stdin
  rw [passedOver, passedOver, hfirst, hsecond, hopening, hmode,
    Options.paths_eq_of_inputs_eq hinputs,
    (looksAlike_loader hignore).passedOver_eq]

/-- Directories that names are relative to, entries that are allowed by hand and
remappings leave what is read, what it allows and what is said of it as they
are. -/
theorem resolve_reads_alike {firstPlan secondPlan : Plan}
    (hmode : first.mode = second.mode)
    (hignore : first.ignoreMissing = second.ignoreMissing)
    (hinputs : first.inputs = second.inputs)
    (hfirst : Plan.ofOptions first = .ok firstPlan)
    (hsecond : Plan.ofOptions second = .ok secondPlan) :
    Alike Resolution.ReadsAlike (resolver.resolve first stdin).result
        (resolver.resolve second stdin).result ∧
      ∀ prior : Diagnostics,
        prior.recordAll (resolver.resolve first stdin).events =
          prior.recordAll (resolver.resolve second stdin).events := by
  obtain ⟨hfirst, -⟩ := Plan.ofOptions_eq_ok hfirst
  obtain ⟨hsecond, -⟩ := Plan.ofOptions_eq_ok hsecond
  have hpaths := Options.paths_eq_of_inputs_eq hinputs
  have hreads := Options.readsStdin_plan_of_inputs_eq hmode hinputs
  have hresult :
      Alike Resolution.ReadsAlike (resolver.resolve first stdin).result
      (resolver.resolve second stdin).result := by
    have hload : Alike Loaded.Agree
          ((resolver.loader first).load first.plan stdin).result
        ((resolver.loader second).load second.plan stdin).result :=
      (looksAlike_loader hignore).alike_load hmode hpaths hreads stdin
    rw [result_resolve, result_resolve, hfirst, hsecond]
    generalize ((resolver.loader first).load first.plan stdin).result =
      loaded at hload ⊢
    generalize ((resolver.loader second).load second.plan stdin).result =
      other at hload ⊢
    cases hload with
    | failed failure => exact .failed failure
    | succeeded hagree =>
        exact .succeeded
          ⟨hpaths, hreads, hagree.standardJson, hagree.allowedDirectories,
          fun file =>
            congrArg (Sandbox.permits · file) hagree.allowedDirectories⟩
  refine ⟨hresult, fun prior => ?_⟩
  rw [recordAll_resolve, recordAll_resolve,
    passedOver_eq_of_inputs_eq hmode hignore hinputs hfirst hsecond]
  generalize (resolver.resolve first stdin).result = result at hresult ⊢
  generalize (resolver.resolve second stdin).result = other at hresult ⊢
  cases hresult <;> rfl

def spareResolver : Resolver :=
  ⟨Loader.lengthLoader.fs, ['/']⟩

def plainOptions : Options :=
  ⟨.compiler, true, none, [], [],
    [['/', 'b', '/', 'f'], ['x'], ['/', 'd', '/', 'f'], stdinMarker]⟩

/-- The same inputs, with two directories in which both files have one name. -/
def rebasedOptions : Options :=
  ⟨.compiler, true, some ['/', 'b'], [['/', 'd']], [['/']],
    [['p', '=', '/'], ['/', 'b', '/', 'f'], ['x'], ['/', 'd', '/', 'f'],
      ['q', '='], stdinMarker]⟩

theorem resolve_reads_alike_rebased :
    (∃ resolution,
      (spareResolver.resolve plainOptions (.ok [])).result = .ok resolution ∧
        resolution.sources.names =
          [stdinUnitName, ['b', '/', 'f'], ['d', '/', 'f']]) ∧
      (∃ resolution, (spareResolver.resolve rebasedOptions (.ok [])).result =
        .ok resolution ∧
        resolution.sources.names = [stdinUnitName, ['f']]) ∧
      Alike Resolution.ReadsAlike
          (spareResolver.resolve plainOptions (.ok [])).result
        (spareResolver.resolve rebasedOptions (.ok [])).result :=
  ⟨⟨_, rfl, rfl⟩, ⟨_, rfl, rfl⟩,
    (@resolve_reads_alike _ plainOptions rebasedOptions _ _ _ rfl rfl
      (by decide) rfl rfl).1⟩

theorem resolve_eq_of_ofOptions {options : Options} {first second : List Text}
    (h : Plan.ofOptions { options with tokens := first } =
      Plan.ofOptions { options with tokens := second }) :
    resolver.resolve { options with tokens := first } stdin =
      resolver.resolve { options with tokens := second } stdin :=
  resolver.resolve_congr h rfl rfl rfl stdin

/-- Nothing tells two orders of the tokens apart that keep the paths in the
order of their first occurrences and the remappings in their order, however the
kinds are mixed. -/
theorem resolve_of_same_tokens (options : Options) {first second : List Text}
    (hpaths : (first.filter fun token => NamesPath token).eraseDups =
      (second.filter fun token => NamesPath token).eraseDups)
    (hdirectives : (first.filter fun token => IsDirective token) =
      second.filter fun token => IsDirective token)
    (hstdin : stdinMarker ∈ first ↔ stdinMarker ∈ second)
    (prior : Diagnostics) :
    (resolver.resolve { options with tokens := first } stdin).result =
        (resolver.resolve { options with tokens := second } stdin).result ∧
      prior.recordAll
          (resolver.resolve { options with tokens := first } stdin).events =
        prior.recordAll
          (resolver.resolve { options with tokens := second }
            stdin).events := by
  have hplan : Plan.ofOptions { options with tokens := first } =
      Plan.ofOptions { options with tokens := second } :=
    Plan.ofOptions_congr rfl rfl rfl hpaths hdirectives hstdin
  rw [resolve_eq_of_ofOptions hplan]
  exact ⟨rfl, rfl⟩

theorem resolve_of_same_tokens_plainOptions :
    (∃ resolution, (spareResolver.resolve
        { plainOptions with
          tokens := [['p', '=', '/'], ['a'], ['x'], stdinMarker, ['a']] }
        (.ok [])).result = .ok resolution) ∧
      (spareResolver.resolve
          { plainOptions with
            tokens := [['p', '=', '/'], ['a'], ['x'], stdinMarker, ['a']] }
          (.ok [])).result =
        (spareResolver.resolve
          { plainOptions with tokens :=
            [stdinMarker, ['a'], stdinMarker, ['p', '=', '/'], ['x']] }
          (.ok [])).result :=
  ⟨⟨_, rfl⟩,
    (resolve_of_same_tokens plainOptions (by decide) (by decide) (by decide)
      .empty).1⟩

end Resolver

end InputResolution
