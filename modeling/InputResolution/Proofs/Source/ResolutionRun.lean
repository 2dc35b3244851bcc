import InputResolution.Proofs.Request.Planning
import InputResolution.Proofs.Source.Taken
import InputResolution.Source.Resolution

namespace InputResolution.Resolver

/-! A whole resolution in closed form, and what a successful one took its answer
from. -/

theorem result_resolve (resolver : Resolver) (options : Options)
    (stdin : Stdin) :
    (resolver.resolve options stdin).result =
      match options.fault? with
      | some failure => .error failure
      | none =>
          match ((resolver.loader options).load options.plan stdin).result with
          | .error failure => .error failure
          | .ok loaded =>
              .ok (describe options (resolver.naming options) options.plan
                loaded) := by
  have hattempt : (resolver.resolve options stdin).result =
      (resolver.attempt options stdin).result := by
    unfold resolve
    cases hresult : (resolver.attempt options stdin).result with
    | error failure => simp [hresult]
    | ok resolution => simp [hresult]
  rw [hattempt, attempt, Plan.ofOptions_eq]
  cases options.fault? with
  | some failure => rfl
  | none =>
      simp only [Traced.andThen_ok, Traced.result_andThen]
      cases ((resolver.loader options).load options.plan stdin).result <;> rfl

/-- What a resolution warns of.  A request that is refused leaves nothing to
warn of, and neither does standard input that cannot be read. -/
def passedOver (resolver : Resolver) (options : Options) (stdin : Stdin) :
    List Skip :=
  if options.fault?.isSome then []
  else
    match (Loader.opening options.plan stdin).result with
    | .error _ => []
    | .ok _ => (resolver.loader options).passedOver options.mode options.paths

theorem recordAll_attempt (resolver : Resolver) (options : Options)
    (stdin : Stdin) (prior : Diagnostics) :
    prior.recordAll (resolver.attempt options stdin).events =
      prior.warnAll (resolver.passedOver options stdin) := by
  rw [attempt, Plan.ofOptions_eq, passedOver]
  cases options.fault? with
  | some failure => simp
  | none =>
      have hload :=
        Loader.recordAll_load prior (resolver.loader options) options.plan stdin
      simp only [Traced.andThen_ok, Traced.events_andThen,
        Diagnostics.recordAll_append, Option.isSome_none, Bool.false_eq_true,
        if_false]
      trans prior.recordAll
        ((resolver.loader options).load options.plan stdin).events
      · cases ((resolver.loader options).load options.plan stdin).result with
        | error failure => rfl
        | ok loaded =>
            simp only [Diagnostics.recordAll_append]
            rfl
      · rw [hload]
        cases (Loader.opening options.plan stdin).result with
        | error failure => simp
        | ok first => rfl

theorem recordAll_resolve (resolver : Resolver) (options : Options)
    (stdin : Stdin) (prior : Diagnostics) :
    prior.recordAll (resolver.resolve options stdin).events =
      match (resolver.resolve options stdin).result with
      | .error failure =>
          (prior.warnAll (resolver.passedOver options stdin)).fail failure
      | .ok _ => prior.warnAll (resolver.passedOver options stdin) := by
  have hattempt := recordAll_attempt resolver options stdin prior
  unfold resolve
  cases hresult : (resolver.attempt options stdin).result with
  | error failure =>
      have hfailed (diagnostics : Diagnostics) :
          diagnostics.recordAll [.failed failure] = diagnostics.fail failure :=
        rfl
      simp [hresult, hattempt, hfailed]
  | ok resolution => simpa [hresult] using hattempt

/-- Beside its plan, a resolution depends on the names it gives, on whether
missing inputs are ignored, and on the entries that are allowed by hand. -/
theorem resolve_congr (resolver : Resolver) {first second : Options}
    (hplan : Plan.ofOptions first = Plan.ofOptions second)
    (hnaming : resolver.naming first = resolver.naming second)
    (hignore : first.ignoreMissing = second.ignoreMissing)
    (hallow : first.allowPaths = second.allowPaths) (stdin : Stdin) :
    resolver.resolve first stdin = resolver.resolve second stdin := by
  have hloader : resolver.loader first = resolver.loader second := by
    rw [loader, loader, hnaming, hignore]
  have hdescribe : describe first = describe second := by
    funext naming plan loaded
    rw [describe, describe, hallow]
  have hattempt :
      resolver.attempt first stdin = resolver.attempt second stdin := by
    rw [attempt, attempt, hplan, hloader, hdescribe, hnaming]
  rw [resolve, resolve, hattempt]

theorem resolve_eq_ok {resolver : Resolver} {options : Options} {stdin : Stdin}
    {resolution : Resolution}
    (h : (resolver.resolve options stdin).result = .ok resolution) :
    ∃ plan loaded, Plan.ofOptions options = .ok plan ∧
      ((resolver.loader options).load plan stdin).result = .ok loaded ∧
      resolution = describe options (resolver.naming options) plan loaded := by
  rw [result_resolve] at h
  cases hfault : options.fault? with
  | some failure => simp [hfault] at h
  | none =>
      cases hload : ((resolver.loader options).load options.plan
        stdin).result with
      | error failure => simp [hfault, hload] at h
      | ok loaded =>
          refine ⟨options.plan, loaded, by rw [Plan.ofOptions_eq, hfault],
            hload, ?_⟩
          simpa [hfault, hload] using h.symm

theorem taken_of_resolve {resolver : Resolver} {options : Options}
    {stdin : Stdin} {resolution : Resolution} (hmode : options.mode = .compiler)
    (h : (resolver.resolve options stdin).result = .ok resolution) :
    (∀ path ∈ resolution.paths,
      (resolver.loader options).refusal? .compiler path = none) ∧
      ∃ first, first.allowedDirectories = .empty ∧
        resolution.sources = (resolution.paths.foldl
          ((resolver.loader options).take .compiler) first).sources ∧
        resolution.allowedDirectories = (resolution.paths.foldl
          ((resolver.loader options).take .compiler)
              first).allowedDirectories := by
  obtain ⟨plan, loaded, hplan, hload, rfl⟩ := resolve_eq_ok h
  obtain ⟨first, hopening, hrefusal, rfl, -⟩ := Loader.load_eq_ok hload
  rw [(Plan.mode_ofOptions hplan).trans hmode] at hrefusal
  refine ⟨hrefusal, first, Loader.allowedDirectories_opening hopening, ?_, ?_⟩
  · simp only [describe, Plan.mode_ofOptions hplan, hmode]
  · simp only [describe, Plan.mode_ofOptions hplan, hmode]

end InputResolution.Resolver
