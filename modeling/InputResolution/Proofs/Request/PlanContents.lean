import InputResolution.Proofs.Native.DirectorySet
import InputResolution.Proofs.Request.Planning
import InputResolution.Proofs.Request.TargetDirectory

namespace InputResolution

open Native (components SpelledFirst)

/-! What a plan holds.  Main statement: of the tokens of its request a plan has
the paths without their repetitions, the remappings with theirs, and the
directories of the targets, of which two spellings are one member and the first
one stays. -/

structure Plan.Gathers (plan : Plan) (options : Options) : Prop where
  mode : plan.mode = options.mode
  paths : plan.paths =
    (options.tokens.filter fun token => NamesPath token).eraseDups
  remappings : plan.remappings.map some =
    (options.tokens.filter fun token => IsDirective token).map Remapping.parse?
  exists_remappingDirectory : ∀ remapping ∈ plan.remappings,
    remapping.target ≠ [] →
      ∃ directory, remapping.directory? = some directory ∧
        ∃ member ∈ plan.remappingDirectories.toList,
          components member = components directory
  mem_remappingDirectories_iff : ∀ directory,
    directory ∈ plan.remappingDirectories.toList ↔
      SpelledFirst (plan.remappings.filterMap Remapping.directory?) directory
  pairwise_remappingDirectories : plan.remappingDirectories.toList.Pairwise
    fun first second => components first ≠ components second
  readsStdin_iff : plan.readsStdin = true ↔
    stdinMarker ∈ options.tokens ∨
      options.mode = .standardJson ∧ plan.paths = []

namespace Options

variable {options : Options}

theorem isSome_parse?_of_tokensFault? (h : options.tokensFault? = none)
    {token : Text} (htoken : token ∈ options.directives) :
    (Remapping.parse? token).isSome = true := by
  obtain ⟨hmem, hdirective⟩ := List.mem_filter.mp htoken
  have hfault := List.findSome?_eq_none_iff.mp h token hmem
  rw [Token.fault?_classify, if_pos (of_decide_eq_true hdirective)] at hfault
  cases hparse : Remapping.parse? token with
  | none => simp [hparse] at hfault
  | some remapping => rfl

theorem map_some_remappings (h : options.tokensFault? = none) :
    options.remappings.map some = options.directives.map Remapping.parse? := by
  rw [remappings_eq, List.map_filterMap_some_eq_filter_map_isSome,
    List.filter_eq_self]
  intro parsed hparsed
  obtain ⟨token, htoken, rfl⟩ := List.mem_map.mp hparsed
  exact isSome_parse?_of_tokensFault? h htoken

end Options

namespace Plan

variable {options : Options} {plan : Plan}

theorem exists_remappingDirectory_of_target {remapping : Remapping}
    (hmem : remapping ∈ options.remappings) (h : remapping.target ≠ []) :
    ∃ directory, remapping.directory? = some directory ∧
      ∃ member ∈ options.plan.remappingDirectories.toList,
        components member = components directory := by
  obtain ⟨directory, hcuts⟩ := exists_cutsOff remapping.target
  have hdirectory := Remapping.directory?_eq_some_iff.mpr ⟨h, hcuts⟩
  refine ⟨directory, hdirectory, ?_⟩
  have hcontains :
      options.plan.remappingDirectories.contains directory = true := by
    rw [Options.plan, Native.DirectorySet.contains_foldl_insert,
      Bool.or_eq_true, List.any_eq_true]
    exact .inr ⟨directory, List.mem_filterMap.mpr ⟨remapping, hmem, hdirectory⟩,
      beq_self_eq_true _⟩
  simpa [Native.DirectorySet.contains] using hcontains

/-- A plan that is made holds what its request asks for and nothing else. -/
theorem gathers_of_ofOptions (h : ofOptions options = .ok plan) :
    plan.Gathers options := by
  obtain ⟨hfault, rfl⟩ := ofOptions_eq_ok h
  obtain ⟨-, htokens, -⟩ := Options.fault?_eq_none_iff.mp hfault
  have hsorted :
      options.plan.remappingDirectories.toList.Pairwise Native.Precedes :=
    Native.DirectorySet.pairwise_foldl_insert _ List.Pairwise.nil
  exact {
    mode := rfl
    paths := rfl
    remappings := Options.map_some_remappings htokens
    exists_remappingDirectory := fun _ => exists_remappingDirectory_of_target
    mem_remappingDirectories_iff :=
      fun _ => Native.DirectorySet.mem_foldl_insert_empty_iff
    pairwise_remappingDirectories := hsorted.imp Native.Precedes.components_ne
    readsStdin_iff := decide_eq_true_iff }

/-- A path given twice, two remappings into one directory that they spell
differently, and one without a target. -/
def respelledOptions : Options where
  mode := .compiler
  ignoreMissing := false
  basePath := none
  includePaths := []
  allowPaths := []
  tokens :=
  [['f'], ['a', '=', 'x', '/', '/', 'q'], ['f'], ['b', '=', 'x', '/', 'r'],
    ['c', '=']]

theorem gathers_of_ofOptions_respelledOptions :
    ∃ plan, ofOptions respelledOptions = .ok plan ∧ plan.paths = [['f']] ∧
      plan.remappings.length = 3 ∧
      plan.remappingDirectories.toList = [['x', '/']] ∧
      plan.Gathers respelledOptions :=
  ⟨_, rfl, by decide, rfl, by decide, gathers_of_ofOptions rfl⟩

end Plan

end InputResolution
