import InputResolution.Proofs.Source.Independence
import Mathlib.Data.List.Perm.Subperm

namespace InputResolution

/-! What the mode of a request leaves in its resolution.  Main statement: a
document comes from one place and nothing comes with it, and a compiler has
sources, at most one for each input. -/

structure Resolution.IsDocument (resolution : Resolution) : Prop where
  sources : resolution.sources = .empty
  allowedDirectories : resolution.allowedDirectories = .empty
  remappings : resolution.remappings = []
  remappingDirectories : resolution.remappingDirectories = .empty
  standardJson : ∃ document, resolution.standardJson = some document
  input : (resolution.readsStdin = true ∧ resolution.paths = []) ∨
    (resolution.readsStdin = false ∧ ∃ path, resolution.paths = [path])

/-- What holds of the resolution of sources, as they were asked for. -/
structure Resolution.IsCompilation (resolver : Resolver) (options : Options)
    (resolution : Resolution) : Prop where
  standardJson : resolution.standardJson = none
  sources : resolution.sources ≠ .empty
  readsStdin_iff : resolution.readsStdin = true ↔ stdinMarker ∈ options.tokens
  stdinUnitName_mem : resolution.readsStdin = true →
    stdinUnitName ∈ resolution.sources.names
  allowedDirectories_iff : resolution.allowedDirectories = .empty ↔
    ∀ path ∈ resolution.paths,
      resolver.fs.kindOf ((resolver.naming options).nativePath path) ≠ .file
  size_le : resolution.sources.size ≤
    resolution.paths.length + if resolution.readsStdin then 1 else 0

namespace Options

variable {options : Options}

theorem directives_eq_nil (hmode : options.mode = .standardJson)
    (htokens : options.tokensFault? = none) : options.directives = [] := by
  rw [directives, List.filter_eq_nil_iff]
  intro token htoken hdirective
  have hfault := List.findSome?_eq_none_iff.mp htokens token htoken
  rw [Token.fault?_classify, if_pos (of_decide_eq_true hdirective),
    hmode] at hfault
  cases hparse : Remapping.parse? token <;> simp [hparse] at hfault

theorem single_input (hmode : options.mode = .standardJson)
    (hinputs : options.inputsFault? = none) :
    (options.ReadsStdin ∧ options.paths = []) ∨
      (¬ options.ReadsStdin ∧ ∃ path, options.paths = [path]) := by
  simp only [inputsFault?, hmode] at hinputs
  rcases hpaths : options.paths with _ | ⟨path, _ | ⟨other, others⟩⟩
  · exact .inl ⟨.inr ⟨hmode, hpaths⟩, rfl⟩
  · have hmarker : ¬ options.AsksStdin := by simpa [hpaths] using hinputs
    refine .inr ⟨?_, path, rfl⟩
    rintro (hasks | ⟨-, hnil⟩)
    · exact hmarker hasks
    · simp [hpaths] at hnil
  · simp [hpaths] at hinputs

theorem readsStdin_iff_of_compiler (hmode : options.mode = .compiler) :
    options.ReadsStdin ↔ stdinMarker ∈ options.tokens := by
  simp [ReadsStdin, AsksStdin, hmode]

end Options

theorem Native.DirectorySet.foldl_insert_eq_empty_iff {directories : List Text}
    {set : DirectorySet} :
    directories.foldl insert set = empty ↔ directories = [] ∧ set = empty := by
  induction directories generalizing set with
  | nil => simp
  | cons directory directories ih =>
      have hinsert : set.insert directory ≠ empty := by
        intro hempty
        have hcontains := contains_insert set directory directory
        simp [hempty] at hcontains
      simp [ih, hinsert]

namespace Loader

variable {loader : Loader} {plan : Plan} {stdin : Stdin} {loaded : Loaded}

theorem allowedDirectories_eq_empty_iff (hmode : plan.mode = .compiler)
    (h : (loader.load plan stdin).result = .ok loaded) :
    loaded.allowedDirectories = .empty ↔
    ∀ path ∈ plan.paths, ¬ loader.isFile path = true := by
  obtain ⟨first, hopening, -, rfl, -⟩ := load_eq_ok h
  rw [hmode, allowedDirectories_foldl_take, allowedDirectories_opening hopening,
    Native.DirectorySet.foldl_insert_eq_empty_iff, List.map_eq_nil_iff,
    List.filter_eq_nil_iff]
  simp

theorem length_namesRead_le (loader : Loader) (plan : Plan) :
    (loader.namesRead plan).length ≤ plan.paths.length + if plan.readsStdin then
      1 else 0 := by
  have hfiles := List.length_filter_le loader.isFile plan.paths
  rw [namesRead, List.length_append, List.length_map]
  cases plan.readsStdin with
  | false => simpa using hfiles
  | true =>
      simp only [if_true, List.length_singleton]
      omega

theorem HoldsSources.size_le (h : loader.HoldsSources plan stdin loaded) :
    loaded.sources.size ≤ plan.paths.length + if plan.readsStdin then 1
    else 0 := by
  have hsub : loaded.sources.names ⊆ loader.namesRead plan := by
    intro name hname
    rw [h.names] at hname
    exact List.mem_eraseDups.mp hname
  calc
    loaded.sources.size = loaded.sources.names.length := by
      rw [SourceMap.size, SourceMap.names, List.length_map]
    _ ≤ (loader.namesRead plan).length := (h.nodup.subperm hsub).length_le
    _ ≤ _ := loader.length_namesRead_le plan

theorem HoldsSources.stdinUnitName_mem
    (h : loader.HoldsSources plan stdin loaded)
    (hreads : plan.readsStdin = true) :
    stdinUnitName ∈ loaded.sources.names := by
  rw [h.names, List.mem_eraseDups, namesRead, hreads]
  simp

theorem HoldsSources.sources_ne_empty
    (h : loader.HoldsSources plan stdin loaded)
    (hload : (loader.load plan stdin).result = .ok loaded) :
    loaded.sources ≠ .empty := by
  intro hempty
  obtain ⟨-, -, -, -, hsome⟩ := load_eq_ok hload
  rw [Loaded.isEmpty, hempty, h.standardJson] at hsome
  cases hsome

theorem allowedDirectories_of_document (hmode : plan.mode = .standardJson)
    (h : (loader.load plan stdin).result = .ok loaded) :
    loaded.allowedDirectories = .empty := by
  obtain ⟨first, hopening, -, rfl, -⟩ := load_eq_ok h
  rw [hmode, allowedDirectories_foldl_take_standardJson,
    allowedDirectories_opening hopening]

end Loader

namespace Resolver

variable {resolver : Resolver} {options : Options} {stdin : Stdin}
  {resolution : Resolution}

theorem isDocument_of_resolve (hmode : options.mode = .standardJson)
    (h : (resolver.resolve options stdin).result = .ok resolution) :
    resolution.IsDocument := by
  obtain ⟨plan, loaded, hplan, hload, rfl⟩ := resolve_eq_ok h
  obtain ⟨hfault, rfl⟩ := Plan.ofOptions_eq_ok hplan
  obtain ⟨-, htokens, hinputs⟩ := Options.fault?_eq_none_iff.mp hfault
  have hholds := Loader.holdsDocument_of_load hmode hload
  have hremappings : options.remappings = [] := by
    rw [Options.remappings_eq, Options.directives_eq_nil hmode htokens]
    rfl
  refine ⟨hholds.sources, Loader.allowedDirectories_of_document hmode hload,
    hremappings, ?_, ?_, ?_⟩
  · simp only [describe, Options.plan, hremappings]
    rfl
  · obtain ⟨document, hdocument, -⟩ := hholds.standardJson
    exact ⟨document, hdocument⟩
  · simpa [describe, Options.plan] using Options.single_input hmode hinputs

theorem isCompilation_of_resolve (hmode : options.mode = .compiler)
    (h : (resolver.resolve options stdin).result = .ok resolution) :
    resolution.IsCompilation resolver options := by
  obtain ⟨plan, loaded, hplan, hload, rfl⟩ := resolve_eq_ok h
  obtain ⟨-, rfl⟩ := Plan.ofOptions_eq_ok hplan
  have hholds := Loader.holdsSources_of_load hmode hload
  refine ⟨hholds.standardJson, hholds.sources_ne_empty hload, ?_,
    hholds.stdinUnitName_mem, ?_,
    hholds.size_le⟩
  · simpa [describe, Options.plan] using
      Options.readsStdin_iff_of_compiler hmode
  · have hallowed := Loader.allowedDirectories_eq_empty_iff hmode hload
    simpa [describe, Loader.isFile, loader] using hallowed

/-- The mode that is asked for decides which kind of result a resolution has. -/
theorem resolve_by_mode
    (h : (resolver.resolve options stdin).result = .ok resolution) :
    resolution.mode = options.mode ∧
      (options.mode = .standardJson → resolution.IsDocument) ∧
      (options.mode = .compiler →
        resolution.IsCompilation resolver options) := by
  refine ⟨?_, fun hmode => isDocument_of_resolve hmode h,
    fun hmode => isCompilation_of_resolve hmode h⟩
  obtain ⟨plan, loaded, hplan, -, rfl⟩ := resolve_eq_ok h
  exact Plan.mode_ofOptions hplan

theorem resolve_by_mode_plainOptions :
    (∃ resolution,
      (spareResolver.resolve plainOptions (.ok [])).result = .ok resolution ∧
        resolution.sources.size = 3 ∧
        resolution.IsCompilation spareResolver plainOptions) ∧
      (∃ resolution, (spareResolver.resolve
          { plainOptions with mode := .standardJson, tokens := [['f'], ['f']] }
          (.ok [])).result = .ok resolution ∧
        resolution.paths = [['f']] ∧ resolution.IsDocument) ∧
      ∃ resolution, (spareResolver.resolve
          { plainOptions with mode := .standardJson, tokens := [] }
          (.ok [])).result = .ok resolution ∧
        resolution.paths = [] ∧ resolution.IsDocument :=
  ⟨⟨_, rfl, rfl,
    (@resolve_by_mode spareResolver plainOptions (.ok []) _ rfl).2.2 rfl⟩,
    ⟨_, rfl, rfl, (@resolve_by_mode spareResolver
      { plainOptions with mode := .standardJson, tokens := [['f'], ['f']] }
        (.ok []) _ rfl).2.1 rfl⟩,
    ⟨_, rfl, rfl, (@resolve_by_mode spareResolver
      { plainOptions with mode := .standardJson, tokens := [] } (.ok []) _
        rfl).2.1 rfl⟩⟩

end Resolver

end InputResolution
