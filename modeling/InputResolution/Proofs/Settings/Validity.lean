import InputResolution.Command.Options
import InputResolution.Proofs.Command.Given
import InputResolution.Proofs.Request.Planning
import InputResolution.Settings.Reading

namespace InputResolution

/-! What the check of settings is good for.  A request is made of arguments over
settings, and its include paths need a base path.  Main statement: settings pass
the check exactly where a request over them lacks a base path by its arguments
alone, and settings that are loaded pass it. -/

open Command (Arguments Setting)

/-- The arguments leave include paths without a base path: they empty it, or
they bring include paths where neither side has one. -/
def Command.Arguments.StrandsIncludePaths (arguments : Arguments)
    (defaults : InputDefaults) : Prop :=
  (arguments.basePath = some [] ∧
    (defaults.includePaths ≠ [] ∨ arguments.includePaths ≠ [])) ∨
    (arguments.basePath = .none ∧ defaults.basePath = .none ∧
      arguments.includePaths ≠ [])

namespace Settings

/-- A request over the settings fails for its include paths by what the
arguments say, and so never on a line that names neither a base path nor include
paths. -/
structure DefersToArguments (settings : Settings) : Prop where
  fails_iff : ∀ arguments : Arguments,
    Plan.ofOptions (arguments.options settings.input) =
      .error .includePathWithoutBasePath ↔
      arguments.StrandsIncludePaths settings.input
  spares : ∀ line arguments, Arguments.parse line = .ok arguments →
    ¬ Setting.IsNamedOn .basePath line → ¬ Setting.IsNamedOn .includePath line →
    Plan.ofOptions (arguments.options settings.input) ≠
      .error .includePathWithoutBasePath

variable {settings : Settings}

theorem problem?_eq_none_iff :
    settings.problem? = none ↔ settings.input.basePath ≠ some [] ∧
      (settings.input.basePath = none → settings.input.includePaths = []) := by
  by_cases hempty : settings.input.basePath = some []
  · simp [problem?, hempty]
  · cases hbase : settings.input.basePath <;> simp_all [problem?]

theorem problem?_default : Settings.default.problem? = none :=
  problem?_eq_none_iff.mpr ⟨nofun, fun _ => rfl⟩

theorem problem?_of_load {fs : Disk.FileSystem} {file place : Text}
    (h : load fs file place = .ok settings) : settings.problem? = none := by
  unfold load at h
  split at h
  · cases h
    exact problem?_default
  · split at h
    · cases h
    · split at h
      · cases h
      · split at h
        · cases h
        · rename_i hproblem
          cases h
          exact hproblem

theorem ofOptions_options_iff (arguments : Arguments) :
    Plan.ofOptions (arguments.options settings.input) =
      .error .includePathWithoutBasePath ↔
      (settings.input.includePaths ≠ [] ∨ arguments.includePaths ≠ []) ∧
        (arguments.basePath.or settings.input.basePath = none ∨
          arguments.basePath.or settings.input.basePath = some []) := by
  rw [Plan.ofOptions_eq_error_iff,
    Options.fault?_eq_some_includePathWithoutBasePath_iff]
  simp only [Arguments.options, ne_eq, List.append_eq_nil_iff, not_and_or]

theorem ofOptions_options_iff_strands (h : settings.problem? = none)
    (arguments : Arguments) :
    Plan.ofOptions (arguments.options settings.input) =
      .error .includePathWithoutBasePath ↔
      arguments.StrandsIncludePaths settings.input := by
  obtain ⟨hnonempty, hbased⟩ := problem?_eq_none_iff.mp h
  rw [ofOptions_options_iff, Arguments.StrandsIncludePaths]
  cases harguments : arguments.basePath with
  | some path => simp [and_comm]
  | none =>
      cases hdefault : settings.input.basePath with
      | none => simp [hbased hdefault]
      | some path =>
          have hpath : path ≠ [] := fun hnil => hnonempty (hnil ▸ hdefault)
          simp [hpath]

theorem not_strandsIncludePaths_of_parse {line : List Text}
    {arguments : Arguments} (h : Arguments.parse line = .ok arguments)
    (hbase : ¬ Setting.IsNamedOn .basePath line)
    (hinclude : ¬ Setting.IsNamedOn .includePath line)
    (defaults : InputDefaults) :
    ¬ arguments.StrandsIncludePaths defaults := by
  rw [← Command.gives_parse_iff h] at hbase hinclude
  have hbase : arguments.basePath = none := by
    simpa [Arguments.Gives, Arguments.values] using hbase
  have hinclude : arguments.includePaths = [] := by
    simpa [Arguments.Gives, Arguments.values] using hinclude
  simp [Arguments.StrandsIncludePaths, hbase, hinclude]

theorem defersToArguments_of_problem?_eq_none (h : settings.problem? = none) :
    settings.DefersToArguments where
  fails_iff := ofOptions_options_iff_strands h
  spares := fun _ arguments hparse hbase hinclude hfails =>
    not_strandsIncludePaths_of_parse hparse hbase hinclude settings.input
      ((ofOptions_options_iff_strands h arguments).mp hfails)

theorem DefersToArguments.problem?_eq_none (h : settings.DefersToArguments) :
    settings.problem? = none := by
  have hfails (arguments : Arguments) :=
    (ofOptions_options_iff arguments).symm.trans (h.fails_iff arguments)
  -- An empty base path shows under one include path, include paths alone under
  -- no arguments.
  refine problem?_eq_none_iff.mpr ⟨fun hempty => ?_, fun hbase => ?_⟩
  · have hprobe := hfails { Arguments.none with includePaths := [[]] }
    simp [Arguments.none, Arguments.StrandsIncludePaths, hempty] at hprobe
  · have hprobe := hfails Arguments.none
    simpa [Arguments.none, Arguments.StrandsIncludePaths, hbase] using hprobe

/-- The check turns down the settings that would fail by themselves, and no
others. -/
theorem problem?_iff_defersToArguments (settings : Settings) :
    (settings.problem? = none ↔ settings.DefersToArguments) ∧
      ∀ fs file place, load fs file place = .ok settings →
        settings.problem? = none :=
  ⟨⟨defersToArguments_of_problem?_eq_none, DefersToArguments.problem?_eq_none⟩,
    fun _ _ _ => problem?_of_load⟩

def basedDisk : Disk.FileSystem where
  canonicalize := .ok
  kindOf _ := .file
  read _ :=
    .ok ("[input]\nbase_path=\"b\"\ninclude_paths=[\"i\"]".toList.map fun c =>
      c.toNat.toUInt8)

def basedSettings : Settings :=
  ⟨⟨false, some ['b'], [['i']], []⟩, defaultLogFilter⟩

/-- The empty base path that an argument gives wins over the one in the settings
file. -/
theorem problem?_iff_defersToArguments_basedSettings :
    load basedDisk ['s'] ['s'] = .ok basedSettings ∧
      Arguments.parse ["--base-path=".toList, ['f']] =
        .ok ⟨false, false, some [], [], [], none, [['f']]⟩ ∧
      Plan.ofOptions
          (Arguments.options ⟨false, false, some [], [], [], none, [['f']]⟩
            basedSettings.input) = .error .includePathWithoutBasePath ∧
      ¬ Setting.IsNamedOn .basePath [['f']] ∧
      ¬ Setting.IsNamedOn .includePath [['f']] ∧
      Plan.ofOptions
          (Arguments.options ⟨false, false, none, [], [], none, [['f']]⟩
            basedSettings.input) ≠ .error .includePathWithoutBasePath := by
  have hload : load basedDisk ['s'] ['s'] = .ok basedSettings := by
    have hread : (load basedDisk ['s'] ['s']).toOption =
        some basedSettings := by decide +kernel
    cases hload : load basedDisk ['s'] ['s'] with
    | error failure =>
        rw [hload] at hread
        cases hread
    | ok settings =>
        rw [hload] at hread
        rw [Option.some.inj hread]
  obtain ⟨hdefers, hchecked⟩ := problem?_iff_defersToArguments basedSettings
  have hbased := hdefers.mp (hchecked _ _ _ hload)
  refine ⟨hload, rfl, (hbased.fails_iff _).mpr (.inl ⟨rfl, .inl (by decide)⟩),
    by decide, by decide,
    hbased.spares [['f']] _ rfl (by decide) (by decide)⟩

end Settings

end InputResolution
