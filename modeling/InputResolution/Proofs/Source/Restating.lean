import InputResolution.Proofs.Lexical.Printing
import InputResolution.Proofs.Source.Reopening

namespace InputResolution

open Disk (FileSystem)
open Native (isAbsolute)

/-! Asking again with the directories as a resolution writes them.  Main
statement: that is the same request, since a normalized directory is read back
from its text wherever it is read from. -/

namespace UnitNaming

variable {workDir : Text}

theorem isRooted_resolve (h : isAbsolute workDir = true) (directory : Text) :
    (Lexical.Path.resolve .posix (.parse .posix workDir) directory).isRooted =
      true := by
  have hstart : (Lexical.Path.parse .posix workDir).isRooted = true :=
    (Lexical.isRooted_splitRoot_posix workDir).trans h
  rw [Lexical.Path.isRooted_resolve_posix, hstart, Bool.or_true]

theorem normal_resolve (workDir directory : Text) :
    Lexical.Path.Normal .posix
        (Lexical.Path.resolve .posix (.parse .posix workDir) directory) :=
  .resolved (.parsed workDir) directory

theorem make_texts (h : isAbsolute workDir = true) (basePath : Option Text)
    (includePaths : List Text) :
    let naming := make .posix workDir basePath includePaths
    make .posix workDir (naming.basePath.map (·.text))
      (naming.includePaths.map (·.text)) = naming := by
  intro naming
  have hread (directory : Text) :=
    (normal_resolve workDir directory).wellFormed.resolve_text
    (isRooted_resolve h directory) (.parse .posix workDir)
  have hbase : ((naming.basePath.map (·.text)).filter (! ·.isEmpty)).map
      (Lexical.Path.resolve .posix (.parse .posix workDir)) =
        naming.basePath := by
    simp only [naming, make]
    cases basePath.filter (! ·.isEmpty) with
    | none => rfl
    | some base =>
        have hne : ¬ (Lexical.Path.resolve .posix (.parse .posix workDir)
            base).text = [] :=
          (normal_resolve workDir base).wellFormed.text_ne_nil
        simp [Option.filter, hne, hread]
  have hincludes : (naming.includePaths.map (·.text)).map
      (Lexical.Path.resolve .posix (.parse .posix workDir)) =
        naming.includePaths := by
    simp only [naming, make, List.map_map]
    exact List.map_congr_left fun includePath _ => hread includePath
  rw [make, hbase, hincludes]
  rfl

end UnitNaming

/-- The same request with its directories as a resolution writes them. -/
def Options.restate (options : Options) (resolution : Resolution) : Options :=
  { options with
    basePath := resolution.basePath.or options.basePath
    includePaths := resolution.includePaths }

namespace Resolver

variable {resolver : Resolver} {options : Options} {stdin : Stdin}
  {resolution : Resolution}

theorem basePath_naming (resolver : Resolver) (options : Options) :
    (resolver.naming options).basePath = options.effectiveBasePath.map
      (Lexical.Path.resolve .posix (.parse .posix resolver.workDir)) := by
  have hsame : options.effectiveBasePath.filter (! ·.isEmpty) =
      options.effectiveBasePath := by
    rw [Options.effectiveBasePath, Option.filter_filter]
    simp only [Bool.and_self]
  rw [naming, UnitNaming.make, hsame]

theorem effectiveBasePath_restate
    (hbase : resolution.basePath =
      (resolver.naming options).basePath.map (·.text)) :
    (options.restate resolution).effectiveBasePath = resolution.basePath := by
  rw [basePath_naming] at hbase
  rw [Options.effectiveBasePath, Options.restate, hbase]
  cases heffective : options.effectiveBasePath with
  | none => exact heffective
  | some base =>
      have htext :=
        (UnitNaming.normal_resolve resolver.workDir base).wellFormed.text_ne_nil
      simp [Option.filter, htext]

theorem resolve_restate (hworkDir : isAbsolute resolver.workDir = true)
    (h : (resolver.resolve options stdin).result = .ok resolution)
    (prior : Diagnostics) :
    (resolver.resolve (options.restate resolution) stdin).result =
      .ok resolution ∧
      prior.recordAll
          (resolver.resolve (options.restate resolution) stdin).events =
        prior.recordAll (resolver.resolve options stdin).events := by
  have hbase : resolution.basePath =
      (resolver.naming options).basePath.map (·.text) := by
    obtain ⟨-, -, -, -, rfl⟩ := resolve_eq_ok h
    rfl
  have hincludes : resolution.includePaths =
      (resolver.naming options).includePaths.map (·.text) := by
    obtain ⟨-, -, -, -, rfl⟩ := resolve_eq_ok h
    rfl
  have heffective := effectiveBasePath_restate hbase
  have hnaming : resolver.naming (options.restate resolution) =
      resolver.naming options := by
    rw [naming, heffective, hbase, Options.restate, hincludes]
    exact UnitNaming.make_texts hworkDir _ _
  have hplan : Plan.ofOptions (options.restate resolution) =
      Plan.ofOptions options := by
    refine Plan.ofOptions_congr rfl ?_ ?_ rfl rfl Iff.rfl
    · rw [heffective, hbase, basePath_naming, Option.map_map, Option.isNone_map]
    · simp [Options.restate, hincludes, naming, UnitNaming.make]
  rw [resolver.resolve_congr hplan hnaming rfl rfl]
  exact ⟨h, rfl⟩

/-- A request that is restated as a resolution writes its directories is
resolved as before. -/
theorem restates_of_resolve {fs : FileSystem} {workDir : Text}
    (hfs : fs.GivesAbsolute) (hworkDir : isAbsolute workDir = true)
    (h : ((make fs workDir).resolve options stdin).result = .ok resolution)
    (prior : Diagnostics) :
    ((make fs workDir).resolve (options.restate resolution) stdin).result =
        .ok resolution ∧
      prior.recordAll
          ((make fs workDir).resolve
            (options.restate resolution) stdin).events =
        prior.recordAll ((make fs workDir).resolve options stdin).events :=
  resolve_restate (Disk.isAbsolute_weaklyCanonical hfs hworkDir) h prior

def tangledOptions : Options :=
  { twinOptions with
    includePaths := [[], ['.', '.', '/', '.', '.'], ['/', '/', 'h', '/', '.']] }

theorem restates_of_resolve_twinTree :
    ∃ resolution,
      ((make twinTree.fileSystem ['/', 'w']).resolve tangledOptions
          (.ok [])).result = .ok resolution ∧
        twinTree.fileSystem.GivesAbsolute ∧
        resolution.basePath = some ['/', 'b', '/'] ∧
        resolution.includePaths = [['/', 'w'], ['/'], ['/', '/', 'h', '/']] ∧
        ((make twinTree.fileSystem ['/', 'w']).resolve
          (tangledOptions.restate resolution) (.ok [])).result =
            .ok resolution := by
  refine ⟨_, rfl, twinTree.givesAbsolute, rfl, rfl, ?_⟩
  exact (@restates_of_resolve tangledOptions (.ok []) _ _ _
    twinTree.givesAbsolute rfl rfl .empty).1

def relativeDisk : FileSystem where
  canonicalize _ := .ok ['w']
  kindOf _ := .missing
  read _ := .error []

/-- On a disk that gives a relative place each restating goes one level down. -/
example :
    let options : Options :=
      ⟨.compiler, false, some ['b'], [], [], [['-']]⟩
    ∃ first second,
      ((make relativeDisk ['/', 'w']).resolve options (.ok [])).result =
          .ok first ∧
        ((make relativeDisk ['/', 'w']).resolve (options.restate first)
          (.ok [])).result = .ok second ∧
        first.basePath = some ['w', '/', 'b'] ∧
        second.basePath = some ['w', '/', 'w', '/', 'b'] :=
  ⟨_, _, rfl, rfl, rfl, rfl⟩

end Resolver

end InputResolution
