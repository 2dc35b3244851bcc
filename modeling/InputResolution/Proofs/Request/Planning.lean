import InputResolution.Proofs.Text.Occurrences
import InputResolution.Request.Plan

namespace InputResolution

/-! The plan of a request in closed form.  What a token adds does not depend on
the tokens before it, so a plan is read off the tokens of each kind: the paths,
each where it stood first, the directives in their order, and whether the marker
of standard input is among the tokens. -/

def IsDirective (token : Text) : Prop :=
  '=' ∈ token

instance (token : Text) : Decidable (IsDirective token) :=
  inferInstanceAs (Decidable (_ ∈ _))

/-- A token that names a file: neither the marker of standard input nor a
directive. -/
def NamesPath (token : Text) : Prop :=
  token ≠ stdinMarker ∧ ¬ IsDirective token

instance (token : Text) : Decidable (NamesPath token) :=
  inferInstanceAs (Decidable (_ ∧ _))

theorem not_isDirective_stdinMarker : ¬ IsDirective stdinMarker := by
  decide

theorem Remapping.isDirective_of_parse? {token : Text} {remapping : Remapping}
    (h : parse? token = some remapping) : IsDirective token := by
  by_contra hplain
  rw [parse?, Text.cut?_eq_none_iff.mpr hplain] at h
  cases h

theorem IsDirective.ne_stdinMarker {token : Text} (h : IsDirective token) :
    token ≠ stdinMarker :=
  fun heq => not_isDirective_stdinMarker (heq ▸ h)

theorem Remapping.isWrittenAs_iff {token : Text} :
    isWrittenAs token = true ↔ IsDirective token :=
  List.contains_iff_mem

namespace Token

def fault? (mode : Mode) : Token → Option Failure
  | .badRemapping token => some (.invalidRemapping token)
  | .remapping _ =>
      match mode with
      | .standardJson => some .remappingInStandardJson
      | .compiler => none
  | .stdin => none
  | .path _ => none

theorem classify_cases (token : Text) :
    (∃ parsed, IsDirective token ∧ Remapping.parse? token = some parsed ∧
        classify token = .remapping parsed) ∨
      (IsDirective token ∧ Remapping.parse? token = none ∧
        classify token = .badRemapping token) ∨
      (token = stdinMarker ∧ Remapping.parse? token = none ∧
        classify token = .stdin) ∨
      (NamesPath token ∧ Remapping.parse? token = none ∧
        classify token = .path token) := by
  have hplain (h : ¬ IsDirective token) : Remapping.parse? token = none :=
    Option.eq_none_iff_forall_ne_some.mpr fun _ hparse =>
      h (Remapping.isDirective_of_parse? hparse)
  by_cases hmarker : token = stdinMarker
  · have hparse := hplain (hmarker ▸ not_isDirective_stdinMarker)
    exact .inr (.inr (.inl ⟨hmarker, hparse, by rw [classify, if_pos hmarker]⟩))
  · by_cases hdirective : IsDirective token
    · have hwritten := Remapping.isWrittenAs_iff.mpr hdirective
      cases hparse : Remapping.parse? token with
      | some parsed =>
          refine .inl ⟨parsed, hdirective, rfl, ?_⟩
          rw [classify, if_neg hmarker, if_pos hwritten, hparse]
      | none =>
          refine .inr (.inl ⟨hdirective, rfl, ?_⟩)
          rw [classify, if_neg hmarker, if_pos hwritten, hparse]
    · have hwritten := mt Remapping.isWrittenAs_iff.mp hdirective
      refine .inr (.inr (.inr ⟨⟨hmarker, hdirective⟩, hplain hdirective, ?_⟩))
      rw [classify, if_neg hmarker, if_neg hwritten]

theorem path?_classify (token : Text) :
    (classify token).path? =
      Option.guard (fun token => NamesPath token) token := by
  rcases classify_cases token with
    ⟨parsed, hdirective, -, h⟩ | ⟨hdirective, -, h⟩ |
    ⟨hmarker, -, h⟩ | ⟨hpath, -, h⟩
  · simp [h, path?, Option.guard, NamesPath, hdirective]
  · simp [h, path?, Option.guard, NamesPath, hdirective]
  · rw [h]
    simp [path?, Option.guard, NamesPath, hmarker]
  · simp [h, path?, Option.guard, hpath]

theorem isStdin_classify (token : Text) :
    (classify token).isStdin = (token == stdinMarker) := by
  rcases classify_cases token with
    ⟨parsed, hdirective, -, h⟩ | ⟨hdirective, -, h⟩ |
    ⟨hmarker, -, h⟩ | ⟨hpath, -, h⟩
  · simp [h, isStdin, hdirective.ne_stdinMarker]
  · simp [h, isStdin, hdirective.ne_stdinMarker]
  · rw [h]
    simp [isStdin, hmarker]
  · simp [h, isStdin, hpath.1]

theorem remapping?_classify (token : Text) :
    (classify token).remapping? = Remapping.parse? token := by
  rcases classify_cases token with
    ⟨parsed, -, hparse, h⟩ | ⟨-, hparse, h⟩ | ⟨-, hparse, h⟩ |
    ⟨-, hparse, h⟩ <;> rw [h, hparse] <;> rfl

theorem fault?_classify (mode : Mode) (token : Text) :
    (classify token).fault? mode =
      if IsDirective token then
        match Remapping.parse? token, mode with
        | none, _ => some (.invalidRemapping token)
        | some _, .standardJson => some .remappingInStandardJson
        | some _, .compiler => none
      else none := by
  rcases classify_cases token with
    ⟨parsed, hdirective, hparse, h⟩ | ⟨hdirective, hparse, h⟩ |
    ⟨hmarker, -, h⟩ | ⟨hpath, -, h⟩
  · rw [h, if_pos hdirective, hparse]
    cases mode <;> rfl
  · rw [h, if_pos hdirective, hparse]
    rfl
  · rw [h, if_neg (hmarker ▸ not_isDirective_stdinMarker)]
    rfl
  · rw [h, if_neg hpath.2]
    rfl

theorem fault?_ne_includePathWithoutBasePath (token : Token) (mode : Mode) :
    token.fault? mode ≠ some .includePathWithoutBasePath := by
  cases token <;> cases mode <;> simp [fault?]

end Token

namespace Plan

def note (plan : Plan) : Token → Plan
  | .badRemapping _ => plan
  | .remapping remapping => plan.addRemapping remapping
  | .stdin => { plan with readsStdin := true }
  | .path path => plan.addPath path

theorem addToken_eq (plan : Plan) (token : Token) :
    plan.addToken token =
      match token.fault? plan.mode with
      | some failure => .error failure
      | none => .ok (plan.note token) := by
  cases token with
  | remapping remapping =>
      unfold addToken Token.fault?
      cases plan.mode <;> rfl
  | badRemapping token | stdin | path token => rfl

theorem addPath_eq (plan : Plan) (path : Text) :
    plan.addPath path = { plan with paths := enlist plan.paths path } := by
  by_cases hknown : path ∈ plan.paths <;> simp [addPath, enlist, hknown]

@[simp] theorem mode_note (plan : Plan) (token : Token) :
    (plan.note token).mode = plan.mode := by
  cases token with
  | path path => rw [note, addPath_eq]
  | badRemapping _ | remapping _ | stdin => rfl

theorem addTokens_eq (plan : Plan) (tokens : List Token) :
    plan.addTokens tokens =
      match tokens.findSome? (Token.fault? plan.mode) with
      | some failure => .error failure
      | none => .ok (tokens.foldl note plan) := by
  induction tokens generalizing plan with
  | nil => rfl
  | cons token tokens ih =>
      rw [addTokens, addToken_eq, List.findSome?_cons, List.foldl_cons]
      cases token.fault? plan.mode with
      | some failure => rfl
      | none => simp only [ih, mode_note]

theorem foldl_note (plan : Plan) (tokens : List Token) :
    tokens.foldl note plan =
      { mode := plan.mode
        paths := (tokens.filterMap Token.path?).foldl enlist plan.paths
        readsStdin := plan.readsStdin || tokens.any Token.isStdin
        remappings := plan.remappings ++ tokens.filterMap Token.remapping?
        remappingDirectories :=
          ((tokens.filterMap Token.remapping?).filterMap
            Remapping.directory?).foldl .insert
            plan.remappingDirectories } := by
  induction tokens generalizing plan with
  | nil => simp
  | cons token tokens ih =>
      rw [List.foldl_cons, ih]
      cases token with
      | badRemapping _ | stdin =>
          simp [note, List.filterMap_cons, Token.path?, Token.isStdin,
            Token.remapping?]
      | path path =>
          simp [note, addPath_eq, List.filterMap_cons, Token.path?,
            Token.isStdin, Token.remapping?]
      | remapping remapping =>
          cases hdirectory : remapping.directory? <;>
            simp [note, addRemapping, List.filterMap_cons, Token.path?,
              Token.isStdin, Token.remapping?, hdirectory]

end Plan

namespace Options

/-- The paths to read, each where it stands first. -/
def paths (options : Options) : List Text :=
  (options.tokens.filter fun token => NamesPath token).eraseDups

def remappings (options : Options) : List Remapping :=
  options.tokens.filterMap Remapping.parse?

theorem mem_paths {options : Options} {path : Text} :
    path ∈ options.paths ↔ path ∈ options.tokens ∧ NamesPath path := by
  simp [paths]

theorem nodup_paths (options : Options) : options.paths.Nodup :=
  nodup_eraseDups _

theorem paths_eq_nil_iff {options : Options} :
    options.paths = [] ↔ ∀ token ∈ options.tokens, ¬ NamesPath token := by
  simp only [List.eq_nil_iff_forall_not_mem, mem_paths, not_and]

def AsksStdin (options : Options) : Prop :=
  stdinMarker ∈ options.tokens

instance (options : Options) : Decidable options.AsksStdin :=
  inferInstanceAs (Decidable (_ ∈ _))

theorem exists_two_inputs_iff {options : Options} :
    (∃ first ∈ options.tokens, NamesPath first ∧ ∃ second ∈ options.tokens,
        second = stdinMarker ∨ NamesPath second ∧ second ≠ first) ↔
      ∃ path others, options.paths = path :: others ∧
        (others ≠ [] ∨ options.AsksStdin) := by
  constructor
  · rintro ⟨first, hfirst, hpath, second, hsecond, hother⟩
    have hfirst : first ∈ options.paths := mem_paths.mpr ⟨hfirst, hpath⟩
    obtain ⟨path, others, hpaths⟩ :=
      List.exists_cons_of_ne_nil (List.ne_nil_of_mem hfirst)
    refine ⟨path, others, hpaths, ?_⟩
    rcases hother with rfl | ⟨hother, hne⟩
    · exact .inr hsecond
    · have hsecond : second ∈ options.paths := mem_paths.mpr ⟨hsecond, hother⟩
      left
      rintro rfl
      rw [hpaths, List.mem_singleton] at hfirst hsecond
      exact hne (hsecond.trans hfirst.symm)
  · rintro ⟨path, others, hpaths, hmore⟩
    have hpath := mem_paths.mp (hpaths ▸ List.mem_cons_self)
    refine ⟨path, hpath.1, hpath.2, ?_⟩
    rcases hmore with hothers | hstdin
    · obtain ⟨other, rest, rfl⟩ := List.exists_cons_of_ne_nil hothers
      have hother :=
        mem_paths.mp (hpaths ▸ List.mem_cons_of_mem path List.mem_cons_self)
      have hnodup := hpaths ▸ options.nodup_paths
      refine ⟨other, hother.1, .inr ⟨hother.2, ?_⟩⟩
      rintro rfl
      simp at hnodup
    · exact ⟨stdinMarker, hstdin, .inl rfl⟩

/-- Standard input is read where it is asked for, and for a document that no
path names. -/
def ReadsStdin (options : Options) : Prop :=
  options.AsksStdin ∨ options.mode = .standardJson ∧ options.paths = []

instance (options : Options) : Decidable options.ReadsStdin :=
  inferInstanceAs (Decidable (_ ∨ _))

/-- What the tokens ask for, whether or not a mode takes it. -/
def plan (options : Options) : Plan where
  mode := options.mode
  paths := options.paths
  readsStdin := options.ReadsStdin
  remappings := options.remappings
  remappingDirectories :=
  (options.remappings.filterMap Remapping.directory?).foldl .insert .empty

def directoriesFault? (options : Options) : Option Failure :=
  if ! options.includePaths.isEmpty && options.effectiveBasePath.isNone then
    some .includePathWithoutBasePath
  else none

theorem directoriesFault?_eq_some_iff {options : Options} {failure : Failure} :
    options.directoriesFault? = some failure ↔
      failure = .includePathWithoutBasePath ∧ options.includePaths ≠ [] ∧
        (options.basePath = none ∨ options.basePath = some []) := by
  have hbase : options.effectiveBasePath.isNone = true ↔
      options.basePath = none ∨ options.basePath = some [] := by
    cases hpath : options.basePath <;>
      simp [effectiveBasePath, hpath, Option.filter]
  have hincludes : (! options.includePaths.isEmpty) = true ↔
      options.includePaths ≠ [] := by
    simp
  rw [directoriesFault?, Option.ite_none_right_eq_some, Bool.and_eq_true, hbase,
    hincludes, Option.some.injEq, and_comm]
  exact and_congr_left fun _ => eq_comm

def tokensFault? (options : Options) : Option Failure :=
  options.tokens.findSome? fun token =>
    (Token.classify token).fault? options.mode

def directives (options : Options) : List Text :=
  options.tokens.filter fun token => IsDirective token

theorem tokensFault?_eq (options : Options) :
    options.tokensFault? =
      options.directives.findSome? fun token =>
        (Token.classify token).fault? options.mode := by
  refine (findSome?_filter fun token failure hfault => ?_).symm
  rw [Token.fault?_classify] at hfault
  split at hfault
  · exact decide_eq_true ‹_›
  · cases hfault

theorem remappings_eq (options : Options) :
    options.remappings = options.directives.filterMap Remapping.parse? := by
  rw [directives, List.filterMap_filter, remappings]
  congr 1
  funext token
  split
  · rfl
  · rename_i hplain
    cases hparse : Remapping.parse? token with
    | none => rfl
    | some remapping => simp [Remapping.isDirective_of_parse? hparse] at hplain

def inputsFault? (options : Options) : Option Failure :=
  match options.mode with
  | .standardJson =>
      if 1 < options.paths.length ∨ options.paths ≠ [] ∧ options.AsksStdin then
        some .tooManyStandardJsonInputs
      else none
  | .compiler =>
      if options.paths = [] ∧ ¬ options.AsksStdin then some .noInputFiles
      else none

theorem inputsFault?_eq_some_iff {options : Options} {failure : Failure} :
    options.inputsFault? = some failure ↔
      (options.mode = .standardJson ∧ failure = .tooManyStandardJsonInputs ∧
          ∃ path others, options.paths = path :: others ∧
            (others ≠ [] ∨ options.AsksStdin)) ∨
        (options.mode = .compiler ∧ failure = .noInputFiles ∧
          options.paths = [] ∧
          ¬ options.AsksStdin) := by
  rcases hpaths : options.paths with _ | ⟨path, _ | ⟨other, others⟩⟩ <;>
    cases hmode : options.mode <;> by_cases hstdin : options.AsksStdin <;>
      simp [inputsFault?, hpaths, hmode, hstdin, eq_comm]

def fault? (options : Options) : Option Failure :=
  options.directoriesFault?.or (options.tokensFault?.or options.inputsFault?)

theorem fault?_eq_some_includePathWithoutBasePath_iff {options : Options} :
    options.fault? = some .includePathWithoutBasePath ↔
    options.includePaths ≠ [] ∧
      (options.basePath = none ∨ options.basePath = some []) := by
  have htokens : options.tokensFault? ≠ some .includePathWithoutBasePath := by
    intro h
    obtain ⟨token, -, hfault⟩ := List.exists_of_findSome?_eq_some h
    exact (Token.classify token).fault?_ne_includePathWithoutBasePath
      options.mode hfault
  have hinputs : options.inputsFault? ≠ some .includePathWithoutBasePath := by
    simp [inputsFault?_eq_some_iff]
  simp [fault?, Option.or_eq_some_iff, htokens, hinputs,
    directoriesFault?_eq_some_iff]

theorem fault?_eq_none_iff {options : Options} :
    options.fault? = none ↔
    options.directoriesFault? = none ∧ options.tokensFault? = none ∧
      options.inputsFault? = none := by
  simp only [fault?, Option.or_eq_none_iff]

end Options

namespace Plan

theorem foldl_note_classify (options : Options) :
    (options.tokens.map Token.classify).foldl note (empty options.mode) =
      { options.plan with readsStdin := options.AsksStdin } := by
  have hpaths : ((options.tokens.map Token.classify).filterMap
      Token.path?).foldl enlist [] = options.paths := by
    have hpath? : Token.path? ∘ Token.classify =
        Option.guard fun token => NamesPath token :=
      funext Token.path?_classify
    rw [List.filterMap_map, hpath?, List.filterMap_eq_filter]
    simpa [Options.paths] using
      foldl_enlist ([] : List Text)
        (options.tokens.filter fun token => NamesPath token)
  have hremappings :
      (options.tokens.map Token.classify).filterMap Token.remapping? =
        options.remappings := by
    have hremapping? : Token.remapping? ∘ Token.classify = Remapping.parse? :=
      funext Token.remapping?_classify
    rw [List.filterMap_map, hremapping?, Options.remappings]
  have hstdin : (options.tokens.map Token.classify).any Token.isStdin =
      decide options.AsksStdin := by
    have hisStdin : Token.isStdin ∘ Token.classify = (· == stdinMarker) :=
      funext Token.isStdin_classify
    rw [List.any_map, hisStdin, List.any_beq', Bool.eq_iff_iff, List.elem_iff,
      decide_eq_true_eq, Options.AsksStdin]
  rw [foldl_note, hremappings]
  simp only [empty, hpaths, hstdin, Options.plan, List.nil_append,
    Bool.false_or]

theorem checkInputs_eq (options : Options) :
    checkInputs { options.plan with readsStdin := options.AsksStdin } =
      match options.inputsFault? with
      | some failure => .error failure
      | none => .ok options.plan := by
  rcases hpaths : options.paths with _ | ⟨path, _ | ⟨other, others⟩⟩ <;>
    cases hmode : options.mode <;> by_cases hstdin : options.AsksStdin <;>
      simp [checkInputs, Options.inputsFault?, Options.plan, Options.ReadsStdin,
        hpaths, hmode, hstdin]

theorem ofOptions_eq (options : Options) :
    ofOptions options =
      match options.fault? with
      | some failure => .error failure
      | none => .ok options.plan := by
  have htokens : (options.tokens.map Token.classify).findSome?
        (Token.fault? options.mode) =
      options.tokensFault? := List.findSome?_map
  unfold ofOptions Options.fault? Options.directoriesFault?
  split
  · rfl
  · rw [addTokens_eq, foldl_note_classify]
    have hmode : (empty options.mode).mode = options.mode := rfl
    rw [hmode, htokens]
    cases options.tokensFault? with
    | some failure => rfl
    | none => exact checkInputs_eq options

theorem ofOptions_eq_error_iff {options : Options} {failure : Failure} :
    ofOptions options = .error failure ↔ options.fault? = some failure := by
  rw [ofOptions_eq]
  cases options.fault? <;> simp

theorem ofOptions_eq_ok {options : Options} {plan : Plan}
    (h : ofOptions options = .ok plan) :
    options.fault? = none ∧ plan = options.plan := by
  rw [ofOptions_eq] at h
  cases hfault : options.fault? with
  | some failure => simp [hfault] at h
  | none => exact ⟨rfl, by simpa [hfault] using h.symm⟩

/-- Beside the tokens of each kind, a plan depends on the mode and on which
directories are given, whatever they are. -/
theorem ofOptions_congr {first second : Options}
    (hmode : first.mode = second.mode)
    (hbase : first.effectiveBasePath.isNone = second.effectiveBasePath.isNone)
    (hincludes : first.includePaths.isEmpty = second.includePaths.isEmpty)
    (hpaths : first.paths = second.paths)
    (hdirectives : first.directives = second.directives)
    (hstdin : first.AsksStdin ↔ second.AsksStdin) :
    ofOptions first = ofOptions second := by
  have hreads : decide first.ReadsStdin = decide second.ReadsStdin := by
    rw [decide_eq_decide, Options.ReadsStdin, Options.ReadsStdin, hstdin, hmode,
      hpaths]
  have hfirst : first.directoriesFault? = second.directoriesFault? := by
    rw [Options.directoriesFault?, Options.directoriesFault?, hbase, hincludes]
  have hinputs : first.inputsFault? = second.inputsFault? := by
    simp only [Options.inputsFault?, hmode, hpaths, hstdin]
  have hfault : first.fault? = second.fault? := by
    rw [Options.fault?, Options.fault?, hfirst, hinputs,
      Options.tokensFault?_eq, Options.tokensFault?_eq, hmode, hdirectives]
  have hplan : first.plan = second.plan := by
    rw [Options.plan, Options.plan, Options.remappings_eq,
      Options.remappings_eq, hmode, hpaths, hdirectives, hreads]
  rw [ofOptions_eq, ofOptions_eq, hfault, hplan]

theorem mode_ofOptions {options : Options} {plan : Plan}
    (h : ofOptions options = .ok plan) :
    plan.mode = options.mode := by
  rw [(ofOptions_eq_ok h).2, Options.plan]

end Plan

end InputResolution
