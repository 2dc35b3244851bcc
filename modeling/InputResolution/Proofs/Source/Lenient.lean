import InputResolution.Proofs.Source.LoadRun

namespace InputResolution.Loader

/-! Ignoring missing inputs against leaving them out.  Main statement: a lenient
run is the strict run of the regular files among the paths, but for one warning
for every other path it gets past. -/

def lenient (loader : Loader) : Loader :=
  { loader with ignoreMissing := true }

def strict (loader : Loader) : Loader :=
  { loader with ignoreMissing := false }

/-- The plan without the paths that lead to no regular file. -/
def onlyFiles (loader : Loader) (plan : Plan) : Plan :=
  { plan with paths := plan.paths.filter loader.isFile }

theorem skip?_eq_none_iff {loader : Loader} {path : Text} :
    loader.skip? path = none ↔ loader.isFile path = true := by
  unfold skip? isFile
  cases loader.fs.kindOf (loader.naming.nativePath path) <;> simp

/-- The line for a path that leads to no regular file. -/
def warning? (loader : Loader) (path : Text) : Option Text :=
  match loader.fs.kindOf (loader.naming.nativePath path) with
  | .file => none
  | .missing =>
      some ('"' :: path ++ '"' :: " is not found. Skipping.".toList)
  | .other =>
      some ('"' :: path ++ '"' :: " is not a valid file. Skipping.".toList)

theorem map_message_skip? (loader : Loader) (path : Text) :
    (loader.skip? path).map Skip.message = loader.warning? path := by
  unfold skip? warning?
  cases loader.fs.kindOf (loader.naming.nativePath path) with
  | file => rfl
  | missing | other => simp [Skip.message, quoted]

theorem lines_warnAll_skip? (loader : Loader) (diagnostics : Diagnostics)
    (paths : List Text) :
    (diagnostics.warnAll (paths.filterMap loader.skip?)).lines =
      diagnostics.lines ++ paths.filterMap loader.warning? := by
  rw [Diagnostics.warnAll, List.map_filterMap]
  simp only [map_message_skip?]

theorem refusal?_lenient (loader : Loader) (mode : Mode) (path : Text) :
    loader.lenient.refusal? mode path =
      if loader.isFile path then loader.strict.refusal? mode path
      else none := by
  have hrefusal : loader.lenient.fileRefusal? mode path =
      loader.strict.fileRefusal? mode path := rfl
  cases hkind : loader.fs.kindOf (loader.naming.nativePath path) with
  | file => simpa [refusal?, isFile, lenient, strict, hkind] using hrefusal
  | missing | other => simp [refusal?, isFile, lenient, hkind]

theorem isFile_of_refusal?_strict {loader : Loader} {mode : Mode} {path : Text}
    (h : loader.strict.refusal? mode path = none) :
    loader.isFile path = true := by
  unfold refusal? at h
  cases hkind : loader.fs.kindOf (loader.naming.nativePath path) with
  | file => simp [isFile, hkind]
  | missing | other => simp [strict, hkind] at h

theorem findSome?_refusal?_lenient (loader : Loader) (mode : Mode)
    (paths : List Text) :
    paths.findSome? (loader.lenient.refusal? mode) =
      (paths.filter loader.isFile).findSome? (loader.strict.refusal? mode) := by
  induction paths with
  | nil => rfl
  | cons path paths ih =>
      rw [List.findSome?_cons, refusal?_lenient]
      cases hfile : loader.isFile path with
      | true =>
          rw [if_pos rfl, List.filter_cons_of_pos hfile, List.findSome?_cons,
            ih]
      | false =>
          rw [if_neg Bool.false_ne_true,
            List.filter_cons_of_neg (by simp [hfile]), ih]

theorem foldl_take_filter_isFile (loader : Loader) (mode : Mode)
    (loaded : Loaded) (paths : List Text) :
    (paths.filter loader.isFile).foldl (loader.take mode) loaded =
      paths.foldl (loader.take mode) loaded := by
  induction paths generalizing loaded with
  | nil => rfl
  | cons path paths ih =>
      cases hfile : loader.isFile path with
      | true =>
          rw [List.filter_cons_of_pos hfile, List.foldl_cons, List.foldl_cons,
            ih]
      | false =>
          have hsame : loader.take mode loaded path = loaded := by
            simp [take, hfile]
          rw [List.filter_cons_of_neg (by simp [hfile]), ih, List.foldl_cons,
            hsame]

theorem result_load_lenient (loader : Loader) (plan : Plan) (stdin : Stdin) :
    (loader.lenient.load plan stdin).result =
      (loader.strict.load (loader.onlyFiles plan) stdin).result := by
  have hopening : opening (loader.onlyFiles plan) stdin = opening plan stdin :=
    rfl
  rw [result_load, result_load, hopening, findSome?_refusal?_lenient]
  cases (opening plan stdin).result with
  | error failure => rfl
  | ok first =>
      have htaken : (loader.onlyFiles plan).paths.foldl
            (loader.strict.take plan.mode) first =
          plan.paths.foldl (loader.lenient.take plan.mode) first :=
        foldl_take_filter_isFile loader plan.mode first plan.paths
      simp only [← htaken]
      rfl

theorem recordAll_load_strict (loader : Loader) (plan : Plan) (stdin : Stdin)
    (diagnostics : Diagnostics) :
    diagnostics.recordAll (loader.strict.load plan stdin).events =
      diagnostics := by
  obtain ⟨passed, -, hevents⟩ :=
    loader.strict.exists_ends plan stdin diagnostics
  rw [hevents, if_neg (by simp [strict]), Diagnostics.warnAll_nil]

theorem isFile_of_load_strict {loader : Loader} {plan : Plan} {stdin : Stdin}
    {loaded : Loaded}
    (h : (loader.strict.load plan stdin).result = .ok loaded) :
    ∀ path ∈ plan.paths, loader.isFile path = true := by
  obtain ⟨first, -, hrefusal, -, -⟩ := load_eq_ok h
  intro path hpath
  exact isFile_of_refusal?_strict (hrefusal path hpath)

theorem onlyFiles_eq_self {loader : Loader} {plan : Plan}
    (hfiles : ∀ path ∈ plan.paths, loader.isFile path = true) :
    loader.onlyFiles plan = plan := by
  have hpaths : plan.paths.filter loader.isFile = plan.paths :=
    List.filter_eq_self.mpr hfiles
  rw [onlyFiles, hpaths]

theorem recordAll_load_lenient_of_files {loader : Loader} {plan : Plan}
    (stdin : Stdin) (diagnostics : Diagnostics)
    (hfiles : ∀ path ∈ plan.paths, loader.isFile path = true) :
    diagnostics.recordAll (loader.lenient.load plan stdin).events =
      diagnostics := by
  have hpassed (mode : Mode) :
      loader.lenient.passedOver mode plan.paths = [] := by
    refine (if_pos rfl).trans (List.filterMap_eq_nil_iff.mpr ?_)
    intro path hpath
    have hmem := (List.takeWhile_sublist _).mem hpath
    exact skip?_eq_none_iff.mpr (hfiles path hmem)
  rw [recordAll_load, hpassed, Diagnostics.warnAll_nil]
  cases (opening plan stdin).result <;> rfl

theorem Ends.eq_paths {loader : Loader} {plan : Plan} {stdin : Stdin}
    {passed : List Text} {loaded : Loaded}
    (h : loader.Ends plan stdin passed (.ok loaded)) : passed = plan.paths := by
  generalize hresult : Except.ok loaded = result at h
  cases h with
  | unread => cases hresult
  | failed => cases hresult
  | closed => rfl

/-- Ignoring what is missing changes no result: it leaves the other paths out,
each with its warning if the run gets past it. -/
theorem load_lenient (loader : Loader) (plan : Plan) (stdin : Stdin)
    (diagnostics : Diagnostics) :
    (loader.lenient.load plan stdin).result =
        (loader.strict.load (loader.onlyFiles plan) stdin).result ∧
      diagnostics.recordAll
          (loader.strict.load (loader.onlyFiles plan) stdin).events =
        diagnostics ∧
      (∃ passed,
        loader.lenient.Ends plan stdin passed
            (loader.lenient.load plan stdin).result ∧
          (diagnostics.recordAll
              (loader.lenient.load plan stdin).events).lines =
            diagnostics.lines ++ passed.filterMap loader.warning?) ∧
      ∀ loaded, (loader.strict.load plan stdin).result = .ok loaded →
        (loader.lenient.load plan stdin).result = .ok loaded ∧
          diagnostics.recordAll (loader.lenient.load plan stdin).events =
            diagnostics := by
  refine ⟨result_load_lenient loader plan stdin,
    recordAll_load_strict _ _ _ _, ?_, ?_⟩
  · obtain ⟨passed, hends, hevents⟩ :=
      loader.lenient.exists_ends plan stdin diagnostics
    refine ⟨passed, hends, ?_⟩
    rw [hevents]
    exact lines_warnAll_skip? loader diagnostics passed
  · intro loaded hstrict
    have hfiles := isFile_of_load_strict hstrict
    refine ⟨?_, recordAll_load_lenient_of_files stdin diagnostics hfiles⟩
    rw [result_load_lenient, onlyFiles_eq_self hfiles, hstrict]

/-- Only `/f` is a file, and only `/d` is there besides. -/
def mixedLoader : Loader where
  fs :=
    { canonicalize := .ok
      kindOf := fun path =>
        if path = ['/', 'f'] then .file
        else if path = ['/', 'd'] then .other
        else .missing
      read := fun _ => .ok [104] }
  naming := .make .posix ['/'] none []
  ignoreMissing := false

def mixedPlan : Plan :=
  ⟨.compiler, [['x'], ['f'], ['d']], false, [], .empty⟩

theorem load_lenient_mixedLoader :
    (∃ loaded,
      (mixedLoader.strict.load ⟨.compiler, [['f'], ['f']], true, [], .empty⟩
          (.ok [])).result = .ok loaded ∧
        (mixedLoader.lenient.load
          ⟨.compiler, [['f'], ['f']], true, [], .empty⟩
          (.ok [])).result = .ok loaded) ∧
      (mixedLoader.lenient.load mixedPlan (.ok [])).result =
        (mixedLoader.strict.load ⟨.compiler, [['f']], false, [], .empty⟩
          (.ok [])).result ∧
      (Diagnostics.empty.recordAll
          (mixedLoader.lenient.load mixedPlan (.ok [])).events).lines =
        ["\"x\" is not found. Skipping.".toList,
          "\"d\" is not a valid file. Skipping.".toList] := by
  obtain ⟨hresult, -, ⟨passed, hends, hlines⟩, -⟩ :=
    load_lenient mixedLoader mixedPlan (.ok []) .empty
  refine ⟨⟨_, rfl, ((load_lenient mixedLoader _ _ .empty).2.2.2 _ rfl).1⟩,
    hresult, ?_⟩
  have hpassed : passed = mixedPlan.paths := Ends.eq_paths hends
  rw [hlines, hpassed]
  decide +kernel

end InputResolution.Loader
