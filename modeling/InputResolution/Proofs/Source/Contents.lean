import InputResolution.Proofs.Source.Taken

namespace InputResolution.Loader

/-! What a successful run holds, for any plan.  Main statement: a name stands
where it first came and holds what came last under it, whether from standard
input or from a file; a document is what came last. -/

def Reads (loader : Loader) (path content : Text) : Prop :=
  ∃ bytes, loader.fs.read (loader.naming.nativePath path) = .ok bytes ∧
    content = Utf8.decodeLossy bytes

/-- The text that standard input is read as, where a plan asks for it. -/
def StdinReads (plan : Plan) (stdin : Stdin) (content : Text) : Prop :=
  plan.readsStdin = true ∧ ∃ bytes, stdin = .ok bytes ∧
  content = Utf8.decodeLossy bytes

def LastFile (loader : Loader) (holds : Text → Prop) (paths : List Text)
    (path : Text) : Prop :=
  ∃ earlier later, paths = earlier ++ path :: later ∧
    loader.isFile path = true ∧ holds path ∧
    ∀ other ∈ later, loader.isFile other = true → ¬ holds other

/-- The names of what is read, in the order of reading. -/
def namesRead (loader : Loader) (plan : Plan) : List Text :=
  (if plan.readsStdin then [stdinUnitName] else []) ++
    (plan.paths.filter loader.isFile).map loader.naming.name

structure HoldsSources (loader : Loader) (plan : Plan) (stdin : Stdin)
    (loaded : Loaded) :
    Prop where
  names : loaded.sources.names = (loader.namesRead plan).eraseDups
  nodup : loaded.sources.names.Nodup
  get?_eq_some_iff : ∀ name content, loaded.sources.get? name = some content ↔
    (∃ path, loader.LastFile (loader.naming.name · = name) plan.paths path ∧
        loader.Reads path content) ∨
      (name = stdinUnitName ∧ StdinReads plan stdin content ∧
        ∀ path ∈ plan.paths, loader.isFile path = true →
          loader.naming.name path ≠ name)
  standardJson : loaded.standardJson = none

structure HoldsDocument (loader : Loader) (plan : Plan) (stdin : Stdin)
    (loaded : Loaded) :
    Prop where
  sources : loaded.sources = .empty
  standardJson : ∃ content, loaded.standardJson = some content ∧
    ((∃ path, loader.LastFile (fun _ => True) plan.paths path ∧
      loader.Reads path content) ∨
      (StdinReads plan stdin content ∧
        ∀ path ∈ plan.paths, loader.isFile path = false))

variable {loader : Loader} {plan : Plan} {stdin : Stdin} {loaded first : Loaded}
  {paths : List Text} {path name content : Text}

theorem lastNamed?_eq_some_iff :
    loader.lastNamed? paths name = some path ↔
      loader.LastFile (loader.naming.name · = name) paths path := by
  simp [lastNamed?, find?_reverse_eq_some_iff, LastFile, and_assoc]

theorem lastNamed?_eq_none_iff :
    loader.lastNamed? paths name = none ↔
      ∀ path ∈ paths, loader.isFile path = true →
        loader.naming.name path ≠ name := by
  simp [lastNamed?]

theorem find?_isFile_eq_some_iff :
    paths.reverse.find? loader.isFile = some path ↔
      loader.LastFile (fun _ => True) paths path := by
  simp [find?_reverse_eq_some_iff, LastFile]

theorem LastFile.mem {holds : Text → Prop}
    (h : loader.LastFile holds paths path) :
    path ∈ paths := by
  obtain ⟨earlier, later, rfl, -⟩ := h
  simp

theorem LastFile.reads_iff {holds : Text → Prop} {mode : Mode}
    (h : loader.LastFile holds paths path)
    (hrefusal : ∀ path ∈ paths, loader.refusal? mode path = none) :
    loader.Reads path content ↔ content = loader.content path := by
  obtain ⟨-, -, -, hfile, -⟩ := id h
  obtain ⟨bytes, hread, hcontent, -⟩ :=
    file_of_refusal?_eq_none (hrefusal path h.mem) hfile
  simp [Reads, hread, hcontent]

theorem names_opening (hmode : plan.mode = .compiler)
    (h : (opening plan stdin).result = .ok first) :
    first.sources.names = if plan.readsStdin then [stdinUnitName] else [] := by
  rcases opening_eq_ok h with ⟨hreads, rfl⟩ | ⟨hreads, bytes, -, rfl⟩
  · rw [hreads]
    rfl
  · rw [hreads, hmode]
    rfl

theorem get?_opening (hmode : plan.mode = .compiler)
    (h : (opening plan stdin).result = .ok first) :
    first.sources.get? name = some content ↔
      name = stdinUnitName ∧ StdinReads plan stdin content := by
  rcases opening_eq_ok h with ⟨hreads, rfl⟩ | ⟨hreads, bytes, rfl, rfl⟩
  · simp [StdinReads, hreads, Loaded.empty]
  · simp [StdinReads, hreads, hmode, store, Loaded.empty, SourceMap.get?_insert,
      eq_comm]

theorem sources_opening (hmode : plan.mode = .standardJson)
    (h : (opening plan stdin).result = .ok first) : first.sources = .empty := by
  rcases opening_eq_ok h with ⟨-, rfl⟩ | ⟨-, bytes, -, rfl⟩
  · rfl
  · rw [hmode]
    rfl

theorem standardJson_opening (h : (opening plan stdin).result = .ok first) :
    first.standardJson = some content ↔
      plan.mode = .standardJson ∧ StdinReads plan stdin content := by
  rcases opening_eq_ok h with ⟨hreads, rfl⟩ | ⟨hreads, bytes, rfl, rfl⟩
  · simp [StdinReads, hreads, Loaded.empty]
  · cases hmode : plan.mode <;>
      simp [StdinReads, hreads, store, Loaded.empty, eq_comm]

theorem holdsSources_of_load (hmode : plan.mode = .compiler)
    (h : (loader.load plan stdin).result = .ok loaded) :
    loader.HoldsSources plan stdin loaded := by
  obtain ⟨first, hopening, hrefusal, rfl, -⟩ := load_eq_ok h
  rw [hmode]
  have hnames : (plan.paths.foldl (loader.take .compiler) first).sources.names =
      (loader.namesRead plan).eraseDups := by
    rw [names_foldl_take, names_opening hmode hopening, namesRead,
      ← foldl_enlist]
    cases plan.readsStdin <;> rfl
  refine ⟨hnames, hnames ▸ nodup_eraseDups _, ?_, ?_⟩
  · intro name content
    rw [get?_foldl_take, Option.or_eq_some_iff, Option.map_eq_some_iff,
      Option.map_eq_none_iff, lastNamed?_eq_none_iff,
      get?_opening hmode hopening]
    apply or_congr
    · apply exists_congr
      intro path
      rw [lastNamed?_eq_some_iff]
      apply and_congr_right
      intro hlast
      rw [hlast.reads_iff hrefusal, eq_comm]
    · rw [and_comm, and_assoc]
  · rw [standardJson_foldl_take_compiler, Option.eq_none_iff_forall_ne_some]
    intro content hcontent
    have hjson := ((standardJson_opening hopening).mp hcontent).1
    cases hmode.symm.trans hjson

theorem holdsDocument_of_load (hmode : plan.mode = .standardJson)
    (h : (loader.load plan stdin).result = .ok loaded) :
    loader.HoldsDocument plan stdin loaded := by
  obtain ⟨first, hopening, hrefusal, rfl, hempty⟩ := load_eq_ok h
  rw [hmode] at hempty ⊢
  have hsources : (plan.paths.foldl (loader.take .standardJson) first).sources =
      .empty := by
    rw [sources_foldl_take_standardJson, sources_opening hmode hopening]
  refine ⟨hsources, ?_⟩
  rw [standardJson_foldl_take]
  cases hlast : plan.paths.reverse.find? loader.isFile with
  | some path =>
      rw [find?_isFile_eq_some_iff] at hlast
      exact ⟨loader.content path, rfl,
        .inl ⟨path, hlast, (hlast.reads_iff hrefusal).mpr rfl⟩⟩
  | none =>
      have hnone : ∀ path ∈ plan.paths, loader.isFile path = false := by
        simpa using hlast
      have hsome : first.standardJson.isSome = true := by
        rw [Loaded.isEmpty, hsources, standardJson_foldl_take, hlast] at hempty
        simpa [SourceMap.isEmpty, SourceMap.empty] using hempty
      obtain ⟨content, hcontent⟩ := Option.isSome_iff_exists.mp hsome
      exact ⟨content, hcontent,
        .inr ⟨((standardJson_opening hopening).mp hcontent).2, hnone⟩⟩

/-- A successful run of a compiler holds the sources that were read, and one for
a document holds the document alone. -/
theorem load_holds (h : (loader.load plan stdin).result = .ok loaded) :
    (plan.mode = .compiler → loader.HoldsSources plan stdin loaded) ∧
      (plan.mode = .standardJson → loader.HoldsDocument plan stdin loaded) :=
  ⟨fun hmode => holdsSources_of_load hmode h,
    fun hmode => holdsDocument_of_load hmode h⟩

/-- Everything but `/x` is a file, read as one letter that tells how long its
path is. -/
def lengthLoader : Loader where
  fs :=
    { canonicalize := .ok
      kindOf := fun path => if path = ['/', 'x'] then .missing else .file
      read := fun path => .ok [(96 + path.length).toUInt8] }
  naming := .make .posix ['/'] none []
  ignoreMissing := true

def lengthPlan (mode : Mode) : Plan :=
  ⟨mode, [['f'], ['x'], stdinUnitName, ['.', '/', 'f']], true, [], .empty⟩

theorem load_holds_lengthLoader :
    (∃ loaded,
      (lengthLoader.load (lengthPlan .compiler) (.ok [122])).result =
          .ok loaded ∧
        loaded.sources.entries = [(stdinUnitName, ['h']), (['f'], ['d'])] ∧
        lengthLoader.HoldsSources (lengthPlan .compiler) (.ok [122]) loaded) ∧
      ∃ loaded,
        (lengthLoader.load (lengthPlan .standardJson) (.ok [122])).result =
            .ok loaded ∧
          loaded.standardJson = some ['d'] ∧
          lengthLoader.HoldsDocument (lengthPlan .standardJson) (.ok [122])
            loaded :=
  ⟨⟨_, rfl, rfl, (load_holds rfl).1 rfl⟩, ⟨_, rfl, rfl, (load_holds rfl).2 rfl⟩⟩

end InputResolution.Loader
