import InputResolution.Proofs.Source.LoadRun
import InputResolution.Proofs.Text.Occurrences

namespace InputResolution.Loader

/-! What the paths of a successful run add up to: the directory of every file,
the names of the files, each where it came first, and for every name the content
of the last file of that name. -/

theorem opening_eq_ok {plan : Plan} {stdin : Stdin} {first : Loaded}
    (h : (opening plan stdin).result = .ok first) :
    (plan.readsStdin = false ∧ first = .empty) ∨
      (plan.readsStdin = true ∧ ∃ bytes, stdin = .ok bytes ∧
        first = store plan.mode .empty stdinUnitName
            (Utf8.decodeLossy bytes)) := by
  unfold opening loadStdin at h
  cases hreads : plan.readsStdin with
  | false => exact .inl ⟨rfl, by simpa [hreads] using h.symm⟩
  | true =>
      cases stdin with
      | error reason => simp [hreads] at h
      | ok bytes => exact .inr ⟨rfl, bytes, rfl, by simpa [hreads] using h.symm⟩

theorem allowedDirectories_opening {plan : Plan} {stdin : Stdin}
    {first : Loaded} (h : (opening plan stdin).result = .ok first) :
    first.allowedDirectories = .empty := by
  rcases opening_eq_ok h with ⟨-, rfl⟩ | ⟨-, bytes, -, rfl⟩
  · rfl
  · cases plan.mode <;> rfl

theorem isEmpty_opening {plan : Plan} {stdin : Stdin} {first : Loaded}
    (h : (opening plan stdin).result = .ok first) :
    first.isEmpty = ! plan.readsStdin := by
  rcases opening_eq_ok h with ⟨hreads, rfl⟩ | ⟨hreads, bytes, -, rfl⟩
  · rw [hreads]
    rfl
  · rw [hreads]
    cases plan.mode <;> rfl

theorem isEmpty_take (loader : Loader) (mode : Mode) (loaded : Loaded)
    (path : Text) :
    (loader.take mode loaded path).isEmpty =
      (loaded.isEmpty && ! loader.isFile path) := by
  unfold take
  cases loader.isFile path with
  | false => simp
  | true =>
      cases mode with
      | standardJson | compiler => simp [Loaded.isEmpty]

theorem isEmpty_foldl_take (loader : Loader) (mode : Mode) (loaded : Loaded)
    (paths : List Text) :
    (paths.foldl (loader.take mode) loaded).isEmpty =
      (loaded.isEmpty && ! paths.any loader.isFile) := by
  induction paths generalizing loaded with
  | nil => simp
  | cons path paths ih =>
      rw [List.foldl_cons, ih, isEmpty_take, List.any_cons, Bool.not_or,
        Bool.and_assoc]

theorem foldl_take_of_isFile {loader : Loader} {mode : Mode}
    (field : Loaded → α) {add : α → Text → α}
    (hadd : ∀ loaded path, loader.isFile path = true →
      field (loader.take mode loaded path) = add (field loaded) path)
    (loaded : Loaded) (paths : List Text) :
    field (paths.foldl (loader.take mode) loaded) =
      (paths.filter loader.isFile).foldl add (field loaded) := by
  induction paths generalizing loaded with
  | nil => rfl
  | cons path paths ih =>
      rw [List.foldl_cons, ih]
      cases hfile : loader.isFile path with
      | true =>
          rw [List.filter_cons_of_pos hfile, List.foldl_cons,
            hadd loaded path hfile]
      | false =>
          have htake : loader.take mode loaded path = loaded :=
            if_neg (by simp [hfile])
          rw [List.filter_cons_of_neg (by simp [hfile]), htake]

theorem foldl_take_of_forall {loader : Loader} {mode : Mode}
    (field : Loaded → α)
    (hfield : ∀ loaded path,
      field (loader.take mode loaded path) = field loaded)
    (loaded : Loaded) (paths : List Text) :
    field (paths.foldl (loader.take mode) loaded) = field loaded := by
  induction paths generalizing loaded with
  | nil => rfl
  | cons path paths ih => rw [List.foldl_cons, ih, hfield]

theorem allowedDirectories_foldl_take (loader : Loader) (loaded : Loaded)
    (paths : List Text) :
    (paths.foldl (loader.take .compiler) loaded).allowedDirectories =
      ((paths.filter loader.isFile).map loader.directory).foldl .insert
        loaded.allowedDirectories := by
  rw [List.foldl_map]
  refine foldl_take_of_isFile Loaded.allowedDirectories
    (fun loaded path hfile => ?_) loaded paths
  rw [take, if_pos hfile]

theorem allowedDirectories_foldl_take_standardJson (loader : Loader)
    (loaded : Loaded) (paths : List Text) :
    (paths.foldl (loader.take .standardJson) loaded).allowedDirectories =
      loaded.allowedDirectories := by
  refine foldl_take_of_forall Loaded.allowedDirectories (fun loaded path => ?_)
    loaded paths
  unfold take
  split <;> rfl

theorem names_foldl_take (loader : Loader) (loaded : Loaded)
    (paths : List Text) :
    (paths.foldl (loader.take .compiler) loaded).sources.names =
      ((paths.filter loader.isFile).map loader.naming.name).foldl enlist
          loaded.sources.names := by
  rw [List.foldl_map]
  refine foldl_take_of_isFile (fun loaded => loaded.sources.names)
    (fun loaded path hfile => ?_)
    loaded paths
  rw [take, if_pos hfile]
  exact SourceMap.names_insert _ _ _

theorem sources_foldl_take_standardJson (loader : Loader) (loaded : Loaded)
    (paths : List Text) :
    (paths.foldl (loader.take .standardJson) loaded).sources =
      loaded.sources := by
  refine foldl_take_of_forall Loaded.sources (fun loaded path => ?_) loaded
    paths
  unfold take
  split <;> rfl

theorem standardJson_foldl_take_compiler (loader : Loader) (loaded : Loaded)
    (paths : List Text) :
    (paths.foldl (loader.take .compiler) loaded).standardJson =
      loaded.standardJson := by
  refine foldl_take_of_forall Loaded.standardJson (fun loaded path => ?_) loaded
    paths
  unfold take
  split <;> rfl

theorem standardJson_foldl_take (loader : Loader) (loaded : Loaded)
    (paths : List Text) :
    (paths.foldl (loader.take .standardJson) loaded).standardJson =
      ((paths.reverse.find? loader.isFile).map loader.content).or
          loaded.standardJson := by
  induction paths generalizing loaded with
  | nil => rfl
  | cons path paths ih =>
      rw [List.foldl_cons, ih, List.reverse_cons, List.find?_append,
        List.find?_singleton, take]
      cases paths.reverse.find? loader.isFile with
      | some last => rfl
      | none => cases loader.isFile path <;> rfl

/-- The file that a name stands for in the end. -/
def lastNamed? (loader : Loader) (paths : List Text) (name : Text) :
    Option Text :=
  paths.reverse.find? fun path =>
    loader.isFile path && loader.naming.name path == name

theorem get?_foldl_take (loader : Loader) (loaded : Loaded) (paths : List Text)
    (name : Text) :
    (paths.foldl (loader.take .compiler) loaded).sources.get? name =
      ((loader.lastNamed? paths name).map loader.content).or
          (loaded.sources.get? name) := by
  induction paths generalizing loaded with
  | nil => rfl
  | cons path paths ih =>
      have hlast : loader.lastNamed? (path :: paths) name =
          (loader.lastNamed? paths name).or
            (if loader.isFile path && loader.naming.name path == name then
              some path else none) := by
        simp [lastNamed?, List.find?_append, List.find?_singleton]
      have htake : (loader.take .compiler loaded path).sources.get? name =
          if loader.isFile path && loader.naming.name path == name then
            some (loader.content path)
          else loaded.sources.get? name := by
        by_cases hfile : loader.isFile path = true
        · by_cases hname : loader.naming.name path = name
          · simp [take, hfile, SourceMap.get?_insert, hname]
          · have hother : ¬ name = loader.naming.name path :=
              fun heq => hname heq.symm
            simp [take, hfile, SourceMap.get?_insert, hname, hother]
        · simp [take, hfile]
      rw [List.foldl_cons, ih, hlast, htake]
      cases loader.lastNamed? paths name with
      | some last => rfl
      | none => split <;> rfl

theorem lastNamed?_eq_some {loader : Loader} {paths : List Text}
    {name path : Text} (h : loader.lastNamed? paths name = some path) :
    path ∈ paths ∧ loader.isFile path = true ∧
    loader.naming.name path = name := by
  have hholds := List.find?_some h
  simp only [Bool.and_eq_true, beq_iff_eq] at hholds
  exact ⟨List.mem_reverse.mp (List.mem_of_find?_eq_some h), hholds.1, hholds.2⟩

theorem exists_lastNamed? {loader : Loader} {paths : List Text} {path : Text}
    (hpath : path ∈ paths) (hfile : loader.isFile path = true) :
    ∃ last, loader.lastNamed? paths (loader.naming.name path) = some last := by
  apply Option.isSome_iff_exists.mp
  rw [lastNamed?, List.find?_isSome]
  exact ⟨path, List.mem_reverse.mpr hpath, by simp [hfile]⟩

end InputResolution.Loader
