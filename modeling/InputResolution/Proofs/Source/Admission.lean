import InputResolution.Proofs.Source.Confinement

namespace InputResolution.Sandbox

open Disk (FileSystem Place Tree)
open Native (DirectorySet)

/-! Files allowed one after another.  Main statement: in a tree with any links
the set holds the directories of the real places of the files, whatever their
order, and an answer calls a directory new if no file before it lies there. -/

def opened? (fs : FileSystem) (file : Text) : Option Text :=
  (fs.canonicalize file).toOption.map directoryOf

def allow (fs : FileSystem) (allowed : DirectorySet) (file : Text) :
    DirectorySet :=
  match allowFile fs allowed file with
  | .error _ => allowed
  | .ok admission => admission.directories

def allowAll (fs : FileSystem) (files : List Text) : DirectorySet :=
  files.foldl (allow fs) .empty

/-- Every request meets the set that the ones before it left. -/
def answers (fs : FileSystem) :
    DirectorySet → List Text → List (Except Text Admission)
  | _, [] => []
  | allowed, file :: files =>
      allowFile fs allowed file :: answers fs (allow fs allowed file) files

def saysNew (answer : Except Text Admission) : Bool :=
  answer.toOption.any (·.isNew)

section Requests

variable {fs : FileSystem} {allowed : DirectorySet} {file directory : Text}

theorem opened?_of_ok {place : Text} (h : fs.canonicalize file = .ok place) :
    opened? fs file = some (directoryOf place) := by
  rw [opened?, h]
  rfl

theorem opened?_of_error {reason : Text}
    (h : fs.canonicalize file = .error reason) :
    opened? fs file = none := by
  rw [opened?, h]
  rfl

theorem opened?_eq_some_iff :
    opened? fs file = some directory ↔
      ∃ place, fs.canonicalize file = .ok place ∧
        directory = directoryOf place := by
  cases h : fs.canonicalize file with
  | error reason => simp [opened?_of_error h]
  | ok place => simp [opened?_of_ok h, eq_comm]

theorem allowFile_eq_error_iff {reason : Text} :
    allowFile fs allowed file = .error reason ↔
    fs.canonicalize file = .error reason := by
  unfold allowFile
  cases fs.canonicalize file <;> simp

theorem allowFile_eq_ok {admission : Admission}
    (h : allowFile fs allowed file = .ok admission) :
    ∃ directory, opened? fs file = some directory ∧
      admission = ⟨directory, ! allowed.contains directory,
        allowed.insert directory⟩ := by
  unfold allowFile at h
  cases hplace : fs.canonicalize file with
  | error reason => simp [hplace] at h
  | ok place =>
      rw [hplace] at h
      exact ⟨directoryOf place, opened?_of_ok hplace, (Except.ok.inj h).symm⟩

theorem allow_of_error {reason : Text}
    (h : fs.canonicalize file = .error reason) :
    allow fs allowed file = allowed := by
  rw [allow, allowFile_eq_error_iff.mpr h]

theorem allow_of_ok {place : Text} (h : fs.canonicalize file = .ok place) :
    allow fs allowed file = allowed.insert (directoryOf place) := by
  simp only [allow, allowFile, h]

theorem foldl_allow (fs : FileSystem) (files : List Text)
    (allowed : DirectorySet) :
    files.foldl (allow fs) allowed =
      (files.filterMap (opened? fs)).foldl DirectorySet.insert allowed := by
  induction files generalizing allowed with
  | nil => rfl
  | cons file files ih =>
      cases h : fs.canonicalize file with
      | error reason =>
          rw [List.foldl_cons, allow_of_error h,
            List.filterMap_cons_none (opened?_of_error h), ih]
      | ok place =>
          rw [List.foldl_cons, allow_of_ok h,
            List.filterMap_cons_some (opened?_of_ok h), ih, List.foldl_cons]

theorem allowAll_eq (fs : FileSystem) (files : List Text) :
    allowAll fs files =
      (files.filterMap (opened? fs)).foldl DirectorySet.insert .empty :=
  foldl_allow fs files .empty

theorem pairwise_allowAll (fs : FileSystem) (files : List Text) :
    (allowAll fs files).toList.Pairwise Native.Precedes := by
  rw [allowAll_eq]
  exact DirectorySet.pairwise_foldl_insert _ List.Pairwise.nil

theorem getElem?_answers (fs : FileSystem) (allowed : DirectorySet)
    (files : List Text) (index : Nat) :
    (answers fs allowed files)[index]? =
      files[index]?.map
          (allowFile fs ((files.take index).foldl (allow fs) allowed)) := by
  induction files generalizing allowed index with
  | nil => rfl
  | cons file files ih =>
      cases index with
      | zero => rfl
      | succ index => simpa [answers] using ih (allow fs allowed file) index

theorem countP_answers_add_size (files : List Text)
    (hsorted : allowed.toList.Pairwise Native.Precedes) :
    (answers fs allowed files).countP saysNew + allowed.size =
      (files.foldl (allow fs) allowed).size := by
  induction files generalizing allowed with
  | nil => simp [answers]
  | cons file files ih =>
      cases h : fs.canonicalize file with
      | error reason =>
          have hsilent : saysNew (allowFile fs allowed file) = false := by
            rw [allowFile_eq_error_iff.mpr h]
            rfl
          rw [answers, List.countP_cons_of_neg (by simp [hsilent]),
            List.foldl_cons, allow_of_error h, ih hsorted]
      | ok place =>
          have hnew : saysNew (allowFile fs allowed file) =
              ! allowed.contains (directoryOf place) := by
            simp only [allowFile, h]
            rfl
          rw [answers, List.countP_cons, hnew, List.foldl_cons, allow_of_ok h,
            ← ih (DirectorySet.pairwise_insert hsorted _),
            DirectorySet.size_insert hsorted]
          cases allowed.contains (directoryOf place) with
          | false => simp [Nat.add_assoc, Nat.add_comm allowed.size]
          | true => simp

theorem permits_mono {more : DirectorySet} (h : allowed.toList ⊆ more.toList)
    (hpermits : permits allowed file = true) : permits more file = true := by
  unfold permits at hpermits ⊢
  cases hparent : Native.parent? file with
  | none => simp [hparent] at hpermits
  | some directory =>
      simp only [hparent, List.any_eq_true] at hpermits ⊢
      obtain ⟨member, hmember, hbelow⟩ := hpermits
      exact ⟨member, h hmember, hbelow⟩

end Requests

/-- The real place of a file lies in a directory; the top lies in itself. -/
def LiesIn (tree : Tree) (file directory : Text) : Prop :=
  ∃ place, tree.canonicalize file = .ok place ∧
    (Native.parent? place = some directory ∨ place = ['/'] ∧ directory = ['/'])

/-- What a sequence of requests to an empty set leaves, and what each one
answers. -/
structure AllowsInAnyOrder (tree : Tree) (files : List Text) : Prop where
  answers_eq : ∀ index, (answers tree.fileSystem .empty files)[index]? =
    files[index]?.map (allowFile tree.fileSystem
      (allowAll tree.fileSystem (files.take index)))
  fails_iff : ∀ allowed file reason,
    allowFile tree.fileSystem allowed file = .error reason ↔
    tree.canonicalize file = .error reason
  allow_of_fails : ∀ allowed file reason,
    tree.canonicalize file = .error reason →
    allow tree.fileSystem allowed file = allowed
  mem_iff : ∀ directory, directory ∈ (allowAll tree.fileSystem files).toList ↔
    ∃ file ∈ files, LiesIn tree file directory
  nodup : (allowAll tree.fileSystem files).toList.Nodup
  perm : ∀ others, files.Perm others →
    allowAll tree.fileSystem files = allowAll tree.fileSystem others
  isNew_iff : ∀ index admission,
    (answers tree.fileSystem .empty files)[index]? = some (.ok admission) →
      (∃ file, files[index]? = some file ∧
        LiesIn tree file admission.directory) ∧
        (admission.isNew = true ↔
          ∀ earlier ∈ files.take index,
            ¬ LiesIn tree earlier admission.directory)
  countP_saysNew : (answers tree.fileSystem .empty files).countP saysNew =
    (allowAll tree.fileSystem files).size
  permits_append : ∀ more place,
    permits (allowAll tree.fileSystem files) place = true →
    permits (allowAll tree.fileSystem (files ++ more)) place = true

section OnTree

variable {tree : Tree} {file directory : Text}

theorem spelled_of_opened? (h : opened? tree.fileSystem file = some directory) :
    Spelled directory := by
  obtain ⟨place, hplace, rfl⟩ := opened?_eq_some_iff.mp h
  obtain ⟨real, hreal, rfl⟩ := Tree.canonicalize_eq_ok hplace
  have hnamed := (Tree.standing_of_locate? hreal).named
  exact ⟨real.dropLast, hnamed.dropLast, Place.directoryOf_text hnamed⟩

theorem spelled_of_mem_opened? {files : List Text}
    (h : directory ∈ files.filterMap (opened? tree.fileSystem)) :
    Spelled directory := by
  obtain ⟨file, -, hopened⟩ := List.mem_filterMap.mp h
  exact spelled_of_opened? hopened

theorem liesIn_iff_opened? :
    LiesIn tree file directory ↔
    opened? tree.fileSystem file = some directory := by
  rw [opened?_eq_some_iff]
  apply exists_congr
  intro place
  apply and_congr_right
  intro hplace
  obtain ⟨real, hreal, rfl⟩ := Tree.canonicalize_eq_ok hplace
  by_cases htop : real = []
  · rw [htop]
    exact ⟨fun h => (h.resolve_left nofun).2, fun h => .inr ⟨rfl, h⟩⟩
  · have hnamed := (Tree.standing_of_locate? hreal).named
    have hparent := Place.parent?_text hnamed htop
    rw [Place.directoryOf_text hnamed, hparent]
    constructor
    · rintro (hsome | ⟨htext, -⟩)
      · exact (Option.some.inj hsome).symm
      · rw [htext] at hparent
        cases hparent
    · rintro rfl
      exact .inl rfl

theorem mem_allowAll_iff (tree : Tree) (files : List Text) (directory : Text) :
    directory ∈ (allowAll tree.fileSystem files).toList ↔
      ∃ file ∈ files, LiesIn tree file directory := by
  rw [allowAll_eq, DirectorySet.mem_foldl_insert (fun _ _ => spelled_inj)
    (fun _ => spelled_of_mem_opened?) (by simp)]
  simp [liesIn_iff_opened?]

theorem allowAll_eq_of_perm (tree : Tree) {files others : List Text}
    (h : files.Perm others) :
    allowAll tree.fileSystem files = allowAll tree.fileSystem others := by
  rw [allowAll_eq, allowAll_eq]
  exact DirectorySet.foldl_insert_congr (fun _ _ => spelled_inj)
    (fun _ => spelled_of_mem_opened?) fun _ => (h.filterMap _).mem_iff

theorem contains_allowAll_iff (tree : Tree) (files : List Text)
    (h : Spelled directory) :
    (allowAll tree.fileSystem files).contains directory = true ↔
      ∃ file ∈ files, LiesIn tree file directory := by
  rw [← mem_allowAll_iff]
  refine DirectorySet.contains_iff_mem fun member hmember => spelled_inj ?_ h
  obtain ⟨file, -, hlies⟩ := (mem_allowAll_iff tree files member).mp hmember
  exact spelled_of_opened? (liesIn_iff_opened?.mp hlies)

end OnTree

/-- The files alone say what the set holds; each of its directories was new
once. -/
theorem allowsInAnyOrder (tree : Tree) (files : List Text) :
    AllowsInAnyOrder tree files where
  answers_eq index := getElem?_answers tree.fileSystem .empty files index
  fails_iff _ _ _ := allowFile_eq_error_iff
  allow_of_fails _ _ _ hfails := allow_of_error hfails
  mem_iff := mem_allowAll_iff tree files
  nodup := (pairwise_allowAll tree.fileSystem files).nodup
  perm _ := allowAll_eq_of_perm tree
  isNew_iff index admission hanswer := by
    rw [getElem?_answers, Option.map_eq_some_iff] at hanswer
    obtain ⟨file, hfile, hallow⟩ := hanswer
    obtain ⟨directory, hopened, rfl⟩ := allowFile_eq_ok hallow
    refine ⟨⟨file, hfile, liesIn_iff_opened?.mpr hopened⟩, ?_⟩
    have hcontains := contains_allowAll_iff tree (files.take index)
      (spelled_of_opened? hopened)
    rw [Bool.not_eq_true', Bool.eq_false_iff, ne_eq, ← allowAll, hcontains]
    simp
  countP_saysNew := countP_answers_add_size files List.Pairwise.nil
  permits_append more place hpermits := by
    refine permits_mono ?_ hpermits
    rw [allowAll, allowAll, List.foldl_append, foldl_allow _ more]
    exact DirectorySet.subset_foldl_insert _ _

example : (answers linkedTree.fileSystem .empty
    [['/', 'w', '/', 'l'], ['/', 'g'], ['/', 'd', '/', 'f']]).map saysNew =
      [true, false, false] := by
  decide

end InputResolution.Sandbox
