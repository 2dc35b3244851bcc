import InputResolution.Command.Arguments

namespace InputResolution.Command

/-! Which settings a command line gives.  A setting that has been named waits
for its value until the next argument settles it, so on the way it is held with
a value or without one yet.  Main statement: a command line that is read to its
end gives a setting exactly where an argument before the double dash names
it. -/

def doubleDash : Text := ['-', '-']

namespace Setting

def flag (setting : Setting) : Text :=
  '-' :: '-' :: setting.name

/-- An argument names a setting alone, or with a value behind an equals sign. -/
def IsNamedBy (setting : Setting) (argument : Text) : Prop :=
  argument = setting.flag ∨ setting.flag ++ ['='] <+: argument

instance (setting : Setting) (argument : Text) :
    Decidable (setting.IsNamedBy argument) :=
  inferInstanceAs (Decidable (_ ∨ _))

/-- Behind a double dash every argument is an input and names nothing. -/
def IsNamedOn (setting : Setting) (line : List Text) : Prop :=
  ∃ argument ∈ line.takeWhile (· != doubleDash), setting.IsNamedBy argument

instance (setting : Setting) (line : List Text) :
    Decidable (setting.IsNamedOn line) :=
  inferInstanceAs (Decidable (∃ _ ∈ _, _))

theorem name_injective {first second : Setting} (h : first.name = second.name) :
    first = second := by
  revert h
  cases first <;> cases second <;> decide

theorem equals_notMem_name (setting : Setting) : '=' ∉ setting.name := by
  cases setting <;> decide

theorem find?_settings_name (setting : Setting) :
    settings.find? (·.name == setting.name) = some setting := by
  cases setting <;> decide

variable {setting : Setting} {argument text name value : Text}

theorem isNamedBy_dashes_iff :
    setting.IsNamedBy ('-' :: '-' :: text) ↔
      text = setting.name ∨ setting.name ++ ['='] <+: text := by
  simp [IsNamedBy, flag]

theorem IsNamedBy.exists_dashes (h : setting.IsNamedBy argument) :
    ∃ text, argument = '-' :: '-' :: text := by
  rcases h with rfl | ⟨value, rfl⟩
  · exact ⟨setting.name, rfl⟩
  · exact ⟨setting.name ++ ['='] ++ value, rfl⟩

theorem isNamedBy_iff_of_cut?_eq_none (h : Text.cut? '=' text = none) :
    setting.IsNamedBy ('-' :: '-' :: text) ↔ text = setting.name := by
  have hstarts : ¬ setting.name ++ ['='] <+: text := fun hstarts =>
    Text.cut?_eq_none_iff.mp h (hstarts.subset (by simp))
  rw [isNamedBy_dashes_iff, or_iff_left hstarts]

theorem isNamedBy_iff_of_cut?_eq_some
    (h : Text.cut? '=' text = some (name, value)) :
    setting.IsNamedBy ('-' :: '-' :: text) ↔ name = setting.name := by
  obtain ⟨hname, rfl⟩ := Text.cut?_eq_some_iff.mp h
  rw [isNamedBy_dashes_iff]
  constructor
  · rintro (heq | ⟨rest, heq⟩)
    · exact absurd (heq ▸ List.mem_append_right name List.mem_cons_self)
        setting.equals_notMem_name
    · rw [List.append_assoc, List.singleton_append] at heq
      have hcut :=
        Text.cut?_eq_some_iff.mpr ⟨setting.equals_notMem_name, heq.symm⟩
      rw [h] at hcut
      exact congrArg Prod.fst (Option.some.inj hcut)
  · rintro rfl
    exact .inr ⟨value, by simp⟩

theorem isNamedOn_cons_iff {line : List Text} :
    setting.IsNamedOn (argument :: line) ↔
      argument ≠ doubleDash ∧
      (setting.IsNamedBy argument ∨ setting.IsNamedOn line) := by
  by_cases hdash : argument = doubleDash
  · simp [IsNamedOn, hdash]
  · simp [IsNamedOn, hdash]

end Setting

namespace Arguments

def values (arguments : Arguments) : Setting → List Text
  | .basePath => arguments.basePath.toList
  | .includePath => arguments.includePaths
  | .allowPaths => arguments.allowPaths
  | .config => arguments.config.toList

def Gives (arguments : Arguments) (setting : Setting) : Prop :=
  arguments.values setting ≠ []

variable {arguments next : Arguments}

theorem gives_assign_iff {named setting : Setting} {value : Text}
    (h : arguments.assign named value = .ok next) :
    next.Gives setting ↔ arguments.Gives setting ∨ named = setting := by
  cases named with
  | basePath =>
      simp only [assign] at h
      split at h
      · cases h
      · cases h
        cases setting <;> simp [Gives, values]
  | includePath | allowPaths =>
      cases h
      cases setting <;> simp [Gives, values]
  | config =>
      simp only [assign] at h
      split at h
      · cases h
      · split at h
        · cases h
        · cases h
          cases setting <;> simp [Gives, values]

theorem gives_turnOn_iff {switch : Switch} {setting : Setting}
    (h : arguments.turnOn switch = .ok next) :
    next.Gives setting ↔ arguments.Gives setting := by
  cases switch with
  | help | version => cases h
  | standardJson | ignoreMissing =>
      simp only [turnOn] at h
      split at h
      · cases h
      · cases h
        cases setting <;> rfl

end Arguments

theorem exists_of_bind_eq_ok {first : Except ε α} {second : α → Except ε β}
    {result : β} (h : first >>= second = .ok result) :
    ∃ between, first = .ok between ∧ second between = .ok result := by
  cases first with
  | error failure => cases h
  | ok between => exact ⟨between, rfl, h⟩

namespace Reader

/-- A setting is held from where it is named on, before its value has come and
after. -/
def Gives (reader : Reader) (setting : Setting) : Prop :=
  reader.arguments.Gives setting ∨
  ∃ value, reader.pending = some ⟨setting, value⟩

structure Settles (reader settled : Reader) : Prop where
  onlyInputs : settled.onlyInputs = reader.onlyInputs
  pending : settled.pending = none
  gives_iff : ∀ setting, settled.arguments.Gives setting ↔ reader.Gives setting

/-- A step adds the settings of one kind to those that are held, and is no
double dash. -/
structure Adds (reader next : Reader) (added : Setting → Prop) : Prop where
  onlyInputs : next.onlyInputs = reader.onlyInputs
  gives_iff : ∀ setting, next.Gives setting ↔
    reader.Gives setting ∨ added setting

variable {reader next : Reader} {argument text : Text}

theorem settles_of_settle (h : reader.settle = .ok next) :
    reader.Settles next := by
  unfold settle at h
  split at h
  · rename_i hpending
    cases h
    exact ⟨rfl, hpending, by simp [Gives, hpending]⟩
  · cases h
  · rename_i named value hpending
    cases hassign : reader.arguments.assign named value with
    | error stop =>
        rw [hassign] at h
        cases h
    | ok arguments =>
        rw [hassign] at h
        cases h
        refine ⟨rfl, rfl, fun setting => ?_⟩
        simp [Gives, hpending, Arguments.gives_assign_iff hassign]

theorem adds_takeInput (h : reader.takeInput argument = .ok next) :
    reader.Adds next fun _ => False := by
  obtain ⟨settled, hsettle, hnext⟩ := exists_of_bind_eq_ok h
  have hsettled := settles_of_settle hsettle
  cases hnext
  refine ⟨hsettled.onlyInputs, fun setting => ?_⟩
  rw [or_false, ← hsettled.gives_iff]
  cases setting <;>
    simp [Gives, hsettled.pending, Arguments.Gives, Arguments.values]

theorem adds_takeSetting {named : Setting} {value : Option Text}
    (h : reader.takeSetting named value = .ok next) :
    reader.Adds next (named = ·) := by
  obtain ⟨settled, hsettle, hnext⟩ := exists_of_bind_eq_ok h
  have hsettled := settles_of_settle hsettle
  cases value with
  | none =>
      cases hnext
      refine ⟨hsettled.onlyInputs, fun setting => ?_⟩
      rw [← hsettled.gives_iff]
      simp [Gives]
  | some value =>
      obtain ⟨arguments, hassign, hnext⟩ := exists_of_bind_eq_ok hnext
      cases hnext
      refine ⟨hsettled.onlyInputs, fun setting => ?_⟩
      rw [← hsettled.gives_iff, ← Arguments.gives_assign_iff hassign]
      simp [Gives, hsettled.pending]

theorem adds_takeSwitch {switch : Switch}
    (h : reader.takeSwitch switch = .ok next) :
    reader.Adds next fun _ => False := by
  obtain ⟨settled, hsettle, hnext⟩ := exists_of_bind_eq_ok h
  obtain ⟨arguments, hturnOn, hnext⟩ := exists_of_bind_eq_ok hnext
  have hsettled := settles_of_settle hsettle
  cases hnext
  refine ⟨hsettled.onlyInputs, fun setting => ?_⟩
  rw [or_false, ← hsettled.gives_iff, ← Arguments.gives_turnOn_iff hturnOn]
  simp [Gives, hsettled.pending]

theorem adds_takePlain (h : reader.takePlain argument = .ok next) :
    reader.Adds next fun _ => False := by
  unfold takePlain at h
  split at h
  · rename_i named hpending
    cases h
    refine ⟨rfl, fun setting => ?_⟩
    simp [Gives, hpending]
  · exact adds_takeInput h

theorem takeShort_ne_ok {letter : Char} :
    reader.takeShort letter ≠ .ok next := by
  have hstops {switch : Switch} (hswitch : switch = .help ∨ switch = .version) :
      reader.takeSwitch switch ≠ .ok next := by
    intro h
    obtain ⟨settled, -, hnext⟩ := exists_of_bind_eq_ok h
    rcases hswitch with rfl | rfl <;> cases hnext
  intro h
  unfold takeShort at h
  split at h
  · exact hstops (.inl rfl) h
  · split at h
    · exact hstops (.inr rfl) h
    · cases h

def takeNamed (reader : Reader) (name : Text) (value : Option Text) :
    Except Stop Reader :=
  match settings.find? (·.name == name), switches.find? (·.name == name),
      value with
  | some setting, _, value => reader.takeSetting setting value
  | none, some switch, none => reader.takeSwitch switch
  | none, some switch, some value =>
      .error (.usage (.unexpectedValue value switch))
  | none, none, _ => .error (.usage (.unexpectedArgument ("--".toList ++ name)))

theorem takeLong_of_cut?_eq_none (h : Text.cut? '=' text = none) :
    reader.takeLong text = reader.takeNamed text none := by
  rw [takeLong, h]
  rfl

theorem takeLong_of_cut?_eq_some {name value : Text}
    (h : Text.cut? '=' text = some (name, value)) :
    reader.takeLong text = reader.takeNamed name (some value) := by
  rw [takeLong, h]
  rfl

theorem adds_takeNamed {name : Text} {value : Option Text}
    (h : reader.takeNamed name value = .ok next) :
    reader.Adds next fun setting => name = setting.name := by
  cases hsetting : settings.find? (·.name == name) with
  | some named =>
      have hname : named.name = name := by simpa using List.find?_some hsetting
      simp only [takeNamed, hsetting] at h
      obtain ⟨honly, hgives⟩ := adds_takeSetting h
      refine ⟨honly, fun setting => ?_⟩
      rw [hgives, ← hname]
      exact or_congr_right ⟨congrArg Setting.name, Setting.name_injective⟩
  | none =>
      have hname (setting : Setting) : ¬ name = setting.name := by
        rintro rfl
        simp [setting.find?_settings_name] at hsetting
      simp only [takeNamed, hsetting] at h
      split at h
      · cases ‹none = some _›
      · simpa only [hname] using adds_takeSwitch h
      · cases h
      · cases h

theorem adds_takeLong (h : reader.takeLong text = .ok next) :
    reader.Adds next fun setting => setting.IsNamedBy ('-' :: '-' :: text) := by
  cases hcut : Text.cut? '=' text with
  | none =>
      rw [takeLong_of_cut?_eq_none hcut] at h
      simpa only [Setting.isNamedBy_iff_of_cut?_eq_none hcut] using
        adds_takeNamed h
  | some cut =>
      rw [takeLong_of_cut?_eq_some hcut] at h
      simpa only [Setting.isNamedBy_iff_of_cut?_eq_some hcut] using
        adds_takeNamed h

/-! One argument, then a whole line. -/

theorem take_cases (h : reader.take argument = .ok next) :
    (reader.onlyInputs = true ∧ reader.Adds next fun _ => False) ∨
      (reader.onlyInputs = false ∧ argument = doubleDash ∧
        next = { reader with onlyInputs := true }) ∨
      (reader.onlyInputs = false ∧ argument ≠ doubleDash ∧
        reader.Adds next fun setting => setting.IsNamedBy argument) := by
  unfold take at h
  split at h
  · rename_i honly
    exact .inl ⟨honly, adds_takeInput h⟩
  · rename_i honly
    have honly : reader.onlyInputs = false := Bool.not_eq_true _ ▸ honly
    split at h
    · cases h
      exact .inr (.inl ⟨honly, rfl, rfl⟩)
    · rename_i text hlong
      refine .inr (.inr ⟨honly,
        fun hdash => hlong (List.cons.inj (List.cons.inj hdash).2).2, ?_⟩)
      exact adds_takeLong h
    · exact absurd h takeShort_ne_ok
    · rename_i hdouble hlong _
      have hnamed (setting : Setting) : ¬ setting.IsNamedBy argument := by
        intro h
        obtain ⟨text, rfl⟩ := h.exists_dashes
        exact hlong text rfl
      refine .inr (.inr ⟨honly, hdouble, ?_⟩)
      simpa only [hnamed] using adds_takePlain h

theorem gives_foldlM_iff {line : List Text} {last : Reader}
    (h : line.foldlM take reader = .ok last) (setting : Setting) :
    last.Gives setting ↔
      reader.Gives setting ∨ reader.onlyInputs = false ∧
      setting.IsNamedOn line := by
  induction line generalizing reader with
  | nil =>
      cases h
      simp [Setting.IsNamedOn]
  | cons argument line ih =>
      rw [List.foldlM_cons] at h
      obtain ⟨next, htake, hrest⟩ := exists_of_bind_eq_ok h
      rw [ih hrest, Setting.isNamedOn_cons_iff]
      rcases take_cases htake with
        ⟨honly, hadds⟩ | ⟨honly, rfl, rfl⟩ | ⟨honly, hne, hadds⟩
      · simp [hadds.gives_iff, hadds.onlyInputs, honly]
      · simp [Gives]
      · simp [hadds.gives_iff, hadds.onlyInputs, honly, hne, or_assoc]

end Reader

/-- A line gives the settings that are named on it before the double dash. -/
theorem gives_parse_iff {line : List Text} {arguments : Arguments}
    (h : Arguments.parse line = .ok arguments) (setting : Setting) :
    arguments.Gives setting ↔ setting.IsNamedOn line := by
  obtain ⟨last, hread, hlast⟩ := exists_of_bind_eq_ok h
  obtain ⟨settled, hsettle, hresult⟩ := exists_of_bind_eq_ok hlast
  cases hresult
  have hstart : ¬ Reader.start.Gives setting := by
    cases setting <;>
      simp [Reader.Gives, Reader.start, Arguments.Gives, Arguments.values,
        Arguments.none]
  have honly : Reader.start.onlyInputs = false := rfl
  rw [(Reader.settles_of_settle hsettle).gives_iff,
    Reader.gives_foldlM_iff hread]
  simp [hstart, honly]

end InputResolution.Command
