import Tabula.CommandLine

/-!
# Options read after `--yes`

Options that do not say `--yes` are read in the same way after one that does, and the configuration
that they ask for differs from what it would have been in one respect: nothing is confirmed.
-/

namespace Tabula

/-- A configuration by which nothing is confirmed. -/
def Config.sure (config : Config) : Config :=
  { config with confirmDestructive := false }

namespace Config

variable {config : Config}

/-- Whether something is confirmed is no reason to refuse a configuration. -/
@[simp]
theorem validate_sure (config : Config) : config.sure.validate = config.validate :=
  rfl

theorem setAll_sure {settings : List Setting}
    (silent : ∀ on, .confirmDestructive on ∈ settings → on = false) :
    config.sure.setAll settings = (config.setAll settings).sure := by
  induction settings generalizing config with
  | nil => rfl
  | cons setting rest ih =>
      have first : config.sure.set setting = (config.set setting).sure := by
        cases setting with
        | confirmDestructive on =>
            have off := silent on List.mem_cons_self
            subst off
            rfl
        | metaPath | dataDir | cacheSelects | showTiming | logLevel | historyFile | inMemory => rfl
      rw [setAll, List.foldl_cons, first]
      apply ih
      intro on on_mem
      exact silent on (List.mem_cons_of_mem _ on_mem)

end Config

namespace CommandLine

namespace Options

variable {options next final : Options} {flag : Flag}

/-- The options after `--yes`. -/
def sure (options : Options) : Options :=
  { options with
    given := options.given ++ [.yes]
    settings := .confirmDestructive false :: options.settings }

/-- What reading further does to options, as far as confirmation goes. -/
structure Extends (options next : Options) : Prop where
  given : options.given ⊆ next.given
  silent (quiet : ∀ on, .confirmDestructive on ∈ options.settings → on = false) :
    ∀ on, .confirmDestructive on ∈ next.settings → on = false

theorem Extends.refl (options : Options) : options.Extends options :=
  ⟨List.Subset.refl _, id⟩

theorem Extends.trans (first : options.Extends next) (second : next.Extends final) :
    options.Extends final :=
  ⟨List.Subset.trans first.given second.given, fun quiet => second.silent (first.silent quiet)⟩

/-! ## One option -/

theorem mem_given_sure (differs : flag ≠ .yes) :
    flag ∈ options.sure.given ↔ flag ∈ options.given := by
  simp [sure, differs]

theorem extends_switch (options : Options) (flag : Flag) :
    options.Extends (options.switch flag) := by
  constructor
  · cases flag <;> exact List.subset_cons_self _ _
  · intro quiet on on_mem
    cases flag with
    | yes =>
        rcases List.mem_append.mp on_mem with before | last
        · exact quiet on before
        · simpa using last
    | _ => exact quiet on (by simpa [switch] using on_mem)

theorem switch_sure (differs : flag ≠ .yes) :
    options.sure.switch flag = (options.switch flag).sure := by
  cases flag with
  | yes => exact absurd rfl differs
  | _ => rfl

theorem mem_given_switch (options : Options) (flag : Flag) :
    flag ∈ (options.switch flag).given := by
  cases flag <;> exact List.mem_cons_self

theorem turnOn_eq_ok_iff :
    options.turnOn flag = .ok next ↔
      flag ≠ .version ∧ flag ≠ .help ∧ flag.takesValue = false ∧ flag ∉ options.given ∧
        options.switch flag = next := by
  cases flag <;> simp [turnOn, Flag.takesValue] <;> split <;> simp [*]

theorem extends_of_turnOn (turned : options.turnOn flag = .ok next) : options.Extends next := by
  rcases turnOn_eq_ok_iff.mp turned with ⟨-, -, -, -, rfl⟩
  exact extends_switch options flag

theorem turnOn_sure (turned : options.turnOn flag = .ok next) (unsure : .yes ∉ next.given) :
    options.sure.turnOn flag = .ok next.sure := by
  rcases turnOn_eq_ok_iff.mp turned with ⟨notVersion, notHelp, bare, fresh, rfl⟩
  have differs : flag ≠ .yes := by
    rintro rfl
    exact unsure (mem_given_switch options .yes)
  rw [turnOn_eq_ok_iff, mem_given_sure differs, switch_sure differs]
  exact ⟨notVersion, notHelp, bare, fresh, rfl⟩

theorem extends_of_value? {value : String} (valued : options.value? flag value = some next) :
    options.Extends next := by
  unfold value? at valued
  dsimp only at valued
  split at valued
  · cases valued
  · split at valued
    all_goals cases valued
    all_goals refine ⟨List.subset_cons_self _ _, fun quiet on on_mem => quiet on ?_⟩
    all_goals simpa using on_mem

theorem value?_sure {value : String} (valued : options.value? flag value = some next) :
    options.sure.value? flag value = some next.sure := by
  have differs : flag ≠ .yes := by
    rintro rfl
    simp [value?] at valued
  unfold value? at valued ⊢
  dsimp only at valued ⊢
  simp only [mem_given_sure differs]
  split at valued
  · cases valued
  · rename_i fresh
    rw [if_neg fresh]
    split at valued
    all_goals cases valued
    all_goals rfl

theorem turnOn_ne_run (options : Options) (flag : Flag) :
    options.turnOn flag ≠ .error (.run final) := by
  cases flag <;> simp [turnOn, Flag.takesValue] <;> split <;> simp

/-! ## Several options -/

theorem turnOnLetters_cases {options : Options} {letters : List Char}
    (turned : options.turnOnLetters letters = .ok final) :
    options.Extends final ∧
      (.yes ∉ final.given → options.sure.turnOnLetters letters = .ok final.sure) := by
  induction letters generalizing options with
  | nil =>
      cases turned
      exact ⟨.refl _, fun _ => rfl⟩
  | cons letter rest ih =>
      rw [turnOnLetters] at turned
      split at turned
      · cases turned
      · rename_i flag known
        split at turned
        · cases turned
        · rename_i next on
          rcases ih turned with ⟨beyond, surely⟩
          refine ⟨(extends_of_turnOn on).trans beyond, fun unsure => ?_⟩
          have sooner := turnOn_sure on fun early => unsure (beyond.given early)
          rw [turnOnLetters, known]
          dsimp only
          rw [sooner]
          exact surely unsure

theorem turnOnLetters_ne_run (options : Options) (letters : List Char) :
    options.turnOnLetters letters ≠ .error (.run final) := by
  induction letters generalizing options with
  | nil => nofun
  | cons letter rest ih =>
      rw [turnOnLetters]
      split
      · nofun
      · rename_i flag known
        split
        · rename_i request refused
          rintro ⟨⟩
          exact turnOn_ne_run options flag refused
        · rename_i next turned
          exact ih next

/-- Options that are read do not ask for confirmation, and they are read after `--yes` as well. -/
theorem read_cases {options : Options} {arguments : List String}
    (done : options.read arguments = .run final) :
    options.Extends final ∧
      (.yes ∉ final.given → options.sure.read arguments = .run final.sure) := by
  induction options, arguments using read.induct with
  | case1 options =>
      cases done
      exact ⟨.refl _, fun _ => rfl⟩
  | case2 options text dashes =>
      simp only [read, dashes, if_true] at done
      cases done
      refine ⟨.refl _, fun _ => ?_⟩
      simp only [read, dashes, if_true]
  | case6 options text rest letters isLetters next turned ih =>
      simp only [read, isLetters, turned] at done
      rcases turnOnLetters_cases turned with ⟨first, sooner⟩
      rcases ih done with ⟨second, later⟩
      refine ⟨first.trans second, fun unsure => ?_⟩
      simp only [read, isLetters, sooner fun early => unsure (second.given early)]
      exact later unsure
  | case9 options text rest name flag known takes value next valued isLong ih =>
      simp only [read, isLong, known, takes, valued, if_true] at done
      rcases ih done with ⟨second, later⟩
      refine ⟨(extends_of_value? valued).trans second, fun unsure => ?_⟩
      simp only [read, isLong, known, takes, value?_sure valued, if_true]
      exact later unsure
  | case12 options text name flag known takes value rest may next valued isLong ih =>
      simp only [read, isLong, known, takes, may, valued, if_true] at done
      rcases ih done with ⟨second, later⟩
      refine ⟨(extends_of_value? valued).trans second, fun unsure => ?_⟩
      simp only [read, isLong, known, takes, may, value?_sure valued, if_true]
      exact later unsure
  | case16 options text rest name attached isLong flag known bare alone next turned ih =>
      simp only [read, isLong, known, bare, alone, turned] at done
      rcases ih done with ⟨second, later⟩
      refine ⟨(extends_of_turnOn turned).trans second, fun unsure => ?_⟩
      have sooner := turnOn_sure turned fun early => unsure (second.given early)
      simp only [read, isLong, known, bare, alone, sooner]
      exact later unsure
  | case5 options text rest letters isLetters request refused =>
      simp only [read, isLetters, refused] at done
      subst done
      exact absurd refused (turnOnLetters_ne_run options letters)
  | case15 options text rest name attached isLong flag known bare alone request refused =>
      simp only [read, isLong, known, bare, alone, refused] at done
      subst done
      exact absurd refused (turnOn_ne_run options flag)
  | _ => simp_all [read]

end Options

/-! ## All arguments -/

variable {options : Options} {arguments : List String} {files : FileSystem} {config : Config}

theorem ofArguments_yes (asked : Request.ofArguments arguments = .run options)
    (unsure : .yes ∉ options.given) :
    Request.ofArguments ("--yes" :: arguments) = .run options.sure := by
  have long : Options.Argument.ofText "--yes" = .long "yes" none := by decide
  have known : Flag.ofName? "yes" = some .yes := by decide
  rw [Request.ofArguments, Options.read, long]
  dsimp only
  rw [known]
  exact (Options.read_cases asked).2 unsure

theorem configure_sure (asked : Request.ofArguments arguments = .run options)
    (configured : configure options files = .ok config) :
    configure options.sure files = .ok config.sure := by
  have silent := (Options.read_cases asked).1.silent nofun
  have settings (base : Config) :
      base.setAll options.sure.settings = (base.setAll options.settings).sure :=
    Config.setAll_sure silent
  have configFile : options.sure.configFile = options.configFile := rfl
  unfold configure at configured ⊢
  rw [configFile]
  dsimp only at configured ⊢
  split at configured
  · cases configured
  · rename_i base _
    rw [settings, Config.validate_sure]
    split at configured
    · cases configured
    · cases configured
      rfl

end CommandLine

end Tabula
