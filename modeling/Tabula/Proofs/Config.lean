import Mathlib.Data.List.Perm.Subperm
import Tabula.CommandLine
import Tabula.Proofs.FileSystem
import Tabula.Proofs.Json.Grammar
import Tabula.Proofs.Json.Reading

/-!
# Configurations and their documents

A configuration document may give any of the settings in any order, each at most once, with members
of other names among them, laid out and spelled in any way that JSON allows. Whatever its order, it
denotes the default configuration with just the settings that it gives; and it is refused exactly if
that configuration cannot be run with.
-/

namespace Tabula

open Json (Blank Grammatical Padded ReadAs Reader Spelled Token quote)

/-! ## Texts -/

/-- The texts of the values that settings have. -/
inductive Json.ScalarText : Json → List Char → Prop
  | null : ScalarText .null "null".toList
  | truth (truth : Bool) : ScalarText (.bool truth) (writeTruth truth)
  | string {content : String} {body : List Char} (spelled : Spelled content.toList body) :
      ScalarText (.string content) (quote body)

namespace Config

/-- The text of a member of a document: a setting under its name, or anything under a name that no
setting has. -/
inductive MemberText : Option Setting → List Char → Prop
  | setting {setting : Setting} {body key value text : List Char}
      (named : Spelled setting.name.toList body) (keyAround : Padded (quote body) key)
      (valued : Json.ScalarText setting.toJson value) (valueAround : Padded value text) :
      MemberText (some setting) (key ++ ':' :: text)
  | other {name : String} {body key text : List Char}
      (unknown : ∀ setting : Setting, setting.name ≠ name) (named : Spelled name.toList body)
      (keyAround : Padded (quote body) key) (element : Grammatical .element text) :
      MemberText none (key ++ ':' :: text)

/-- The text of the members of a document, one at least. -/
inductive MembersText : List (Option Setting) → List Char → Prop
  | last {member : Option Setting} {text : List Char} (written : MemberText member text) :
      MembersText [member] text
  | more {member : Option Setting} {members : List (Option Setting)} {text rest : List Char}
      (written : MemberText member text) (others : MembersText members rest) :
      MembersText (member :: members) (text ++ ',' :: rest)

/-- The text of a document with some members. -/
inductive DocumentText : List (Option Setting) → List Char → Prop
  | empty {inner text : List Char} (blank : Blank inner)
      (around : Padded ('\x7b' :: (inner ++ ['\x7d'])) text) : DocumentText [] text
  | members {members : List (Option Setting)} {inner text : List Char}
      (written : MembersText members inner) (around : Padded ('\x7b' :: (inner ++ ['\x7d'])) text) :
      DocumentText members text

/-! ## Overriding -/

/-- The configuration with the settings of some names taken from another. -/
def taking (config other : Config) (names : List String) : Config where
  metaPath := if "meta_path" ∈ names then other.metaPath else config.metaPath
  dataDir := if "data_dir" ∈ names then other.dataDir else config.dataDir
  confirmDestructive :=
    if "confirm_destructive" ∈ names then other.confirmDestructive else config.confirmDestructive
  cacheSelects := if "cache_selects" ∈ names then other.cacheSelects else config.cacheSelects
  showTiming := if "show_timing" ∈ names then other.showTiming else config.showTiming
  logLevel := if "log_level" ∈ names then other.logLevel else config.logLevel
  historyFile := if "history_file" ∈ names then other.historyFile else config.historyFile
  inMemory := if "in_memory" ∈ names then other.inMemory else config.inMemory

section

variable {config other : Config}

theorem set_taking {setting : Setting} (own : setting ∈ other.settings) (names : List String) :
    (config.set setting).taking other names = config.taking other (setting.name :: names) := by
  simp only [settings, List.mem_cons, List.not_mem_nil, or_false] at own
  rcases own with rfl | rfl | rfl | rfl | rfl | rfl | rfl | rfl <;>
    simp [taking, set, Setting.name]

/-- Settings of one configuration are taken from it in whichever order they are set. -/
theorem setAll_eq_taking {chosen : List Setting}
    (own : ∀ setting ∈ chosen, setting ∈ other.settings) :
    config.setAll chosen = config.taking other (chosen.map Setting.name) := by
  -- A setting that is set early is not lost to a later one of its name, which is the same setting.
  induction chosen generalizing config with
  | nil => simp [setAll, taking]
  | cons setting chosen ih =>
      rw [List.forall_mem_cons] at own
      rw [List.map_cons, ← set_taking own.1, ← ih own.2]
      rfl

theorem nodup_names (config : Config) : (config.settings.map Setting.name).Nodup := by
  simp only [settings, List.map_cons, List.map_nil, Setting.name]
  decide

end

/-! ## Reading -/

theorem readAs_scalarText {json : Json} {text : List Char} (written : Json.ScalarText json text) :
    ReadAs text json.tokens := by
  cases written with
  | null => exact Json.readAs_null
  | truth truth => exact Json.readAs_truth truth
  | string spelled => exact Json.readAs_of_spelled spelled

theorem reads_memberReader (setting : Setting) :
    (Setting.memberReader (some setting.name)).Reads setting.toJson (some setting) := by
  intro rest
  cases setting with
  | historyFile path => cases path <;> rfl
  | _ => rfl

theorem lookup_readers_eq_none {name : String}
    (unknown : ∀ setting : Setting, setting.name ≠ name) :
    OrderedMap.lookup name Setting.readers = none := by
  rw [OrderedMap.lookup_eq_none_iff]
  intro known
  have names : Setting.readers.map Prod.fst = (settings {}).map Setting.name := rfl
  rw [names, List.mem_map] at known
  rcases known with ⟨setting, -, same⟩
  exact unknown setting same

theorem takes_memberReader {name : String} (unknown : ∀ setting : Setting, setting.name ≠ name)
    {tokens : List Token} (passed : Reader.Passed .element tokens) :
    (Setting.memberReader (some name)).Takes tokens none := by
  intro rest
  have skipped : Reader.skip (tokens ++ rest) = .ok ((), rest) := by
    rw [Reader.skip, passed [] .value (by decide), Reader.skipFrom]
  rw [Setting.memberReader, lookup_readers_eq_none unknown]
  simp only [skipped]

theorem MemberText.exists_takes {member : Option Setting} {text : List Char}
    (written : MemberText member text) :
    ∃ name tokens, ReadAs text (.string (some name) :: .colon :: tokens) ∧
      (Setting.memberReader (some name)).Takes tokens member := by
  cases written with
  | setting named keyAround valued valueAround =>
      have key := (Json.readAs_of_spelled named).padded keyAround
      have value := (readAs_scalarText valued).padded valueAround
      exact ⟨_, _, key.join (by decide) value, reads_memberReader _⟩
  | other unknown named keyAround element =>
      rcases Reader.exists_passed element with ⟨tokens, value, passed⟩
      have key := (Json.readAs_of_spelled named).padded keyAround
      exact ⟨_, tokens, key.join (by decide) value, takes_memberReader unknown passed⟩

theorem MembersText.exists_takes {members : List (Option Setting)} {text : List Char}
    (written : MembersText members text) :
    ∃ tokens, ReadAs text tokens ∧ Reader.TakesMembers Setting.memberReader tokens members := by
  induction written with
  | last written =>
      rcases written.exists_takes with ⟨name, tokens, readAs, takes⟩
      exact ⟨_, readAs, .last takes⟩
  | more written _ ih =>
      rcases written.exists_takes with ⟨name, tokens, readAs, takes⟩
      rcases ih with ⟨others, othersReadAs, taken⟩
      exact ⟨_, readAs.join (by decide) othersReadAs, .more takes taken⟩

theorem DocumentText.exists_takes {members : List (Option Setting)} {text : List Char}
    (written : DocumentText members text) :
    ∃ tokens, ReadAs text (.openBrace :: tokens) ∧
      (Reader.object Setting.memberReader).Takes (.openBrace :: tokens) members := by
  cases written with
  | @empty inner _ blank around =>
      have enclosed : ReadAs ('\x7b' :: (inner ++ ['\x7d'])) [.openBrace, .closeBrace] :=
        (Json.readAs_blank blank).enclose (by decide) (by decide)
      exact ⟨_, enclosed.padded around, fun _ => rfl⟩
  | members written around =>
      rcases written.exists_takes with ⟨tokens, readAs, taken⟩
      exact ⟨_, (readAs.enclose (by decide) (by decide)).padded around, taken.object⟩

theorem takes_settingsReader {members : List (Option Setting)} {tokens : List Token}
    (takes : (Reader.object Setting.memberReader).Takes (.openBrace :: tokens) members)
    (distinct : ((members.filterMap id).map Setting.name).Nodup) :
    settingsReader.Takes (.openBrace :: tokens) (members.filterMap id) := by
  intro rest
  have read := takes rest
  rw [List.cons_append] at read ⊢
  rw [settingsReader, read]
  · exact if_pos distinct
  · nofun
  · nofun

theorem validate_eq_ok_or (config : Config) :
    config.validate = .ok () ∨ ∃ fault, config.validate = .error (.config fault) := by
  rw [validate]
  cases config.fault? with
  | none => exact .inl rfl
  | some fault => exact .inr ⟨fault, rfl⟩

/-- What is read from settings is refused for the reason that their configuration is. -/
theorem ofDocument_of_readAll {text : String} {chosen : List Setting}
    (read : settingsReader.readAll text = .ok chosen) :
    ((setAll {} chosen).validate = .ok () → ofDocument text = .ok (setAll {} chosen)) ∧
      ∀ error, (setAll {} chosen).validate = .error error → ofDocument text = .error error := by
  rw [ofDocument, read]
  refine ⟨fun valid => ?_, fun error invalid => ?_⟩
  · simp only [valid]
  · simp only [invalid]

/-- A document denotes the default configuration with the settings that it gives. -/
theorem ofDocument_of_documentText {config : Config} {members : List (Option Setting)}
    {text : String} (chosen : (members.filterMap id).Subperm config.settings)
    (written : DocumentText members text.toList) :
    ((taking {} config ((members.filterMap id).map Setting.name)).validate = .ok () →
        ofDocument text = .ok (taking {} config ((members.filterMap id).map Setting.name))) ∧
      ∀ error,
        (taking {} config ((members.filterMap id).map Setting.name)).validate = .error error →
          ofDocument text = .error error := by
  rcases written.exists_takes with ⟨tokens, readAs, takes⟩
  rcases chosen with ⟨part, same, inside⟩
  have distinct : ((members.filterMap id).map Setting.name).Nodup :=
    (same.map Setting.name).nodup ((inside.map Setting.name).nodup config.nodup_names)
  have read := Reader.readAll_of_takes (takes_settingsReader takes distinct)
    (Json.lex_of_readAs readAs)
  have denoted := ofDocument_of_readAll read
  rw [setAll_eq_taking fun setting own => inside.subset (same.symm.subset own)] at denoted
  exact denoted

/-! ## Written configurations -/

theorem reads_settingsReader (config : Config) :
    settingsReader.Reads config.toJson config.settings := by
  have reads : (Reader.object Setting.memberReader).Reads config.toJson
      (config.settings.map some) := by
    refine Reader.reads_object ?_
    intro setting _
    exact reads_memberReader setting
  have given : (config.settings.map some).filterMap id = config.settings := by
    rw [List.filterMap_map, Function.id_comp, List.filterMap_some]
  have takes := takes_settingsReader reads (given ▸ config.nodup_names)
  rw [given] at takes
  exact takes

theorem ofDocument_write_eq_ok_iff (config : Config) (layout : Json.Layout) :
    ofDocument (config.toJson.write layout) = .ok config ↔ config.validate = .ok () := by
  have denoted := ofDocument_of_readAll (Reader.readAll_write config.reads_settingsReader layout)
  rw [setAll_settings] at denoted
  refine ⟨fun read => ?_, denoted.1⟩
  rcases config.validate_eq_ok_or with valid | ⟨fault, invalid⟩
  · exact valid
  · have refused := denoted.2 _ invalid
    rw [read] at refused
    cases refused

/-! ## The default configuration -/

/-- The two paths of the default configuration may be written in other ways. -/
theorem isDefault_iff {config : Config} :
    config.isDefault = true ↔
      (Path.ofText config.metaPath).agrees (.ofText ({} : Config).metaPath) = true ∧
        (Path.ofText config.dataDir).agrees (.ofText ({} : Config).dataDir) = true ∧
          ∃ metaPath dataDir, config = { metaPath, dataDir } := by
  rcases config with ⟨metaPath, dataDir, confirms, caches, timed, level, _ | path, inMemory⟩
  · simp [isDefault, settings, Setting.agrees]
  · simp [isDefault, settings, Setting.agrees]

theorem isDefault_default : ({} : Config).isDefault = true :=
  isDefault_iff.mpr ⟨Path.agrees_self _, Path.agrees_self _, _, _, rfl⟩

theorem validate_of_isDefault {config : Config} (same : config.isDefault = true) :
    config.validate = .ok () := by
  rcases isDefault_iff.mp same with ⟨metaAgrees, dataAgrees, metaPath, dataDir, rfl⟩
  have named : metaPath ≠ "" := by
    rintro rfl
    have differs : (Path.ofText "").agrees (.ofText "db_meta.json") = false := by decide +kernel
    exact Bool.false_ne_true (differs.symm.trans metaAgrees)
  have placed : dataDir ≠ "" := by
    rintro rfl
    have differs : (Path.ofText "").agrees (.ofText "data") = false := by decide +kernel
    exact Bool.false_ne_true (differs.symm.trans dataAgrees)
  have level : Text.trim "warn".toList ≠ [] := by decide
  rw [validate, fault?, if_neg named, if_neg placed, if_neg level]

/-! ## Files -/

theorem validate_of_ofDocument {text : String} {config : Config}
    (read : ofDocument text = .ok config) : config.validate = .ok () := by
  rw [ofDocument] at read
  split at read
  · cases read
  · simp only at read
    split at read
    · cases read
    · rename_i valid
      cases read
      exact valid

/-- A configuration that is read from a file alone is what the document in it denotes. -/
theorem configure_file {path text : String} {files : FileSystem}
    (held : files.readText (Path.ofText path) = .ok text) :
    CommandLine.configure { configFile := some path } files = ofDocument text := by
  rw [CommandLine.configure]
  simp only [held]
  cases read : ofDocument text with
  | error error => rfl
  | ok config =>
      have valid := validate_of_ofDocument read
      simp [setAll, valid]

/-- A document that gives any settings of a configuration, in any order and spelling, with members
of other names among them, denotes the default configuration with exactly these settings taken from
that configuration, or is refused if no session can run with it. So a configuration is read back
from its own document just if a session can run with it. A file denotes what its text does. -/
theorem documents_override :
    (∀ (config : Config) (members : List (Option Setting)) (text : String),
        (members.filterMap id).Subperm config.settings → DocumentText members text.toList →
          let merged := taking {} config ((members.filterMap id).map Setting.name)
          (merged.validate = .ok () → ofDocument text = .ok merged) ∧
            ∀ error, merged.validate = .error error →
              ofDocument text = .error error ∧ ∃ fault, error = .config fault) ∧
      (∀ (config : Config) (layout : Json.Layout),
        ofDocument (config.toJson.write layout) = .ok config ↔ config.validate = .ok ()) ∧
      ∀ (path text : String) (files : FileSystem), files.readText (Path.ofText path) = .ok text →
        CommandLine.configure { configFile := some path } files = ofDocument text := by
  refine ⟨fun config members text chosen written => ?_, ofDocument_write_eq_ok_iff,
    fun _ _ _ => configure_file⟩
  have denoted := ofDocument_of_documentText chosen written
  refine ⟨denoted.1, fun error invalid => ⟨denoted.2 error invalid, ?_⟩⟩
  rcases validate_eq_ok_or (taking {} config ((members.filterMap id).map Setting.name)) with
    valid | ⟨fault, refused⟩
  · rw [valid] at invalid
    cases invalid
  · rw [refused] at invalid
    cases invalid
    exact ⟨fault, rfl⟩

/-- In this document the path is given by an escape, and the timing is not given. -/
theorem documents_override_escaped :
    let config : Config := { metaPath := "é", showTiming := true }
    let members := [none, some (.historyFile none), some (.metaPath "é")]
    let text := "\x7b\"note\":[-0.5], \"history_file\": null,\"meta_path\":\"\\u00e9\"\x7d"
    (members.filterMap id).Subperm config.settings ∧ DocumentText members text.toList ∧
      ofDocument text = .ok { metaPath := "é" } ∧
      ∃ files : FileSystem, files.readText (Path.ofText "c.json") = .ok text ∧
        CommandLine.configure { configFile := some "c.json" } files = .ok { metaPath := "é" } := by
  intro config members text
  have chosen : (members.filterMap id).Subperm config.settings :=
    ⟨[.metaPath "é", .historyFile none], .swap _ _ _, by decide⟩
  have nothing : Blank [] := List.forall_mem_nil _
  have space : Blank [' '] := List.forall_mem_singleton.mpr (by decide)
  have note : MemberText none "\"note\":[-0.5]".toList := by
    have minus : ['-'] ∈ [[], ['-']] := by decide
    have five : Json.Digits ['5'] := ⟨List.cons_ne_nil _ _, List.forall_mem_singleton.mpr rfl⟩
    have number := Grammatical.number (.intro minus .zero (.digits five) .none)
    have listed := Grammatical.array (.lastElement (.element number (.intro nothing nothing)))
    refine .other ?_ (Json.spelled_escaped "note".toList) (.intro nothing nothing)
      (.element listed (.intro nothing nothing))
    intro setting
    cases setting <;> simp [Setting.name]
  have history : MemberText (some (.historyFile none)) " \"history_file\": null".toList :=
    @MemberText.setting (.historyFile none) _ _ _ _ (Json.spelled_escaped "history_file".toList)
      (.intro space nothing) .null (.intro space nothing)
  have path : MemberText (some (.metaPath "é")) "\"meta_path\":\"\\u00e9\"".toList := by
    have zero : ('0', 0) ∈ Json.hexDigits := by decide
    have fourteen : ('e', 14) ∈ Json.hexDigits := by decide
    have nine : ('9', 9) ∈ Json.hexDigits := by decide
    have denoted : Json.Denotes [.code 0xE9] "é".toList :=
      @Json.Denotes.code [] 'é' [] (by decide) .nil
    have spelled : Spelled "é".toList "\\u00e9".toList :=
      ⟨_, .cons (.code zero zero fourteen nine) .nil, denoted⟩
    exact @MemberText.setting (.metaPath "é") _ _ _ _ (Json.spelled_escaped "meta_path".toList)
      (.intro nothing nothing) (.string spelled) (.intro nothing nothing)
  have written : DocumentText members text.toList := by
    have built := DocumentText.members (.more note (.more history (.last path)))
      (.intro nothing nothing)
    dsimp only [text]
    exact built
  have valid : ({ metaPath := "é" } : Config).validate = .ok () := rfl
  have read := (documents_override.1 config members text chosen written).1 valid
  have held : FileSystem.readText ⟨[], .single ["c.json"] text.toUTF8, []⟩
      (Path.ofText "c.json") = .ok text :=
    FileSystem.readText_toUTF8 rfl
  exact ⟨chosen, written, read, _, held, (documents_override.2.2 _ _ _ held).trans read⟩

end Config

end Tabula
