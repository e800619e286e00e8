import Tabula.Config
import Tabula.Json
import Tabula.Json.Reader

/-!
# The configuration document

A configuration is written as an object of all its settings. In reading, settings may be missing
and stand in any order, and members of other names are passed over, but no setting may be given
twice. The settings may also be listed in an array, in their order and without their names, as many
of them as are to differ from the default. What is read must be a configuration that a session can
run with.
-/

namespace Tabula

open Json (Reader)

namespace Setting

def toJson : Setting → Json
  | .metaPath path | .dataDir path | .logLevel path | .historyFile (some path) => .string path
  | .historyFile none => .null
  | .confirmDestructive on | .cacheSelects on | .showTiming on | .inMemory on => .bool on

/-- Read the value of a setting. -/
def valueReader {α : Type} (value : Reader α) (setting : α → Setting) : Reader Setting :=
  fun tokens =>
    match value tokens with
    | .error fault => .error fault
    | .ok (value, rest) => .ok (setting value, rest)

/-- The readers of the settings' values under their names, in the order of the document. -/
def readers : List (String × Reader Setting) :=
  [("meta_path", valueReader Reader.string .metaPath),
    ("data_dir", valueReader Reader.string .dataDir),
    ("confirm_destructive", valueReader Reader.bool .confirmDestructive),
    ("cache_selects", valueReader Reader.bool .cacheSelects),
    ("show_timing", valueReader Reader.bool .showTiming),
    ("log_level", valueReader Reader.string .logLevel),
    ("history_file", valueReader Reader.string? .historyFile),
    ("in_memory", valueReader Reader.bool .inMemory)]

/-- Read a member of a configuration: a setting, or anything under another name. -/
def memberReader : Option String → Reader (Option Setting)
  | none, _ => .error .malformed
  | some key, tokens =>
      match OrderedMap.lookup key readers with
      | some reader =>
          match reader tokens with
          | .error fault => .error fault
          | .ok (setting, rest) => .ok (some setting, rest)
      | none =>
          match Reader.skip tokens with
          | .error fault => .error fault
          | .ok ((), rest) => .ok (none, rest)

/-- Read values with the given readers, one each, up to the end of an array. -/
def listReader : List (Reader Setting) → Reader (List Setting)
  | [], _ => .error .malformed
  | reader :: readers, tokens =>
      match reader tokens with
      | .error fault => .error fault
      | .ok (setting, .comma :: rest) =>
          match listReader readers rest with
          | .error fault => .error fault
          | .ok (settings, rest) => .ok (setting :: settings, rest)
      | .ok (setting, .closeBracket :: rest) => .ok ([setting], rest)
      | .ok _ => .error .malformed

end Setting

namespace Config

def toJson (config : Config) : Json :=
  .object (config.settings.map fun setting => (setting.name, setting.toJson))

/-- Read the settings of a configuration in either form. -/
def settingsReader : Reader (List Setting)
  | .openBracket :: .closeBracket :: rest => .ok ([], rest)
  | .openBracket :: rest => Setting.listReader (Setting.readers.map Prod.snd) rest
  | tokens =>
      match Reader.object Setting.memberReader tokens with
      | .error fault => .error fault
      | .ok (members, rest) =>
          let settings := members.filterMap id
          if (settings.map Setting.name).Nodup then .ok (settings, rest) else .error .malformed

def ofDocument (text : String) : Except Error Config :=
  match settingsReader.readAll text with
  | .error _ => .error (.config .unreadable)
  | .ok settings =>
      let config := setAll {} settings
      match config.validate with
      | .error error => .error error
      | .ok () => .ok config

end Config

end Tabula
