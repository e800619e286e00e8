import Tabula.Error
import Tabula.FileSystem.Path
import Tabula.Text.Blank

/-!
# Configuration

How a session is set up. Every setting has a default, so a configuration is a list of settings that
differ from it, applied in order. Some settings cannot be run with and are refused.
-/

namespace Tabula

structure Config where
  metaPath : String := "db_meta.json"
  dataDir : String := "data"
  confirmDestructive : Bool := true
  cacheSelects : Bool := true
  showTiming : Bool := false
  logLevel : String := "warn"
  /-- The file of the lines typed before, if they are kept. -/
  historyFile : Option String := none
  inMemory : Bool := false
deriving DecidableEq, Repr

inductive Setting
  | metaPath (path : String)
  | dataDir (path : String)
  | confirmDestructive (on : Bool)
  | cacheSelects (on : Bool)
  | showTiming (on : Bool)
  | logLevel (level : String)
  | historyFile (path : Option String)
  | inMemory (on : Bool)
deriving DecidableEq, Repr

/-- The name of a setting in a configuration document. -/
def Setting.name : Setting → String
  | .metaPath _ => "meta_path"
  | .dataDir _ => "data_dir"
  | .confirmDestructive _ => "confirm_destructive"
  | .cacheSelects _ => "cache_selects"
  | .showTiming _ => "show_timing"
  | .logLevel _ => "log_level"
  | .historyFile _ => "history_file"
  | .inMemory _ => "in_memory"

/-- Whether two settings say the same, with paths read part by part. -/
def Setting.agrees : Setting → Setting → Bool
  | .metaPath left, .metaPath right | .dataDir left, .dataDir right
  | .historyFile (some left), .historyFile (some right) => (Path.ofText left).agrees (.ofText right)
  | left, right => left == right

namespace Config

def set (config : Config) : Setting → Config
  | .metaPath path => { config with metaPath := path }
  | .dataDir path => { config with dataDir := path }
  | .confirmDestructive on => { config with confirmDestructive := on }
  | .cacheSelects on => { config with cacheSelects := on }
  | .showTiming on => { config with showTiming := on }
  | .logLevel level => { config with logLevel := level }
  | .historyFile path => { config with historyFile := path }
  | .inMemory on => { config with inMemory := on }

/-- The configuration with settings changed one after the other. -/
def setAll (config : Config) (settings : List Setting) : Config :=
  settings.foldl set config

/-- All settings of a configuration, in the order of its document. -/
def settings (config : Config) : List Setting :=
  [.metaPath config.metaPath, .dataDir config.dataDir,
    .confirmDestructive config.confirmDestructive, .cacheSelects config.cacheSelects,
    .showTiming config.showTiming, .logLevel config.logLevel,
    .historyFile config.historyFile, .inMemory config.inMemory]

/-- What no session can run with, if there is anything: an empty path, or a blank log level. -/
def fault? (config : Config) : Option ConfigFault :=
  if config.metaPath = "" then some .emptyMetaPath
  else if config.dataDir = "" then some .emptyDataDir
  else if Text.trim config.logLevel.toList = [] then some .emptyLogLevel
  else none

/-- Accept a configuration that a session can run with. -/
def validate (config : Config) : Except Error Unit :=
  match config.fault? with
  | none => .ok ()
  | some fault => .error (.config fault)

/-- Whether a configuration says the same as the default one. -/
def isDefault (config : Config) : Bool :=
  (config.settings.zip (settings {})).all fun settings => settings.1.agrees settings.2

@[simp]
theorem setAll_settings (config other : Config) : other.setAll config.settings = config := by
  simp [setAll, settings, set]

end Config

end Tabula
