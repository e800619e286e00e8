import Tabula.CommandLine.Arguments
import Tabula.CommandLine.Dialogue
import Tabula.CommandLine.LineEditor
import Tabula.Document.Config
import Tabula.Storage.Directory
import Tabula.Storage.Memory

/-!
# The command line

What a call of the program does to the files and shows, given its arguments and its input.
-/

namespace Tabula.CommandLine

/-- What a call comes to. -/
structure Outcome where
  /-- The exit code: 0, or 1 if the configuration is refused, or 2 if the arguments are. -/
  code : UInt8
  happenings : List Happening := []
  files : FileSystem

/-- What a call shows. -/
def Outcome.events (outcome : Outcome) : List Event :=
  outcome.happenings.filterMap fun
    | .shown event => some event
    | .noted _ => none

/-- The lines of the error output that come of something that happens, given the lines that the log
writes for each note: none, unless the log passes what is less than a warning. -/
def Happening.errorLines (log : Note → List String) : Happening → List String
  | .shown (.err line) => [line]
  | .shown _ => []
  | .noted note => log note

def Outcome.errorOutput (outcome : Outcome) (log : Note → List String) : List String :=
  outcome.happenings.flatMap (Happening.errorLines log)

def versionText : String :=
  "plaindb 0.1.0\n"

/-- The options there are, explained. -/
def usageText : String :=
  "\n".intercalate
    ["A minimal single-user table store with a SQL-like command language",
      "",
      "Usage: plaindb [OPTIONS]",
      "",
      "Options:",
      "      --config <PATH>       Load settings from a JSON config file",
      "      --data-dir <DIR>      Directory for table documents (default: data)",
      "      --meta <PATH>         Catalog document path (default: db_meta.json)",
      "  -y, --yes                 Do not ask before drop_table and delete",
      "      --timing              Print how long each command took",
      "      --no-cache            Disable select caching",
      "      --in-memory           Keep everything in memory",
      "      --history <PATH>      Persist line-editor history to a file",
      "      --log-level <FILTER>  How much to log (default: warn)",
      "  -h, --help                Print help",
      "  -V, --version             Print version",
      ""]

/-- The configuration that options ask for. The configuration file must be one that a session can
run with by itself, and so must the configuration with the options' settings. -/
def configure (options : Options) (files : FileSystem) : Except Error Config :=
  let base : Except Error Config :=
    match options.configFile with
    | none => .ok {}
    | some path =>
        match files.readText (Path.ofText path) with
        | .error fault => .error (.file fault)
        | .ok text => Config.ofDocument text
  match base with
  | .error error => .error error
  | .ok base =>
      let config := base.setAll options.settings
      match config.validate with
      | .error error => .error error
      | .ok () => .ok config

/-- The paths of the documents that a line of the input can make a dialogue read or write. -/
def Dialogue.documents (dialogue : Dialogue Directory) (line : String) : List String :=
  let directory := dialogue.session.storage
  let command? :=
    match dialogue.awaiting with
    | .command => (Command.parse line).toOption
    | .confirmation command => some command
    | .nothing => none
  directory.metaPath :: ((command?.bind Command.table?).map directory.tablePath).toList

/-- The dialogue over the files in which a configuration keeps the database. -/
def overFiles (config : Config) (files : FileSystem) : Dialogue Directory :=
  .start config { files, metaPath := config.metaPath, dataDir := config.dataDir }

/-- Hold a dialogue over the input. -/
def converse (editor : LineEditor) (config : Config) (input : String) (files : FileSystem) :
    Outcome :=
  if config.inMemory then
    let (_, happenings) := (Dialogue.start config Memory.empty).run (editor.lines input)
    { code := 0, happenings := .shown (.out Dialogue.banner) :: happenings, files }
  else
    let (last, happenings) := (overFiles config files).run (editor.lines input)
    { code := 0, happenings := .shown (.out Dialogue.banner) :: happenings,
      files := last.session.storage.files }

/-- Call the program, with a line editor. -/
def callWith (editor : LineEditor) (arguments : List String) (input : String)
    (files : FileSystem) : Outcome :=
  match Request.ofArguments arguments with
  | .refused => { code := 2, files }
  | .version => { code := 0, happenings := [.shown (.out versionText)], files }
  | .help => { code := 0, happenings := [.shown (.out usageText)], files }
  | .run options =>
      match configure options files with
      | .error _ => { code := 1, files }
      | .ok config => converse editor config input files

@[inherit_doc callWith]
def call : List String → String → FileSystem → Outcome :=
  callWith .erasing

end Tabula.CommandLine
