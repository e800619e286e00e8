import Tabula.Config

/-!
# Command-line arguments

Options are written with two dashes, and some also with one dash and a letter; letters may stand
together. An option that takes a value has it after an equals sign or as the next argument, which
then must not begin with a dash unless it is a dash alone. No option may be given twice, and
nothing but options may be given. Arguments are read from the left: the first one that is wrong
counts, unless the version or the help was asked for before.
-/

namespace Tabula.CommandLine

inductive Flag
  | config
  | dataDir
  | metaFile
  | history
  | logLevel
  | yes
  | timing
  | noCache
  | inMemory
  | version
  | help
deriving DecidableEq, Repr

namespace Flag

def all : List Flag :=
  [.config, .dataDir, .metaFile, .history, .logLevel, .yes, .timing, .noCache, .inMemory, .version,
    .help]

/-- The name of an option, after its two dashes. -/
def name : Flag → String
  | .config => "config"
  | .dataDir => "data-dir"
  | .metaFile => "meta"
  | .history => "history"
  | .logLevel => "log-level"
  | .yes => "yes"
  | .timing => "timing"
  | .noCache => "no-cache"
  | .inMemory => "in-memory"
  | .version => "version"
  | .help => "help"

def letter? : Flag → Option Char
  | .yes => some 'y'
  | .version => some 'V'
  | .help => some 'h'
  | _ => none

def takesValue : Flag → Bool
  | .config | .dataDir | .metaFile | .history | .logLevel => true
  | _ => false

def ofName? (name : String) : Option Flag :=
  all.find? fun flag => flag.name = name

def ofLetter? (letter : Char) : Option Flag :=
  all.find? fun flag => flag.letter? = some letter

end Flag

/-- What is asked for on the command line, apart from the version and the help: the settings, in
order, and the configuration file they change. -/
structure Options where
  given : List Flag := []
  configFile : Option String := none
  settings : List Setting := []
deriving DecidableEq, Repr

/-- What arguments ask for. -/
inductive Request
  | run (options : Options)
  | version
  | help
  /-- Nothing, since an argument is wrong. -/
  | refused
deriving DecidableEq, Repr

namespace Options

/-- The options with a switch turned on. -/
def switch (options : Options) (flag : Flag) : Options :=
  let given := flag :: options.given
  match flag with
  | .yes => { options with given, settings := options.settings ++ [.confirmDestructive false] }
  | .timing => { options with given, settings := options.settings ++ [.showTiming true] }
  | .noCache => { options with given, settings := options.settings ++ [.cacheSelects false] }
  | .inMemory => { options with given, settings := options.settings ++ [.inMemory true] }
  | _ => { options with given }

/-- The options with a value given; a path must not be empty. -/
def value? (options : Options) (flag : Flag) (value : String) : Option Options :=
  let given := flag :: options.given
  if flag ∈ options.given ∨ (value = "" ∧ flag ≠ .logLevel) then none
  else match flag with
    | .config => some { options with given, configFile := some value }
    | .dataDir => some { options with given, settings := options.settings ++ [.dataDir value] }
    | .metaFile => some { options with given, settings := options.settings ++ [.metaPath value] }
    | .history =>
        some { options with given, settings := options.settings ++ [.historyFile (some value)] }
    | .logLevel => some { options with given, settings := options.settings ++ [.logLevel value] }
    | _ => none

/-- Turn on a switch: the options that go on, or what is asked for instead. -/
def turnOn (options : Options) (flag : Flag) : Except Request Options :=
  match flag with
  | .version => .error .version
  | .help => .error .help
  | flag =>
      if flag.takesValue ∨ flag ∈ options.given then .error .refused
      else .ok (options.switch flag)

/-- Turn on the switches of letters. -/
def turnOnLetters (options : Options) : List Char → Except Request Options
  | [] => .ok options
  | letter :: rest =>
      match Flag.ofLetter? letter with
      | none => .error .refused
      | some flag =>
          match options.turnOn flag with
          | .error request => .error request
          | .ok options => options.turnOnLetters rest

/-- What an argument is. -/
inductive Argument
  /-- The two dashes that end the options. -/
  | dashes
  /-- The name of an option, perhaps with a value after an equals sign. -/
  | long (name : String) (value : Option String)
  | letters (letters : List Char)
  | other
deriving DecidableEq

/-- The parts of a text before and after its first equals sign. -/
def splitValue : List Char → List Char × Option (List Char)
  | [] => ([], none)
  | c :: rest =>
      if c = '=' then ([], some rest)
      else ((c :: (splitValue rest).1), (splitValue rest).2)

def Argument.ofText (text : String) : Argument :=
  match text.toList with
  | ['-', '-'] => .dashes
  | '-' :: '-' :: rest =>
      .long (String.ofList (splitValue rest).1) ((splitValue rest).2.map String.ofList)
  | '-' :: letter :: rest => .letters (letter :: rest)
  | _ => .other

/-- Whether a text may be the value of the option before it. -/
def mayBeValue (text : String) : Bool :=
  text = "-" || text.toList.head? != some '-'

/-- Read arguments, with the options already read. -/
def read (options : Options) : List String → Request
  | [] => .run options
  | text :: rest =>
      match Argument.ofText text with
      | .dashes => if rest = [] then .run options else .refused
      | .other => .refused
      | .letters letters =>
          match options.turnOnLetters letters with
          | .error request => request
          | .ok options => options.read rest
      | .long name attached =>
          match Flag.ofName? name with
          | none => .refused
          | some flag =>
              if flag.takesValue then
                match attached with
                | some value =>
                    match options.value? flag value with
                    | none => .refused
                    | some options => options.read rest
                | none =>
                    match rest with
                    | [] => .refused
                    | value :: rest =>
                        if mayBeValue value then
                          match options.value? flag value with
                          | none => .refused
                          | some options => options.read rest
                        else .refused
              else if attached.isSome then .refused
              else match options.turnOn flag with
                | .error request => request
                | .ok options => options.read rest

end Options

/-- What arguments ask for. -/
def Request.ofArguments (arguments : List String) : Request :=
  Options.read {} arguments

end Tabula.CommandLine
