import Tabula.CommandLine
import Tabula.Elapsed

/-!
# The program

The only module that acts: it reads arguments and lines, shows what the dialogue answers, and
carries what the dialogue does to its files over to the real ones. Before each line it looks at the
places that the line's documents lead through, and afterwards it writes those that have changed.
-/

namespace Tabula.Program

open Tabula.CommandLine

def placeName (location : Location) : String :=
  "/" ++ "/".intercalate location

/-- Look at what stands at a place. -/
def look (location : Location) : IO (Option Node) := do
  match ← (IO.FS.realPath (placeName location)).toBaseIO with
  | .error _ => return none
  | .ok path =>
      if ← path.isDir then return some .directory
      else return some (.file (← IO.FS.readBinFile path))

/-- The files at the places that paths lead through. -/
def observe (workingDirectory : Location) (paths : List String) : IO FileSystem := do
  let mut files : FileSystem := .ofDirectory workingDirectory
  for text in paths do
    let path := Path.ofText text
    for location in FileSystem.route (files.origin path) path.parts do
      match ← look location with
      | none => pure ()
      | some .directory => files := files.addDirectory location
      | some (.file content) =>
          files := { files with contents := files.contents.insert location content }
  return files

/-- Carry the difference between files before and after over to the real ones. -/
def carry (before after : FileSystem) : IO Unit := do
  for location in after.directories do
    unless before.isDirectory location do
      IO.FS.createDirAll (placeName location)
  for (location, content) in after.contents.entries do
    unless before.contents.get? location == some content do
      IO.FS.writeBinFile (placeName location) content
  for location in before.contents.keys do
    unless after.contents.contains location do
      IO.FS.removeFile (placeName location)

/-- Show what happened in a number of nanoseconds. There is no log. -/
def display (nanoseconds : Nat) (happenings : List Happening) : IO Unit := do
  for happening in happenings do
    match happening with
    | .shown (.out text) => IO.print text
    | .shown (.err line) => IO.eprintln line
    | .shown (.elapsed label) =>
        IO.println (Elapsed.line label (nanoseconds / 1000000000).toUInt64
          (nanoseconds % 1000000000).toUInt32)
    | .noted _ => pure ()
  (← IO.getStdout).flush

/-- Hold a dialogue with the user. What is needed before a line is taken and what follows from it
outside the dialogue is given. -/
partial def converse {State : Type} [Storage State] (dialogue : Dialogue State)
    (prepare : Dialogue State → String → IO (Dialogue State))
    (conclude : Dialogue State → Dialogue State → IO Unit) : IO Unit := do
  if dialogue.awaiting = .nothing then return
  display 0 dialogue.prompt
  let typed ← (← IO.getStdin).getLine
  if typed.isEmpty then
    let (next, happenings) := dialogue.finish
    display 0 happenings
    converse next prepare conclude
  else
    let line := LineEditor.erasing.text typed
    let ready ← prepare dialogue line
    let started ← IO.monoNanosNow
    let (next, happenings) := ready.take line
    conclude ready next
    let ended ← IO.monoNanosNow
    display (ended - started) happenings
    converse next prepare conclude

/-- Hold a dialogue as configured. -/
def session (config : Config) (workingDirectory : Location) : IO Unit := do
  display 0 [.shown (.out Dialogue.banner)]
  if config.inMemory then
    converse (Dialogue.start config Memory.empty) (fun dialogue _ => return dialogue)
      fun _ _ => return
  else
    let refresh (dialogue : Dialogue Directory) (files : FileSystem) : Dialogue Directory :=
      { dialogue with session.storage.files := files }
    converse (overFiles config (.ofDirectory workingDirectory))
      (fun dialogue line => do
        return refresh dialogue (← observe workingDirectory (dialogue.documents line)))
      fun before after => carry before.session.storage.files after.session.storage.files

end Tabula.Program

open Tabula Tabula.CommandLine in
def main (arguments : List String) : IO UInt32 := do
  let workingDirectory :=
    (Path.ofText (← IO.currentDir).toString).parts
  match Request.ofArguments arguments with
  | .refused =>
      IO.eprint usageText
      return 2
  | .version =>
      IO.print versionText
      return 0
  | .help =>
      IO.print usageText
      return 0
  | .run options =>
      match configure options (← Program.observe workingDirectory options.configFile.toList) with
      | .error error =>
          IO.eprintln ("Error: " ++ error.message)
          return 1
      | .ok config =>
          Program.session config workingDirectory
          return 0
