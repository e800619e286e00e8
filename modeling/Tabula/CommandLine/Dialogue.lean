import Tabula.Command.Parser
import Tabula.Confirmation
import Tabula.Config
import Tabula.Render
import Tabula.Session

/-!
# The dialogue

A dialogue reads lines and answers each. A line is a command, unless the line before was one that
can lose data and is to be confirmed: then it is the answer to the question. Blank lines are passed
over where a command is read. The end of the input declines a question and ends the dialogue.

Besides what it shows, a dialogue notes what may go to a log. Of the log, only what is information
or graver is noted; nothing is a warning or an error. What is finer, such as the time that commands
took, is left out.
-/

namespace Tabula.CommandLine

inductive Event
  | out (text : String)
  | err (line : String)
  /-- The line of the output that tells how long a command took. -/
  | elapsed (label : String)
deriving DecidableEq, Repr

/-- What is noted for the log. -/
inductive Note
  | created (table : String) (schema : Schema)
  | dropped (table : String)
  /-- An action was not let happen. -/
  | cancelled (action : String)
deriving DecidableEq

inductive Happening
  | shown (event : Event)
  | noted (note : Note)
deriving DecidableEq

/-- What the next line of the input is. -/
inductive Awaiting
  | command
  /-- The answer to the question before a command. -/
  | confirmation (command : Command)
  /-- Nothing: the dialogue has ended. -/
  | nothing
deriving DecidableEq

/-- A session with a user. -/
structure Dialogue (State : Type) where
  session : Session State
  confirms : Bool
  showsTiming : Bool
  awaiting : Awaiting := .command

namespace Dialogue

variable {State : Type} [Storage State]

def start (config : Config) (storage : State) : Dialogue State where
  session := { storage, remembers := config.cacheSelects }
  confirms := config.confirmDestructive
  showsTiming := config.showTiming

def banner : String :=
  "\n PlainDB - a minimal table store\n Type 'help' for help, 'exit' to quit\n\n"

/-- What is shown before a line is read. -/
def prompt (dialogue : Dialogue State) : List Happening :=
  match dialogue.awaiting with
  | .command => [.shown (.out "plaindb> ")]
  | .confirmation command => [.shown (.out (Confirmation.question command.action))]
  | .nothing => []

/-- What is noted of a command that runs. It is noted as soon as the catalog has changed, before the
change is kept. -/
def notes (dialogue : Dialogue State) (command : Command) : List Note :=
  match Storage.loadCatalog dialogue.session.storage with
  | .error _ => []
  | .ok catalog =>
      match command with
      | .createTable table definitions =>
          match catalog.createTable table definitions with
          | .error _ => []
          | .ok (_, schema) => [.created table schema]
      | .dropTable table =>
          match catalog.dropTable table with
          | .error _ => []
          | .ok _ => [.dropped table]
      | _ => []

/-- Run a command and show its answer or its error. -/
def perform (dialogue : Dialogue State) (command : Command) : Dialogue State × List Happening :=
  let noted := (dialogue.notes command).map .noted
  match dialogue.session.execute command with
  | (session, .error error) =>
      ({ dialogue with session, awaiting := .command },
        noted ++ [.shown (.err ("Error: " ++ error.message))])
  | (session, .ok answer) =>
      ({ dialogue with session, awaiting := if answer = .exit then .nothing else .command },
        noted ++ .shown (.out (answer.render ++ "\n")) ::
          if dialogue.showsTiming then [.shown (.elapsed command.verb.word)] else [])

/-- Leave a command that was not confirmed. -/
def cancel (dialogue : Dialogue State) (command : Command) : Dialogue State × List Happening :=
  ({ dialogue with awaiting := .command },
    [.noted (.cancelled command.action), .shown (.out "Operation cancelled.\n")])

/-- Take a line as a command. -/
def takeCommand (dialogue : Dialogue State) (line : String) : Dialogue State × List Happening :=
  if Text.trim line.toList = [] then (dialogue, [])
  else match Command.parse line with
    | .error error => (dialogue, [.shown (.err ("Error: " ++ error.message))])
    | .ok command =>
        if dialogue.confirms ∧ command.isDestructive then
          ({ dialogue with awaiting := .confirmation command }, [])
        else dialogue.perform command

/-- Take a line, or the end of the input, as the answer to the question before a command. -/
def takeAnswer (dialogue : Dialogue State) (command : Command) (line? : Option String) :
    Dialogue State × List Happening :=
  match @Confirmation.confirm Empty _ command.action
      (fun _ => line?.any Confirmation.isAffirmative)
      (fun () => .ok (dialogue.perform command)) with
  | .ok (some performed) => performed
  | .ok none => dialogue.cancel command

def take (dialogue : Dialogue State) (line : String) : Dialogue State × List Happening :=
  match dialogue.awaiting with
  | .command => dialogue.takeCommand line
  | .confirmation command => dialogue.takeAnswer command line
  | .nothing => (dialogue, [])

/-- Take the end of the input. -/
def finish (dialogue : Dialogue State) : Dialogue State × List Happening :=
  match dialogue.awaiting with
  | .confirmation command => dialogue.takeAnswer command none
  | _ => ({ dialogue with awaiting := .nothing }, [.shown (.out "Goodbye!\n")])

/-- Take the end of the input as often as it is read. -/
def runOut (dialogue : Dialogue State) : Dialogue State × List Happening :=
  match dialogue.awaiting with
  | .nothing => (dialogue, [])
  | .command =>
      let (last, events) := dialogue.finish
      (last, dialogue.prompt ++ events)
  | .confirmation _ =>
      let (next, events) := dialogue.finish
      let (last, more) := next.finish
      (last, dialogue.prompt ++ events ++ next.prompt ++ more)

/-- Take lines up to the end of the dialogue or of the input. -/
def run (dialogue : Dialogue State) : List String → Dialogue State × List Happening
  | [] => dialogue.runOut
  | line :: rest =>
      if dialogue.awaiting = .nothing then (dialogue, [])
      else
        let (next, events) := dialogue.take line
        let (last, more) := next.run rest
        (last, dialogue.prompt ++ events ++ more)

end Dialogue

end Tabula.CommandLine
