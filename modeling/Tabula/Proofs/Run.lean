import Tabula.Command.Parser
import Tabula.Proofs.Engine
import Tabula.Session
import Tabula.Storage.Memory

/-!
# Runs

A session takes inputs one after the other, each a line or a command as it stands. What a run does
to a database is said by `Memory.run`, which knows of no files and no remembered selects: each
command is run by the engine, and what it changes is applied to a memory. A command changes at most
the table that it names.
-/

namespace Tabula

/-- What a session is given. -/
inductive Input
  /-- A line, to be read as a command. -/
  | line (text : String)
  /-- A command as it stands. -/
  | ready (command : Command)

/-- The command that an input asks for. -/
def Input.read : Input → Except Error Command
  | .line text => Command.parse text
  | .ready command => .ok command

/-- The table that an input names, if it is a command that names one. -/
def Input.table? (input : Input) : Option String :=
  input.read.toOption.bind Command.table?

/-- What happens over a storage: a session is given an input, or a new one, which remembers selects
or not, takes its place. -/
inductive Move
  | give (input : Input)
  | reopen (remembers : Bool)

/-- The input that is given. -/
def Move.input? : Move → Option Input
  | .give input => some input
  | .reopen _ => none

/-- The table that a change concerns. -/
def Change.table? : Change → Option String
  | .nothing => none
  | .create _ table | .drop _ table | .save table _ => some table

/-- A command changes no other table than the one it names. -/
theorem Engine.Effect.named {catalog : Catalog} {loader : Loader} {command : Command}
    {change : Change} {table : String} (effect : Engine.Effect catalog loader command change)
    (concerned : change.table? = some table) : command.table? = some table := by
  cases effect with
  | nothing => cases concerned
  | create created => exact concerned
  | drop known => exact concerned
  | save named known loaded edit => rwa [← concerned]

namespace Session

variable {State : Type} [Storage State]

/-- Take an input. A line that is no command is refused and changes nothing. -/
def take (session : Session State) (input : Input) : Session State × Except Error Answer :=
  match input.read with
  | .error error => (session, .error error)
  | .ok command => session.execute command

/-- Take inputs one after the other: the session at the end, and all answers. -/
def run (session : Session State) : List Input → Session State × List (Except Error Answer)
  | [] => (session, [])
  | input :: rest =>
      let (next, answer) := session.take input
      let (last, answers) := next.run rest
      (last, answer :: answers)

/-- Make moves one after the other: the session at the end, and the answers to all inputs. -/
def moves (session : Session State) : List Move → Session State × List (Except Error Answer)
  | [] => (session, [])
  | .give input :: rest =>
      let (next, answer) := session.take input
      let (last, answers) := next.moves rest
      (last, answer :: answers)
  | .reopen remembers :: rest => (Session.mk session.storage remembers .empty).moves rest

end Session

namespace Memory

/-- The memory after a change. -/
def apply (memory : Memory) : Change → Memory
  | .nothing => memory
  | .create catalog _ => { memory with catalog }
  | .drop catalog table => { memory with catalog, stores := memory.stores.erase table }
  | .save table store => { memory with stores := memory.stores.insert table store }

/-- Run a command: the memory afterwards, and the answer or the error. -/
def perform (memory : Memory) (command : Command) : Memory × Except Error Answer :=
  match Engine.execute memory.catalog (Storage.loader memory) command with
  | .error error => (memory, .error error)
  | .ok outcome => (memory.apply outcome.change, .ok outcome.answer)

/-- Take an input. -/
def take (memory : Memory) (input : Input) : Memory × Except Error Answer :=
  match input.read with
  | .error error => (memory, .error error)
  | .ok command => memory.perform command

/-- Take inputs one after the other: the memory at the end, and all answers. -/
def run (memory : Memory) : List Input → Memory × List (Except Error Answer)
  | [] => (memory, [])
  | input :: rest =>
      let (next, answer) := memory.take input
      let (last, answers) := next.run rest
      (last, answer :: answers)

variable {memory : Memory} {change : Change} {command : Command} {table other : String}

/-- What a command changes. -/
abbrev Effect (memory : Memory) : Command → Change → Prop :=
  Engine.Effect memory.catalog (Storage.loader memory)

theorem loadValid_eq_ok_iff {schema : Schema} {store : Store} :
    Engine.loadValid (Storage.loader memory) table schema = .ok store ↔
      memory.store table = store ∧ store.Valid schema := by
  rw [Engine.loadValid_eq_ok_iff]
  simp only [Storage.loader, Except.ok.injEq]

theorem Effect.get?_apply (effect : memory.Effect command change)
    (differs : change.table? ≠ some other) :
    (memory.apply change).catalog.get? other = memory.catalog.get? other := by
  cases effect with
  | nothing => rfl
  | create created =>
      rcases Catalog.createTable_eq_ok_iff.mp created with ⟨-, -, -, rfl⟩
      rw [apply, OrderedMap.get?_insert, if_neg (fun same => differs (congrArg some same))]
  | drop known =>
      rw [apply, OrderedMap.get?_erase, if_neg (fun same => differs (congrArg some same))]
  | save named known loaded edit => rfl

theorem Effect.get?_stores_apply (effect : memory.Effect command change)
    (differs : change.table? ≠ some other) :
    (memory.apply change).stores.get? other = memory.stores.get? other := by
  cases effect with
  | nothing => rfl
  | create created => rfl
  | drop known =>
      rw [apply, OrderedMap.get?_erase, if_neg (fun same => differs (congrArg some same))]
  | save named known loaded edit =>
      rw [apply, OrderedMap.get?_insert, if_neg (fun same => differs (congrArg some same))]

theorem Effect.store_apply (effect : memory.Effect command change)
    (differs : change.table? ≠ some other) :
    (memory.apply change).store other = memory.store other := by
  rw [store, store, effect.get?_stores_apply differs]

end Memory

end Tabula
