import Tabula.Proofs.OrderedMap
import Tabula.Proofs.Session

/-!
# What a command leaves as it was

A command given to a session over a memory either fails, and then nothing is changed at all; or it
changes the memory as the engine asks for and forgets what is remembered of the table concerned; or
it is a select, and then at most its records are remembered in addition. So it leaves alone all that
belongs to other tables than the one it names, and the memory altogether if it only reads.
-/

namespace Tabula

/-- Whether a command changes no table and no records, whatever it finds. -/
def Command.readsOnly : Command → Bool
  | .listTables | .info _ | .select _ _ | .help | .exit => true
  | .createTable _ _ | .dropTable _ | .insert _ _ | .update _ _ _ | .delete _ _ => false

namespace Engine

variable {catalog : Catalog} {loader : Loader} {command : Command} {table : String}
  {outcome : Outcome}

theorem change_of_readsOnly (reads : command.readsOnly = true)
    (ran : execute catalog loader command = .ok outcome) : outcome.change = .nothing := by
  cases command with
  | createTable | dropTable | insert | update | delete => cases reads
  | listTables | help | exit =>
      cases ran
      rfl
  | info | select =>
      simp only [execute, info, select] at ran
      repeat' split at ran
      all_goals cases ran
      all_goals rfl

/-- A command that finds no record to update or delete changes nothing. -/
theorem change_of_ids_eq_nil (ran : execute catalog loader command = .ok outcome)
    (none : outcome.answer = .updated table [] ∨ outcome.answer = .deleted table []) :
    outcome.change = .nothing := by
  cases command with
  | update | delete =>
      simp only [execute, update, delete] at ran
      repeat' split at ran
      all_goals cases ran
      all_goals simp_all
  | createTable | dropTable | listTables | info | insert | select | help | exit =>
      simp only [execute, createTable, dropTable, info, insert, select] at ran
      repeat' split at ran
      all_goals cases ran
      all_goals rcases none with none | none
      all_goals cases none

end Engine

theorem Memory.Effect.filter_catalog_apply {memory : Memory} {command : Command} {change : Change}
    (effect : memory.Effect command change) {keep : String → Schema → Bool}
    (dropped : ∀ table, change.table? = some table → ∀ schema, keep table schema = false) :
    (memory.apply change).catalog.filter keep = memory.catalog.filter keep := by
  cases effect with
  | nothing => rfl
  | create created =>
      rcases Catalog.createTable_eq_ok_iff.mp created with ⟨-, -, -, rfl⟩
      exact OrderedMap.filter_insert_of_not _ (dropped _ rfl)
  | drop known => exact OrderedMap.filter_erase_of_not (dropped _ rfl)
  | save named known loaded edit => rfl

theorem SelectCache.get?_after_of_ne {cache : SelectCache} {change : Change}
    {selection : Selection} (differs : change.table? ≠ some selection.table) :
    (cache.after change).get? selection = cache.get? selection := by
  rw [after]
  cases concerned : change.table? with
  | none => rfl
  | some table =>
      rw [concerned] at differs
      exact (get?_invalidate cache table selection).trans
        (if_neg fun same => differs (congrArg some same.symm))

namespace Session

variable {session after : Session Memory} {command : Command} {result : Except Error Answer}

/-- The session after a change. -/
def apply (session : Session Memory) (change : Change) : Session Memory :=
  { session with storage := session.storage.apply change, cache := session.cache.after change }

theorem persist_eq (session : Session Memory) (change : Change) :
    session.persist change = (session.apply change, .ok ()) := by
  cases change <;> rfl

/-- What becomes of a session over a memory when it is given a command, and the answer. -/
inductive Turn (session : Session Memory) : Command → Session Memory → Except Error Answer → Prop
  | failed {command : Command} (error : Error) : Turn session command session (.error error)
  | performed {command : Command} {outcome : Outcome}
      (ran : Engine.execute session.storage.catalog (Storage.loader session.storage) command =
        .ok outcome) :
      Turn session command (session.apply outcome.change) (.ok outcome.answer)
  | recalled {table : String} {predicate : Option Predicate} {schema : Schema}
      {records : List Record} (known : session.cache.get? ⟨table, predicate⟩ = some records) :
      Turn session (.select table predicate) session (.ok (.rows table schema records))
  | learned {table : String} {predicate : Option Predicate} {schema : Schema}
      {records : List Record} (unknown : session.cache.get? ⟨table, predicate⟩ = none) :
      Turn session (.select table predicate)
        { session with cache := session.cache.insert ⟨table, predicate⟩ records }
        (.ok (.rows table schema records))

theorem turn_perform (session : Session Memory) (command : Command) :
    session.Turn command (session.perform session.storage.catalog command).1
      (session.perform session.storage.catalog command).2 := by
  rw [perform]
  cases ran : Engine.execute session.storage.catalog (Storage.loader session.storage) command with
  | error error => exact .failed error
  | ok outcome =>
      simp only [persist_eq]
      exact .performed ran

theorem turn_selectRemembered (session : Session Memory) (table : String)
    (predicate : Option Predicate) :
    session.Turn (.select table predicate)
      (session.selectRemembered session.storage.catalog table predicate).1
      (session.selectRemembered session.storage.catalog table predicate).2 := by
  rw [selectRemembered]
  split
  · exact .failed _
  · split
    · rename_i known
      exact .recalled known
    · rename_i unknown
      split
      · exact .failed _
      · exact .learned unknown

theorem turn_execute (session : Session Memory) (command : Command) :
    session.Turn command (session.execute command).1 (session.execute command).2 := by
  cases command with
  | help => exact turn_perform session .help
  | exit => exact turn_perform session .exit
  | select table predicate =>
      change session.Turn _ (ite _ _ _ : Session Memory × _).1 (ite _ _ _ : Session Memory × _).2
      split
      · exact turn_selectRemembered session table predicate
      · exact turn_perform session _
  | createTable | dropTable | listTables | info | insert | update | delete =>
      exact turn_perform session _

/-- What a command leaves as it was. -/
structure Frame (session : Session Memory) (command : Command) (after : Session Memory)
    (result : Except Error Answer) : Prop where
  failed : ∀ error, result = .error error → after = session
  /-- The other tables stay in the catalog, in their order and with their schemas. -/
  tables : after.storage.catalog.filter (fun name _ => command.table? ≠ some name) =
    session.storage.catalog.filter fun name _ => command.table? ≠ some name
  records : ∀ other, command.table? ≠ some other →
    after.storage.stores.get? other = session.storage.stores.get? other
  reads : (command.readsOnly = true ∨ ∃ table,
    result = .ok (.updated table []) ∨ result = .ok (.deleted table [])) →
      after.storage = session.storage
  remembered : ∀ selection, command.table? ≠ some selection.table →
    after.cache.get? selection = session.cache.get? selection

theorem Turn.frame (turn : session.Turn command after result) :
    session.Frame command after result := by
  cases turn with
  | failed error =>
      exact ⟨fun _ _ => rfl, rfl, fun _ _ => rfl, fun _ => rfl, fun _ _ => rfl⟩
  | recalled known => exact ⟨nofun, rfl, fun _ _ => rfl, fun _ => rfl, fun _ _ => rfl⟩
  | @learned table predicate schema records unknown =>
      refine ⟨nofun, rfl, fun _ _ => rfl, fun _ => rfl, fun selection differs => ?_⟩
      refine (OrderedMap.get?_insert _ _ _ _).trans (if_neg ?_)
      rintro rfl
      exact differs rfl
  | @performed command outcome ran =>
      have effect : session.storage.Effect command outcome.change := Engine.effect_of_execute ran
      have concerned : ∀ {other}, command.table? ≠ some other →
          outcome.change.table? ≠ some other :=
        fun differs same => differs (effect.named same)
      refine ⟨nofun, ?_, ?_, ?_, ?_⟩
      · apply effect.filter_catalog_apply
        intro table changed schema
        simp [effect.named changed]
      · intro other differs
        exact effect.get?_stores_apply (concerned differs)
      · intro reads
        have unchanged : outcome.change = .nothing := by
          rcases reads with reads | ⟨table, none⟩
          · exact Engine.change_of_readsOnly reads ran
          · rw [Except.ok.injEq, Except.ok.injEq] at none
            exact Engine.change_of_ids_eq_nil ran none
        rw [apply, unchanged]
        rfl
      · intro selection differs
        exact SelectCache.get?_after_of_ne (concerned differs)

/-- A command that fails changes nothing; one that succeeds leaves alone what belongs to other
tables, and everything that is stored if it only reads or finds nothing to change. -/
theorem frame_execute (session : Session Memory) (command : Command) :
    session.Frame command (session.execute command).1 (session.execute command).2 :=
  (turn_execute session command).frame

end Session

end Tabula
