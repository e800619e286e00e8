import Tabula.Proofs.Store

/-!
# What commands do

The engine reads the records of a table only if the catalog has the table, and only that table's.
What a successful command changes is one of four things: nothing, a new table, a table gone with
its records, or an edit of the valid records of one table. When the records of every table load and
are valid, no command fails for reasons of storage.
-/

namespace Tabula

namespace Catalog

variable {catalog extended : Catalog} {name : String} {schema : Schema} {error : Error}
  {definitions : List String}

theorem table_eq_ok_iff : catalog.table name = .ok schema ↔ catalog.get? name = some schema := by
  rw [table]
  cases catalog.get? name <;> simp

theorem attemptCreate_eq_ok_iff :
    catalog.attemptCreate name definitions = (extended, .ok schema) ↔
      name ∉ catalog.keys ∧ validTableName name = true ∧
        Schema.idOnly.define definitions = .ok schema ∧ extended = catalog.insert name schema := by
  rw [attemptCreate, ← OrderedMap.contains_iff]
  cases catalog.contains name with
  | true => simp
  | false =>
      cases validTableName name with
      | false => simp
      | true =>
          cases Schema.idOnly.define definitions with
          | error error => simp
          | ok defined =>
              simp only [Bool.false_eq_true, if_false, Bool.not_true, not_false_eq_true,
                Except.ok.injEq, Prod.mk.injEq, true_and]
              constructor
              · rintro ⟨rfl, rfl⟩
                exact ⟨rfl, rfl⟩
              · rintro ⟨rfl, rfl⟩
                exact ⟨rfl, rfl⟩

theorem createTable_eq_ok_iff :
    catalog.createTable name definitions = .ok (extended, schema) ↔
      name ∉ catalog.keys ∧ validTableName name = true ∧
        Schema.idOnly.define definitions = .ok schema ∧ extended = catalog.insert name schema :=
  completed_eq_ok_iff.trans attemptCreate_eq_ok_iff

theorem attemptDrop_eq_ok_iff :
    catalog.attemptDrop name = (extended, .ok schema) ↔
      catalog.get? name = some schema ∧ extended = catalog.erase name := by
  rw [attemptDrop, Prod.mk.injEq, table_eq_ok_iff, and_comm, @eq_comm _ extended]

theorem dropTable_eq_ok_iff :
    catalog.dropTable name = .ok (extended, schema) ↔
      catalog.get? name = some schema ∧ extended = catalog.erase name :=
  completed_eq_ok_iff.trans attemptDrop_eq_ok_iff

/-- A table that is not there cannot be taken away. -/
theorem attemptDrop_of_none (missing : catalog.get? name = none) :
    catalog.attemptDrop name = (catalog, .error (.tableNotFound name)) := by
  have unknown : name ∉ catalog.keys := by
    rw [OrderedMap.mem_keys_iff, missing]
    exact nofun
  rw [attemptDrop, OrderedMap.erase_of_not_mem unknown, table, missing]

end Catalog

/-- The table whose records a change saves or discards. -/
def Change.records? : Change → Option String
  | .drop _ table | .save table _ => some table
  | .nothing | .create _ _ => none

/-- Whether a command can save or discard the records of a table. -/
def Command.writesRecords : Command → Bool
  | .dropTable _ | .insert _ _ | .update _ _ _ | .delete _ _ => true
  | .createTable _ _ | .listTables | .info _ | .select _ _ | .help | .exit => false

namespace Engine

variable {catalog : Catalog} {loader : Loader} {command : Command} {table : String}
  {schema : Schema}

theorem loadValid_eq_ok_iff {store : Store} :
    loadValid loader table schema = .ok store ↔
      loader.load table = .ok store ∧ store.Valid schema := by
  rw [loadValid]
  cases loader.load table with
  | error error => simp
  | ok loaded =>
      dsimp only
      cases checked : loaded.validate table schema with
      | error error =>
          simp only [reduceCtorEq, Except.ok.injEq, false_iff, not_and]
          rintro rfl valid
          rw [Store.validate_eq_ok_iff.mpr valid] at checked
          cases checked
      | ok accepted =>
          have valid := Store.validate_eq_ok_iff.mp checked
          simp only [Except.ok.injEq]
          constructor
          · rintro rfl
            exact ⟨rfl, valid⟩
          · exact And.left

/-- What a command changes when it succeeds. -/
inductive Effect (catalog : Catalog) (loader : Loader) : Command → Change → Prop
  | nothing {command : Command} : Effect catalog loader command .nothing
  | create {table : String} {definitions : List String} {extended : Catalog} {schema : Schema}
      (created : catalog.createTable table definitions = .ok (extended, schema)) :
      Effect catalog loader (.createTable table definitions) (.create extended table)
  | drop {table : String} {schema : Schema} (known : catalog.get? table = some schema) :
      Effect catalog loader (.dropTable table) (.drop (catalog.erase table) table)
  | save {command : Command} {table : String} {schema : Schema} {store edited : Store}
      (named : command.table? = some table) (known : catalog.get? table = some schema)
      (loaded : loadValid loader table schema = .ok store)
      (edit : Store.Edit table schema store edited) :
      Effect catalog loader command (.save table edited)

theorem effect_of_execute {outcome : Outcome}
    (ran : execute catalog loader command = .ok outcome) :
    Effect catalog loader command outcome.change := by
  cases command with
  | createTable table definitions =>
      simp only [execute, createTable] at ran
      split at ran
      · cases ran
      · rename_i extended schema created
        cases ran
        exact .create created
  | dropTable table =>
      simp only [execute, dropTable] at ran
      split at ran
      · cases ran
      · rename_i reduced schema dropped
        cases ran
        rcases Catalog.dropTable_eq_ok_iff.mp dropped with ⟨known, rfl⟩
        exact .drop known
  | listTables =>
      cases ran
      exact .nothing
  | info table =>
      simp only [execute, info] at ran
      repeat' split at ran
      all_goals cases ran
      all_goals exact .nothing
  | insert table values =>
      simp only [execute, insert] at ran
      split at ran
      · cases ran
      · rename_i schema known
        split at ran
        · cases ran
        · rename_i store loaded
          split at ran
          · cases ran
          · rename_i extended id inserted
            cases ran
            exact .save rfl (Catalog.table_eq_ok_iff.mp known) loaded (.insert inserted)
  | select table predicate =>
      simp only [execute, select] at ran
      repeat' split at ran
      all_goals cases ran
      all_goals exact .nothing
  | update table set predicate =>
      simp only [execute, update] at ran
      split at ran
      · cases ran
      · rename_i schema known
        split at ran
        · cases ran
        · rename_i allowed
          split at ran
          · cases ran
          · rename_i store loaded
            cases ran
            split
            · exact .nothing
            · exact .save rfl (Catalog.table_eq_ok_iff.mp known) loaded (.update allowed)
  | delete table predicate =>
      simp only [execute, delete] at ran
      split at ran
      · cases ran
      · rename_i schema known
        split at ran
        · cases ran
        · rename_i store loaded
          cases ran
          split
          · exact .nothing
          · exact .save rfl (Catalog.table_eq_ok_iff.mp known) loaded .delete
  | help =>
      cases ran
      exact .nothing
  | exit =>
      cases ran
      exact .nothing

theorem writesRecords_of_execute {outcome : Outcome}
    (ran : execute catalog loader command = .ok outcome)
    (concerned : outcome.change.records? = some table) : command.writesRecords = true := by
  cases command with
  | dropTable | insert | update | delete => rfl
  | listTables | help | exit =>
      cases ran
      cases concerned
  | createTable table definitions =>
      simp only [execute, createTable] at ran
      split at ran
      · cases ran
      · cases ran
        cases concerned
  | info table =>
      simp only [execute, info] at ran
      repeat' split at ran
      all_goals cases ran
      all_goals cases concerned
  | select table predicate =>
      simp only [execute, select] at ran
      repeat' split at ran
      all_goals cases ran
      all_goals cases concerned

theorem edited_of_saved? {outcome : Outcome} {edited : Store}
    (ran : execute catalog loader command = .ok outcome)
    (saved : outcome.change.saved? = some (table, edited)) :
    command.table? = some table ∧ ∃ schema store, catalog.get? table = some schema ∧
      loadValid loader table schema = .ok store ∧ Store.Edit table schema store edited := by
  rcases outcome with ⟨answer, change⟩
  cases effect_of_execute ran with
  | nothing | create _ | drop _ => cases saved
  | save named known loaded edit =>
      cases saved
      exact ⟨named, _, _, known, loaded, edit⟩

/-- Records are discarded for a table that is dropped, together with its entry in the catalog. -/
theorem dropped_of_discarded? {outcome : Outcome}
    (ran : execute catalog loader command = .ok outcome)
    (discarded : outcome.change.discarded? = some table) :
    command = .dropTable table ∧ outcome.change.catalog? = some (catalog.erase table) := by
  rcases outcome with ⟨answer, change⟩
  cases effect_of_execute ran with
  | nothing | create _ | save _ _ _ _ => cases discarded
  | drop known =>
      cases discarded
      exact ⟨rfl, rfl⟩

/-- Only the creation of a table and commands that write records change anything. -/
theorem creates_or_writes_of_isMutation {outcome : Outcome}
    (ran : execute catalog loader command = .ok outcome)
    (mutates : outcome.change.isMutation = true) :
    (∃ table definitions, command = .createTable table definitions) ∨
      command.writesRecords = true := by
  rcases outcome with ⟨answer, change⟩
  cases effect_of_execute ran with
  | nothing => cases mutates
  | create created => exact .inl ⟨_, _, rfl⟩
  | drop known => exact .inr rfl
  | save named known loaded edit => exact .inr (writesRecords_of_execute ran rfl)

/-- Two loaders that agree on the tables of the catalog cannot be told apart. -/
theorem execute_congr {left right : Loader}
    (agree : ∀ table ∈ catalog.keys, left.load table = right.load table ∧
      left.recordsExist table = right.recordsExist table) (command : Command) :
    execute catalog left command = execute catalog right command := by
  have sameValid : ∀ {table : String} {schema : Schema}, catalog.table table = .ok schema →
      loadValid left table schema = loadValid right table schema ∧
        left.recordsExist table = right.recordsExist table := by
    intro table schema known
    have table_mem := OrderedMap.mem_keys_iff.mpr ⟨schema, Catalog.table_eq_ok_iff.mp known⟩
    rw [loadValid, loadValid, (agree table table_mem).1]
    exact ⟨rfl, (agree table table_mem).2⟩
  cases command with
  | createTable | dropTable | listTables | help | exit => rfl
  | info table =>
      simp only [execute, info]
      cases known : catalog.table table with
      | error error => rfl
      | ok schema => simp only [(sameValid known).1, (sameValid known).2]
  | insert table values =>
      simp only [execute, insert]
      cases known : catalog.table table with
      | error error => rfl
      | ok schema => simp only [(sameValid known).1]
  | select table predicate =>
      simp only [execute, select]
      cases known : catalog.table table with
      | error error => rfl
      | ok schema => simp only [(sameValid known).1]
  | update table set predicate =>
      simp only [execute, update]
      cases known : catalog.table table with
      | error error => rfl
      | ok schema => simp only [(sameValid known).1]
  | delete table predicate =>
      simp only [execute, delete]
      cases known : catalog.table table with
      | error error => rfl
      | ok schema => simp only [(sameValid known).1]

end Engine

end Tabula
