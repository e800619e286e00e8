import Tabula.Proofs.Refusal
import Tabula.Proofs.Session

/-!
# The integrity of a database

Whatever is typed, a database that began empty stays whole: its tables can name files, every record
set belongs to a table and fits that table's schema, and the `ID`s in it are positive and increase.
What one change preserves (`Sound.apply`) is carried through a run by induction. Since nothing that
is stored is ever corrupt, no run answers that it is.
-/

namespace Tabula.Memory

variable {memory : Memory} {command : Command} {change : Change}

/-- What every change preserves: tables can name files, and every record set belongs to a table,
fits its schema and has increasing `ID`s. -/
structure Sound (memory : Memory) : Prop where
  names : ∀ table ∈ memory.catalog.keys, validTableName table = true
  records {table : String} {store : Store} (kept : memory.stores.get? table = some store) :
    ∃ schema, memory.catalog.get? table = some schema ∧ store.Valid schema ∧ store.Increasing

theorem sound_empty : empty.Sound where
  names table table_mem := by simp [empty] at table_mem
  records kept := by simp [empty] at kept

/-- In a sound memory the records of every table are valid and increase. -/
theorem Sound.store (sound : memory.Sound) {table : String} {schema : Schema}
    (known : memory.catalog.get? table = some schema) :
    (memory.store table).Valid schema ∧ (memory.store table).Increasing := by
  rw [Memory.store]
  cases kept : memory.stores.get? table with
  | none => exact ⟨Store.valid_empty, List.Pairwise.nil⟩
  | some store =>
      rcases sound.records kept with ⟨other, sameTable, valid, increasing⟩
      have sameSchema : other = schema := Option.some.inj (sameTable.symm.trans known)
      subst sameSchema
      exact ⟨valid, increasing⟩

theorem Sound.apply (sound : memory.Sound) (effect : memory.Effect command change) :
    (memory.apply change).Sound := by
  cases effect with
  | nothing => exact sound
  | @create table definitions extended schema created =>
      rcases Catalog.createTable_eq_ok_iff.mp created with ⟨unbound, valid, -, rfl⟩
      refine ⟨?_, ?_⟩
      · intro name name_mem
        rcases OrderedMap.mem_keys_insert.mp name_mem with rfl | old
        · exact valid
        · exact sound.names name old
      · intro other store kept
        rcases sound.records kept with ⟨schema, known, fits⟩
        refine ⟨schema, ?_, fits⟩
        have differs : table ≠ other := by
          rintro rfl
          exact unbound (OrderedMap.mem_keys_iff.mpr ⟨schema, known⟩)
        rw [Memory.apply, OrderedMap.get?_insert, if_neg differs]
        exact known
  | @drop table schema found =>
      refine ⟨?_, ?_⟩
      · intro name name_mem
        rw [Memory.apply, OrderedMap.keys_erase] at name_mem
        exact sound.names name (List.mem_of_mem_filter name_mem)
      · intro other store kept
        rw [Memory.apply, OrderedMap.get?_erase] at kept
        split at kept
        · cases kept
        · rename_i differs
          rcases sound.records kept with ⟨schema, known, fits⟩
          refine ⟨schema, ?_, fits⟩
          rw [Memory.apply, OrderedMap.get?_erase, if_neg differs]
          exact known
  | @save command table schema store edited named found loaded edit =>
      rcases Memory.loadValid_eq_ok_iff.mp loaded with ⟨rfl, valid⟩
      refine ⟨sound.names, ?_⟩
      intro other kept_store kept
      rw [Memory.apply, OrderedMap.get?_insert] at kept
      split at kept
      · rename_i same
        subst same
        cases kept
        exact ⟨schema, found, edit.valid valid, edit.increasing valid (sound.store found).2⟩
      · exact sound.records kept

theorem Sound.perform (sound : memory.Sound) (command : Command) :
    (memory.perform command).1.Sound ∧ FailsOffStorage (memory.perform command).2 := by
  have refused : FailsOffStorage
      (Engine.execute memory.catalog (Storage.loader memory) command) := by
    apply Engine.failsOffStorage_execute
    intro table schema known
    exact ⟨_, Memory.loadValid_eq_ok_iff.mpr ⟨rfl, (sound.store known).1⟩⟩
  rw [Memory.perform]
  cases ran : Engine.execute memory.catalog (Storage.loader memory) command with
  | error error => exact ⟨sound, FailsOnlyWith.of_error (refused error ran)⟩
  | ok outcome => exact ⟨sound.apply (Engine.effect_of_execute ran), FailsOnlyWith.of_ok _⟩

theorem Sound.take (sound : memory.Sound) (input : Input) :
    (memory.take input).1.Sound ∧ FailsOffStorage (memory.take input).2 := by
  rw [Memory.take]
  cases input with
  | ready command => exact sound.perform command
  | line text =>
      rw [Input.read]
      cases parsed : Command.parse text with
      | error error =>
          refine ⟨sound, FailsOnlyWith.of_error ?_⟩
          rw [Command.failsOnSyntax_parse text error parsed]
          decide
      | ok command => exact sound.perform command

theorem Sound.run (sound : memory.Sound) (inputs : List Input) :
    (memory.run inputs).1.Sound ∧ ∀ answer ∈ (memory.run inputs).2, FailsOffStorage answer := by
  induction inputs generalizing memory with
  | nil => exact ⟨sound, by simp [Memory.run]⟩
  | cons input rest ih =>
      rcases sound.take input with ⟨next, answered⟩
      rcases ih next with ⟨last, others⟩
      exact ⟨last, List.forall_mem_cons.mpr ⟨answered, others⟩⟩

/-- A database whose parts belong together. -/
structure WellFormed (memory : Memory) : Prop where
  /-- Table names are listed once each, and none is empty or holds a character that separates parts
  of a file name. -/
  names : memory.catalog.keys.Nodup ∧ ∀ table ∈ memory.catalog.keys,
    table ≠ "" ∧ '/' ∉ table.toList ∧ '\\' ∉ table.toList ∧ '\x00' ∉ table.toList
  /-- Every schema starts with `ID` of type `int` and has each column once. -/
  schemas {table : String} {schema : Schema} (known : memory.catalog.get? table = some schema) :
    schema.columns.entries.head? = some (idColumn, .int) ∧ schema.names.Nodup
  /-- Every record set belongs to a table. -/
  stores : ∀ table ∈ memory.stores.keys, table ∈ memory.catalog.keys
  /-- Every record set is accepted for the schema of its table. -/
  valid {table : String} {store : Store} {schema : Schema}
    (kept : memory.stores.get? table = some store)
    (known : memory.catalog.get? table = some schema) : store.validate table schema = .ok ()
  /-- The records have `ID`s, which are positive and increase. -/
  identified {table : String} {store : Store} (kept : memory.stores.get? table = some store) :
    ∃ ids : List Int64, store.records.map Record.id? = ids.map some ∧
      (∀ id ∈ ids, 0 < id) ∧ ids.Pairwise (· < ·)

theorem Sound.wellFormed (sound : memory.Sound) : memory.WellFormed where
  names := ⟨memory.catalog.nodup, fun table table_mem =>
    mem_of_validTableName (sound.names table table_mem)⟩
  schemas {table schema} _ := ⟨rfl, schema.columns.nodup⟩
  stores table table_mem := by
    rcases OrderedMap.mem_keys_iff.mp table_mem with ⟨store, kept⟩
    rcases sound.records kept with ⟨schema, known, -⟩
    exact OrderedMap.mem_keys_iff.mpr ⟨schema, known⟩
  valid {table store schema} kept known := by
    have same : memory.store table = store := by rw [Memory.store, kept, Option.getD_some]
    rw [Store.validate_eq_ok_iff, ← same]
    exact (sound.store known).1
  identified {table store} kept := by
    rcases sound.records kept with ⟨schema, -, valid, increasing⟩
    exact ⟨store.ids, valid.map_id?, valid.positive, increasing⟩

/-- Every state that a session over a new memory reaches is well formed, and none of its answers is
that a table is corrupt. -/
theorem run_empty_wellFormed (remembers : Bool) (inputs : List Input) :
    ((Session.mk empty remembers .empty).run inputs).1.storage.WellFormed ∧
      ∀ table corruption, Except.error (Error.corruptTable table corruption) ∉
        ((Session.mk empty remembers .empty).run inputs).2 := by
  have follows : (Session.mk empty remembers .empty).Follows itself empty :=
    ⟨rfl, SelectCache.coherent_empty empty⟩
  rcases follows.run fun _ _ _ _ _ => trivial with ⟨sameAnswers, last⟩
  rcases sound_empty.run inputs with ⟨sound, answered⟩
  refine ⟨?_, ?_⟩
  · rw [last.holds]
    exact sound.wellFormed
  · intro table corruption claimed
    rw [sameAnswers] at claimed
    exact answered _ claimed _ rfl rfl

end Tabula.Memory
