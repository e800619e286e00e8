import Tabula.Proofs.Integrity
import Tabula.Proofs.Relation.Listing

/-!
# Memories that mean databases

A memory is what a database of relations means when it has the same tables in the same order and
each of its record sets lists the relation of its table. Every command keeps this and is answered
alike, so a session over a new memory gives the answers of the database of relations.
-/

namespace Tabula

namespace Database

/-- A memory has the tables of a database, and its record sets list their relations. -/
structure Means (database : Database) (memory : Memory) : Prop where
  catalog : memory.catalog = database.mapValues Relation.schema
  lists {table : String} {relation : Relation} (known : database.get? table = some relation) :
    (memory.store table).Lists relation

namespace Means

variable {database : Database} {memory after : Memory} {table : String} {relation : Relation}

theorem empty : Means ∅ .empty where
  catalog := rfl
  lists known := by cases known

theorem get?_catalog (means : database.Means memory) (table : String) :
    memory.catalog.get? table = (database.get? table).map Relation.schema := by
  rw [means.catalog, OrderedMap.get?_mapValues]

theorem table_of_none (means : database.Means memory) (unknown : database.get? table = none) :
    memory.catalog.table table = .error (.tableNotFound table) := by
  rw [Catalog.table, means.get?_catalog, unknown]
  rfl

theorem table_of_some (means : database.Means memory)
    (known : database.get? table = some relation) :
    memory.catalog.table table = .ok relation.schema := by
  rw [Catalog.table, means.get?_catalog, known]
  rfl

theorem valid (means : database.Means memory) (sound : memory.Sound)
    (known : database.get? table = some relation) :
    (memory.store table).Valid relation.schema := by
  have found := means.get?_catalog table
  rw [known] at found
  exact (sound.store found).1

theorem loadValid (means : database.Means memory) (sound : memory.Sound)
    (known : database.get? table = some relation) :
    Engine.loadValid (Storage.loader memory) table relation.schema = .ok (memory.store table) :=
  Memory.loadValid_eq_ok_iff.mpr ⟨rfl, means.valid sound known⟩

/-- The records of one table change, and everything else stays. -/
theorem replace (means : database.Means memory) (known : database.get? table = some relation)
    {changed : Relation} (sameSchema : changed.schema = relation.schema)
    (sameCatalog : after.catalog = memory.catalog) (lists : (after.store table).Lists changed)
    (others : ∀ other, table ≠ other → after.store other = memory.store other) :
    Means (database.insert table changed) after where
  catalog := by
    have bound : (database.mapValues Relation.schema).get? table = some changed.schema := by
      rw [OrderedMap.get?_mapValues, known, sameSchema]
      rfl
    rw [sameCatalog, means.catalog, OrderedMap.mapValues_insert, OrderedMap.insert_eq_self bound]
  lists {other found} foundHere := by
    rw [OrderedMap.get?_insert] at foundHere
    split at foundHere
    · rename_i same
      subst same
      cases foundHere
      exact lists
    · rename_i differs
      rw [others other differs]
      exact means.lists foundHere

/-- A record set is saved. -/
theorem save (means : database.Means memory) (known : database.get? table = some relation)
    {changed : Relation} {edited : Store} (sameSchema : changed.schema = relation.schema)
    (lists : edited.Lists changed) :
    Means (database.insert table changed) (memory.apply (.save table edited)) := by
  refine means.replace known sameSchema rfl ?_ ?_
  · simp only [Memory.store, Memory.apply, OrderedMap.get?_insert, if_pos]
    exact lists
  · intro other differs
    simp only [Memory.store, Memory.apply, OrderedMap.get?_insert, if_neg differs]

/-- A record set is saved unless no record was matched, and then it is what it was. -/
theorem save_matched (means : database.Means memory) (known : database.get? table = some relation)
    {changed : Relation} {edited : Store} {ids : List Int64}
    (sameSchema : changed.schema = relation.schema) (lists : edited.Lists changed)
    (unmatched : ids = [] → edited = memory.store table) :
    Means (database.insert table changed)
      (memory.apply (if ids = [] then .nothing else .save table edited)) := by
  split
  · rename_i none
    refine means.replace known sameSchema rfl ?_ fun _ _ => rfl
    rw [unmatched none] at lists
    exact lists
  · exact means.save known sameSchema lists

/-- A new table has no tuples: under a free name there are no records, whatever stood there
before. -/
theorem create (means : database.Means memory) (sound : memory.Sound)
    (free : database.contains table = false) (schema : Schema) :
    Means (database.insert table ⟨schema, .empty⟩)
      (memory.apply (.create (memory.catalog.insert table schema) table)) where
  catalog := by simp only [Memory.apply, OrderedMap.mapValues_insert, means.catalog]
  lists {other relation} known := by
    have sameStore : (memory.apply (.create (memory.catalog.insert table schema) table)).store
        other = memory.store other := rfl
    rw [sameStore]
    rw [OrderedMap.get?_insert] at known
    split at known
    · rename_i same
      subst same
      cases known
      have unkept : memory.stores.get? table = none := by
        rw [← OrderedMap.contains_mapValues Relation.schema, ← means.catalog] at free
        cases kept : memory.stores.get? table with
        | none => rfl
        | some store =>
            rcases sound.records kept with ⟨old, found, -⟩
            rw [OrderedMap.contains, found] at free
            cases free
      rw [Memory.store, unkept]
      exact Store.Lists.empty schema
    · exact means.lists known

theorem drop (means : database.Means memory) :
    Means (database.erase table)
      (memory.apply (.drop (memory.catalog.erase table) table)) where
  catalog := by simp only [Memory.apply, means.catalog, OrderedMap.mapValues_erase]
  lists {other relation} known := by
    rw [OrderedMap.get?_erase] at known
    split at known
    · cases known
    · rename_i differs
      have sameStore : (memory.apply (.drop (memory.catalog.erase table) table)).store other =
          memory.store other := by
        simp only [Memory.store, Memory.apply, OrderedMap.get?_erase, if_neg differs]
      rw [sameStore]
      exact means.lists known

theorem createTable (means : database.Means memory) (sound : memory.Sound)
    (definitions : List String) :
    (memory.perform (.createTable table definitions)).2 =
        (database.createTable table definitions).2 ∧
      (database.createTable table definitions).1.Means
        (memory.perform (.createTable table definitions)).1 := by
  have sameTables : memory.catalog.contains table = database.contains table := by
    rw [means.catalog, OrderedMap.contains_mapValues]
  simp only [Memory.perform, Engine.execute, Engine.createTable, Catalog.createTable,
    Catalog.attemptCreate, Database.createTable, sameTables]
  cases taken : database.contains table with
  | true => exact ⟨rfl, means⟩
  | false =>
      cases validTableName table with
      | false => exact ⟨rfl, means⟩
      | true =>
          cases Schema.idOnly.define definitions with
          | error error => exact ⟨rfl, means⟩
          | ok schema => exact ⟨rfl, means.create sound taken schema⟩

/-- Neither a database without a table nor its memory does anything about it but create it. -/
theorem perform_missing (means : database.Means memory) {command : Command}
    (missing : database.get? table = none) (named : command.table? = some table)
    (made : ∀ definitions, command ≠ .createTable table definitions) :
    (memory.perform command).2 = (database.perform command).2 ∧
      (database.perform command).1.Means (memory.perform command).1 := by
  have unknown := means.table_of_none missing
  cases command with
  | createTable name definitions =>
      cases named
      exact absurd rfl (made definitions)
  | listTables | help | exit => cases named
  | dropTable | info | insert | select | update | delete =>
      cases named
      simp only [Memory.perform, Engine.execute, Engine.dropTable, Catalog.dropTable,
        Catalog.attemptDrop, completed, Engine.info, Engine.insert, Engine.select, Engine.update,
        Engine.delete, Database.perform, withTable, unknown, missing]
      exact ⟨trivial, means⟩

section

variable (means : database.Means memory) (sound : memory.Sound)
  (known : database.get? table = some relation)

include means sound known

theorem info :
    (memory.perform (.info table)).2 = (database.perform (.info table)).2 ∧
      (database.perform (.info table)).1.Means (memory.perform (.info table)).1 := by
  have size := (means.lists known).size_eq
  simp only [Memory.perform, Engine.execute, Engine.info, Database.perform, withTable, known,
    means.table_of_some known, means.loadValid sound known]
  cases kept : (Storage.loader memory).recordsExist table with
  | true => exact ⟨congrArg _ (congrArg _ size), means⟩
  | false =>
      -- Without a record set the store is empty, and so is the relation that it lists.
      have unkept : memory.stores.get? table = none :=
        Option.isNone_iff_eq_none.mp (Option.isSome_eq_false_iff.mp kept)
      rw [Memory.store, unkept] at size
      exact ⟨congrArg _ (congrArg _ size), means⟩

theorem insert (values : List Value) :
    (memory.perform (.insert table values)).2 = (database.perform (.insert table values)).2 ∧
      (database.perform (.insert table values)).1.Means
        (memory.perform (.insert table values)).1 := by
  have lists := means.lists known
  simp only [Memory.perform, Engine.execute, Engine.insert, Database.perform, withTable, known,
    means.table_of_some known, means.loadValid sound known]
  rw [lists.insert_eq values]
  cases inserted : relation.insert values with
  | error error => exact ⟨rfl, means⟩
  | ok result =>
      rcases lists.insert inserted with ⟨sameSchema, extended⟩
      exact ⟨rfl, means.save known sameSchema extended⟩

theorem update (set : SetClause) (predicate : Predicate) :
    (memory.perform (.update table set predicate)).2 =
        (database.perform (.update table set predicate)).2 ∧
      (database.perform (.update table set predicate)).1.Means
        (memory.perform (.update table set predicate)).1 := by
  have lists := means.lists known
  have checked := relation.check_eq set table
  simp only [Memory.perform, Engine.execute, Engine.update, Database.perform, withTable, known,
    means.table_of_some known, means.loadValid sound known]
  cases objection : set.assignments.entries.findSome? (relation.objection? table) with
  | some error =>
      rw [objection] at checked
      rw [checked]
      exact ⟨rfl, means⟩
  | none =>
      rw [objection] at checked
      rcases lists.update (means.valid sound known) checked predicate with ⟨sameIds, updated⟩
      rw [checked]
      dsimp only
      refine ⟨by rw [sameIds], means.save_matched known rfl updated ?_⟩
      intro unmatched
      rw [sameIds] at unmatched
      exact lists.update_eq_self set unmatched

theorem delete (predicate : Predicate) :
    (memory.perform (.delete table predicate)).2 =
        (database.perform (.delete table predicate)).2 ∧
      (database.perform (.delete table predicate)).1.Means
        (memory.perform (.delete table predicate)).1 := by
  have lists := means.lists known
  rcases lists.delete predicate with ⟨sameIds, deleted⟩
  simp only [Memory.perform, Engine.execute, Engine.delete, Database.perform, withTable, known,
    means.table_of_some known, means.loadValid sound known]
  refine ⟨by rw [sameIds], means.save_matched known rfl deleted ?_⟩
  intro unmatched
  rw [sameIds] at unmatched
  exact lists.delete_eq_self unmatched

end

/-- A command on a memory has the answer that it has on the database, and leaves the memory of the
database that it leaves. -/
theorem perform (means : database.Means memory) (sound : memory.Sound) (command : Command) :
    (memory.perform command).2 = (database.perform command).2 ∧
      (database.perform command).1.Means (memory.perform command).1 := by
  cases command with
  | createTable table definitions => exact means.createTable sound definitions
  | listTables =>
      refine ⟨?_, means⟩
      simp only [Memory.perform, Engine.execute, Database.perform, means.catalog,
        OrderedMap.keys_mapValues]
  | dropTable table =>
      cases known : database.get? table with
      | none => exact means.perform_missing known rfl (by simp)
      | some relation =>
          simp only [Memory.perform, Engine.execute, Engine.dropTable, Catalog.dropTable,
            Catalog.attemptDrop, completed, Database.perform, withTable, known,
            means.table_of_some known]
          exact ⟨trivial, means.drop⟩
  | info table =>
      cases known : database.get? table with
      | none => exact means.perform_missing known rfl (by simp)
      | some relation => exact means.info sound known
  | insert table values =>
      cases known : database.get? table with
      | none => exact means.perform_missing known rfl (by simp)
      | some relation => exact means.insert sound known values
  | select table predicate =>
      cases known : database.get? table with
      | none => exact means.perform_missing known rfl (by simp)
      | some relation =>
          simp only [Memory.perform, Engine.execute, Engine.select, Database.perform, withTable,
            known, means.table_of_some known, means.loadValid sound known]
          rw [(means.lists known).select_eq]
          exact ⟨rfl, means⟩
  | update table set predicate =>
      cases known : database.get? table with
      | none => exact means.perform_missing known rfl (by simp)
      | some relation => exact means.update sound known set predicate
  | delete table predicate =>
      cases known : database.get? table with
      | none => exact means.perform_missing known rfl (by simp)
      | some relation => exact means.delete sound known predicate
  | help | exit => exact ⟨rfl, means⟩

theorem take (means : database.Means memory) (sound : memory.Sound) (input : Input) :
    (memory.take input).2 = (database.take input).2 ∧
      (database.take input).1.Means (memory.take input).1 := by
  rw [Memory.take, Database.take]
  cases input.read with
  | error error => exact ⟨rfl, means⟩
  | ok command => exact means.perform sound command

theorem run (means : database.Means memory) (sound : memory.Sound) (inputs : List Input) :
    (memory.run inputs).2 = (database.run inputs).2 ∧
      (database.run inputs).1.Means (memory.run inputs).1 := by
  induction inputs generalizing database memory with
  | nil => exact ⟨rfl, means⟩
  | cons input rest ih =>
      rcases means.take sound input with ⟨sameAnswer, next⟩
      rcases ih next (sound.take input).1 with ⟨sameAnswers, last⟩
      simp only [Memory.run, Database.run, sameAnswer, sameAnswers]
      exact ⟨trivial, last⟩

end Means

end Database

/-- A session over a new memory gives the answers of a new database of relations, and the memory
that it leaves is what that database means: it has the same tables, and lists their tuples. -/
theorem Session.run_empty_eq_database (remembers : Bool) (inputs : List Input) :
    ((Session.mk Memory.empty remembers .empty).run inputs).2 = (Database.run ∅ inputs).2 ∧
      (Database.run ∅ inputs).1.Means
        ((Session.mk Memory.empty remembers .empty).run inputs).1.storage := by
  have follows : (Session.mk Memory.empty remembers .empty).Follows Memory.itself .empty :=
    ⟨rfl, SelectCache.coherent_empty .empty⟩
  rcases follows.run fun _ _ _ _ _ => trivial with ⟨sameAnswers, last⟩
  rcases Database.Means.empty.run Memory.sound_empty inputs with ⟨answers, means⟩
  refine ⟨sameAnswers.trans answers, ?_⟩
  rw [last.holds]
  exact means

end Tabula
