import Tabula.Proofs.OrderedMap
import Tabula.Proofs.Session

/-!
# Commands on different tables

What a command answers, and what it makes of the table it names, depends on nothing but the schema
and the records of that table; and it changes nothing of any other table. So two commands that name
different tables can be given in either order. Only two creations cannot, because the catalog keeps
its tables in the order in which they were created.
-/

namespace Tabula

/-- Whether a command can change which tables there are. -/
def Command.writesCatalog : Command → Bool
  | .createTable _ _ | .dropTable _ => true
  | _ => false

/-- The names of the tables after a command with a result. -/
def Command.tablesAfter : Command → Except Error Answer → List String → List String
  | .createTable table _, .ok _, names => names ++ [table]
  | .dropTable table, .ok _, names => names.filter (· ≠ table)
  | _, _, names => names

theorem Command.tablesAfter_eq_self {command : Command} (keeps : command.writesCatalog = false)
    (result : Except Error Answer) (names : List String) :
    command.tablesAfter result names = names := by
  cases command with
  | createTable | dropTable => cases keeps
  | listTables | info | insert | select | update | delete | help | exit => rfl

theorem Command.tablesAfter_cases {command : Command} {table : String}
    (named : command.table? = some table) (result : Except Error Answer) :
    command.tablesAfter result = id ∨
      (command.verb = .createTable ∧ command.tablesAfter result = (· ++ [table])) ∨
        command.tablesAfter result = List.filter (· ≠ table) := by
  cases command with
  | listTables | help | exit => cases named
  | info | insert | select | update | delete => exact .inl rfl
  | createTable =>
      cases named
      cases result with
      | error error => exact .inl rfl
      | ok answer => exact .inr (.inl ⟨rfl, rfl⟩)
  | dropTable =>
      cases named
      cases result with
      | error error => exact .inl rfl
      | ok answer => exact .inr (.inr rfl)

/-- A table that comes last and another one that goes do not get in each other's way. -/
theorem Command.tablesAfter_comm {first second : Command} {table other : String}
    (firstNames : first.table? = some table) (secondNames : second.table? = some other)
    (differs : table ≠ other)
    (oneCreates : ¬(first.verb = .createTable ∧ second.verb = .createTable))
    (firstResult secondResult : Except Error Answer) (names : List String) :
    second.tablesAfter secondResult (first.tablesAfter firstResult names) =
      first.tablesAfter firstResult (second.tablesAfter secondResult names) := by
  rcases tablesAfter_cases secondNames secondResult with same | ⟨creates, appends⟩ | removes
  · rw [same]
    rfl
  · rcases tablesAfter_cases firstNames firstResult with same | ⟨createsToo, -⟩ | removes
    · rw [same]
      rfl
    · exact absurd ⟨createsToo, creates⟩ oneCreates
    · simp [appends, removes, List.filter_append, Ne.symm differs]
  · rcases tablesAfter_cases firstNames firstResult with same | ⟨-, appends⟩ | removesToo
    · rw [same]
      rfl
    · simp [appends, removes, List.filter_append, differs]
    · rw [removes, removesToo, List.filter_comm]

namespace Catalog

variable {catalog : Catalog} {table : String} {definitions : List String}

/-- The schema with which a table is created, if it can be. -/
def newSchema (catalog : Catalog) (table : String) (definitions : List String) :
    Except Error Schema :=
  if catalog.contains table then .error (.tableAlreadyExists table)
  else if !validTableName table then .error (.invalidSyntax (.tableName table))
  else Schema.idOnly.define definitions

theorem createTable_eq : catalog.createTable table definitions =
    (catalog.newSchema table definitions).map fun schema =>
      (catalog.insert table schema, schema) := by
  rw [createTable, attemptCreate, newSchema]
  split
  · rfl
  · split
    · rfl
    · cases Schema.idOnly.define definitions <;> rfl

theorem newSchema_congr {other : Catalog} (same : catalog.get? table = other.get? table) :
    catalog.newSchema table definitions = other.newSchema table definitions := by
  rw [newSchema, newSchema, OrderedMap.contains, OrderedMap.contains, same]

theorem not_mem_of_newSchema {schema : Schema}
    (created : catalog.newSchema table definitions = .ok schema) : table ∉ catalog.keys := by
  intro taken
  rw [newSchema, if_pos (OrderedMap.contains_iff.mpr taken)] at created
  cases created

end Catalog

theorem Engine.catalog?_of_execute {catalog : Catalog} {loader : Loader} {command : Command}
    {outcome : Outcome} (ran : execute catalog loader command = .ok outcome)
    (keeps : command.writesCatalog = false) : outcome.change.catalog? = none := by
  obtain ⟨answer, change⟩ := outcome
  have effect : Effect catalog loader command change := effect_of_execute ran
  cases effect with
  | nothing | save => rfl
  | create | drop => cases keeps

namespace Memory

variable {memory left right : Memory} {command : Command} {change : Change} {table : String}

/-- Two memories hold the same of a table. -/
structure AgreeOn (left right : Memory) (table : String) : Prop where
  schema : left.catalog.get? table = right.catalog.get? table
  records : left.stores.get? table = right.stores.get? table

theorem AgreeOn.symm (agree : left.AgreeOn right table) : right.AgreeOn left table :=
  ⟨agree.schema.symm, agree.records.symm⟩

theorem AgreeOn.trans {last : Memory} (first : left.AgreeOn right table)
    (second : right.AgreeOn last table) : left.AgreeOn last table :=
  ⟨first.schema.trans second.schema, first.records.trans second.records⟩

theorem catalog_apply (keeps : change.catalog? = none) :
    (memory.apply change).catalog = memory.catalog := by
  cases change with
  | nothing | save => rfl
  | create | drop => cases keeps

theorem AgreeOn.apply (agree : left.AgreeOn right table) (keeps : change.catalog? = none) :
    (left.apply change).AgreeOn (right.apply change) table := by
  cases change with
  | create | drop => cases keeps
  | nothing => exact agree
  | save other store =>
      refine ⟨agree.schema, ?_⟩
      rw [Memory.apply, Memory.apply, OrderedMap.get?_insert, OrderedMap.get?_insert, agree.records]

/-- A command that names a table sees nothing else of a memory. -/
theorem AgreeOn.execute_eq (agree : left.AgreeOn right table) (named : command.table? = some table)
    (keeps : command.writesCatalog = false) :
    Engine.execute left.catalog (Storage.loader left) command =
      Engine.execute right.catalog (Storage.loader right) command := by
  have sameSchema : left.catalog.table table = right.catalog.table table := by
    rw [Catalog.table, agree.schema, Catalog.table]
  have sameLoad : ∀ schema, Engine.loadValid (Storage.loader left) table schema =
      Engine.loadValid (Storage.loader right) table schema := by
    intro schema
    have sameStore : left.store table = right.store table := by
      rw [Memory.store, agree.records, Memory.store]
    simp only [Engine.loadValid, Storage.loader, sameStore]
  have sameExist : (Storage.loader left).recordsExist table =
      (Storage.loader right).recordsExist table := by
    simp only [Storage.loader, OrderedMap.contains, agree.records]
  cases command with
  | createTable | dropTable => cases keeps
  | listTables | help | exit => cases named
  | info =>
      cases named
      simp only [Engine.execute, Engine.info, sameSchema, sameLoad, sameExist]
  | insert =>
      cases named
      simp only [Engine.execute, Engine.insert, sameSchema, sameLoad]
  | select =>
      cases named
      simp only [Engine.execute, Engine.select, sameSchema, sameLoad]
  | update =>
      cases named
      simp only [Engine.execute, Engine.update, sameSchema, sameLoad]
  | delete =>
      cases named
      simp only [Engine.execute, Engine.delete, sameSchema, sameLoad]

theorem perform_createTable (memory : Memory) (table : String) (definitions : List String) :
    memory.perform (.createTable table definitions) =
      match memory.catalog.newSchema table definitions with
      | .error error => (memory, .error error)
      | .ok schema =>
          ({ memory with catalog := memory.catalog.insert table schema },
            .ok (.created table schema)) := by
  rw [perform, Engine.execute, Engine.createTable, Catalog.createTable_eq]
  cases memory.catalog.newSchema table definitions <;> rfl

theorem perform_dropTable (memory : Memory) (table : String) :
    memory.perform (.dropTable table) =
      match memory.catalog.get? table with
      | none => (memory, .error (.tableNotFound table))
      | some _ =>
          (⟨memory.catalog.erase table, memory.stores.erase table⟩, .ok (.dropped table)) := by
  rw [perform, Engine.execute, Engine.dropTable, Catalog.dropTable, Catalog.attemptDrop,
    Catalog.table]
  cases memory.catalog.get? table <;> rfl

/-- What a command answers and what it makes of its table depends on the table alone. -/
theorem AgreeOn.perform (agree : left.AgreeOn right table) (named : command.table? = some table) :
    (left.perform command).2 = (right.perform command).2 ∧
      (left.perform command).1.AgreeOn (right.perform command).1 table := by
  cases keeps : command.writesCatalog with
  | false =>
      rw [Memory.perform, Memory.perform, agree.execute_eq named keeps]
      cases ran : Engine.execute right.catalog (Storage.loader right) command with
      | error error => exact ⟨rfl, agree⟩
      | ok outcome => exact ⟨rfl, agree.apply (Engine.catalog?_of_execute ran keeps)⟩
  | true =>
      cases command with
      | listTables | info | insert | select | update | delete | help | exit => cases keeps
      | createTable name definitions =>
          cases named
          rw [perform_createTable, perform_createTable, Catalog.newSchema_congr agree.schema]
          cases right.catalog.newSchema table definitions with
          | error error => exact ⟨rfl, agree⟩
          | ok schema => exact ⟨rfl, by simp, agree.records⟩
      | dropTable name =>
          cases named
          rw [perform_dropTable, perform_dropTable, agree.schema]
          cases right.catalog.get? table with
          | none => exact ⟨rfl, agree⟩
          | some schema => exact ⟨rfl, by simp, by simp⟩

theorem perform_agreeOn (memory : Memory) {third : String} (named : command.table? = some table)
    (apart : third ≠ table) : (memory.perform command).1.AgreeOn memory third := by
  rw [Memory.perform]
  cases ran : Engine.execute memory.catalog (Storage.loader memory) command with
  | error error => exact ⟨rfl, rfl⟩
  | ok outcome =>
      have effect : memory.Effect command outcome.change := Engine.effect_of_execute ran
      have elsewhere : outcome.change.table? ≠ some third := by
        intro concerned
        cases named.symm.trans (effect.named concerned)
        exact apart rfl
      exact ⟨effect.get?_apply elsewhere, effect.get?_stores_apply elsewhere⟩

theorem keys_perform (memory : Memory) (command : Command) :
    (memory.perform command).1.catalog.keys =
      command.tablesAfter (memory.perform command).2 memory.catalog.keys := by
  cases keeps : command.writesCatalog with
  | false =>
      rw [Command.tablesAfter_eq_self keeps, perform]
      cases ran : Engine.execute memory.catalog (Storage.loader memory) command with
      | error error => rfl
      | ok outcome =>
          dsimp only
          rw [catalog_apply (Engine.catalog?_of_execute ran keeps)]
  | true =>
      cases command with
      | listTables | info | insert | select | update | delete | help | exit => cases keeps
      | createTable table definitions =>
          rw [perform_createTable]
          cases created : memory.catalog.newSchema table definitions with
          | error error => rfl
          | ok schema =>
              exact OrderedMap.keys_insert_of_not_mem (Catalog.not_mem_of_newSchema created)
      | dropTable table =>
          rw [perform_dropTable]
          cases known : memory.catalog.get? table with
          | none => rfl
          | some schema => exact memory.catalog.keys_erase table

example : ((Memory.empty.perform (.createTable "u" ["a:int"])).1.perform
    (.createTable "t" ["a:int"])).1.catalog.keys = ["u", "t"] := by
  decide +kernel

/-- Memories with the same catalog and the same record sets. -/
structure Same (left right : Memory) : Prop where
  catalog : left.catalog = right.catalog
  records : ∀ table, left.stores.get? table = right.stores.get? table

theorem same_of_agreeOn (agree : ∀ table, left.AgreeOn right table)
    (order : left.catalog.keys = right.catalog.keys) : left.Same right :=
  ⟨OrderedMap.ext_of_get? order fun table _ => (agree table).schema,
    fun table => (agree table).records⟩

variable {first second : Command} {other : String}

/-- A command has the same answer, and makes the same of its table, after a command on another. -/
theorem perform_after (memory : Memory) (firstNames : first.table? = some table)
    (secondNames : second.table? = some other) (differs : table ≠ other) :
    ((memory.perform first).1.perform second).2 = (memory.perform second).2 ∧
      ((memory.perform first).1.perform second).1.AgreeOn (memory.perform second).1 other :=
  (perform_agreeOn memory firstNames differs.symm).perform secondNames

theorem perform_comm (firstNames : first.table? = some table)
    (secondNames : second.table? = some other) (differs : table ≠ other)
    (oneCreates : ¬(first.verb = .createTable ∧ second.verb = .createTable)) :
    ((memory.perform first).1.perform second).1.Same
      ((memory.perform second).1.perform first).1 := by
  have firstAfter := perform_after memory secondNames firstNames differs.symm
  have secondAfter := perform_after memory firstNames secondNames differs
  apply same_of_agreeOn
  · intro third
    -- The tables that the two commands name, and then the others, of which neither changes any.
    by_cases isFirst : third = table
    · subst isFirst
      exact (perform_agreeOn _ secondNames differs).trans firstAfter.2.symm
    · by_cases isSecond : third = other
      · subst isSecond
        exact secondAfter.2.trans (perform_agreeOn _ firstNames isFirst).symm
      · have one := (perform_agreeOn _ secondNames isSecond).trans
          (perform_agreeOn memory firstNames isFirst)
        have two := (perform_agreeOn _ firstNames isFirst).trans
          (perform_agreeOn memory secondNames isSecond)
        exact one.trans two.symm
  · rw [keys_perform, keys_perform, keys_perform, keys_perform, firstAfter.1, secondAfter.1]
    exact Command.tablesAfter_comm firstNames secondNames differs oneCreates _ _ _

end Memory

/-- A session whose cache is coherent answers as its memory does, and stays coherent with it. -/
theorem Session.execute_of_coherent {session : Session Memory}
    (coherent : session.cache.Coherent session.storage) (command : Command) :
    (session.execute command).2 = (session.storage.perform command).2 ∧
      (session.execute command).1.storage = (session.storage.perform command).1 ∧
        (session.execute command).1.cache.Coherent (session.execute command).1.storage := by
  have follows : session.Follows Memory.itself session.storage := ⟨rfl, coherent⟩
  have ran : (session.execute command).2 = (session.storage.perform command).2 ∧
      (session.execute command).1.Follows Memory.itself (session.storage.perform command).1 :=
    follows.execute fun _ _ _ => trivial
  rcases ran with ⟨answer, stays⟩
  refine ⟨answer, stays.holds, ?_⟩
  rw [stays.holds]
  exact stays.coherent

namespace Session

variable {session : Session Memory} {first second : Command} {table other : String}

/-- Two commands can be given in either order. -/
structure Commute (session : Session Memory) (first second : Command) : Prop where
  firstAnswer : (session.execute first).2 = ((session.execute second).1.execute first).2
  secondAnswer : ((session.execute first).1.execute second).2 = (session.execute second).2
  storage : ((session.execute first).1.execute second).1.storage.Same
    ((session.execute second).1.execute first).1.storage

/-- Commands that name different tables, and do not both create theirs, can be given in either
order: each has the same answer, and the same tables and records are left. -/
theorem commute_of_tables_ne (coherent : session.cache.Coherent session.storage)
    (firstNames : first.table? = some table) (secondNames : second.table? = some other)
    (differs : table ≠ other)
    (oneCreates : ¬(first.verb = .createTable ∧ second.verb = .createTable)) :
    session.Commute first second := by
  rcases execute_of_coherent coherent first with ⟨firstAnswer, firstLeaves, firstCoherent⟩
  rcases execute_of_coherent coherent second with ⟨secondAnswer, secondLeaves, secondCoherent⟩
  rcases execute_of_coherent firstCoherent second with ⟨secondAfter, firstLast, -⟩
  rcases execute_of_coherent secondCoherent first with ⟨firstAfter, secondLast, -⟩
  refine ⟨?_, ?_, ?_⟩
  · rw [firstAnswer, firstAfter, secondLeaves]
    exact (Memory.perform_after _ secondNames firstNames differs.symm).1.symm
  · rw [secondAnswer, secondAfter, firstLeaves]
    exact (Memory.perform_after _ firstNames secondNames differs).1
  · rw [firstLast, secondLast, firstLeaves, secondLeaves]
    exact Memory.perform_comm firstNames secondNames differs oneCreates

/-- A session with two tables, which remembers the records of one of them. -/
def stocked : Session Memory where
  storage := {
    catalog := .ofList [("t", ⟨.single "a" .int, by decide⟩), ("u", ⟨.single "b" .str, by decide⟩)]
    stores := .ofList [("t", ⟨[.ofList [("ID", .int 1), ("a", .int 5)]]⟩),
      ("u", ⟨[.ofList [("ID", .int 1), ("b", .str "x")]]⟩)] }
  cache := SelectCache.empty.insert ⟨"t", none⟩ [.ofList [("ID", .int 1), ("a", .int 5)]]

/-- A record is inserted into one table, and the other is dropped. -/
theorem commute_of_tables_ne_stocked :
    stocked.cache.Coherent stocked.storage ∧ (Command.insert "t" [.int 7]).table? = some "t" ∧
      (Command.dropTable "u").table? = some "u" ∧ "t" ≠ "u" ∧
      ¬((Command.insert "t" [.int 7]).verb = .createTable ∧
        (Command.dropTable "u").verb = .createTable) ∧
      stocked.Commute (.insert "t" [.int 7]) (.dropTable "u") := by
  have known : stocked.storage.catalog.get? "t" = some ⟨.single "a" .int, by decide⟩ := by
    decide +kernel
  have accepted :
      (stocked.storage.store "t").validate "t" ⟨.single "a" .int, by decide⟩ = .ok () := by
    decide +kernel
  have coherent : stocked.cache.Coherent stocked.storage :=
    (SelectCache.coherent_empty _).insert known (Store.validate_eq_ok_iff.mp accepted) none
  exact ⟨coherent, rfl, rfl, by decide, by decide,
    commute_of_tables_ne coherent rfl rfl (by decide) (by decide)⟩

end Session

end Tabula
