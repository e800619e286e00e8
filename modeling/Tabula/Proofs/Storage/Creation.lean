import Tabula.Proofs.Session
import Tabula.Proofs.Storage.Count
import Tabula.Proofs.Storage.Frame
import Tabula.Proofs.Storage.Refinement

/-!
# Tables that have just been created

Creating a table saves the catalog and nothing else. What stands in the place of the table's records
is neither read nor discarded, so a new table has the records that are found there, if any are, and
can only be used if records can be saved there. With the paths of the default configuration saving
the catalog changes nothing about the records, so both can be said of the files before the table is
created.
-/

namespace Tabula

namespace Session

/-! ## Using a new table -/

section

variable {State : Type} [Storage State] {session after : Session State} {table : String}
  {schema : Schema} {values : List Value} {definitions : List String} {answer : Answer}

/-- A table has no records, as a select tells, and then every row that its schema allows can be
inserted as the first. -/
def Usable (session : Session State) (table : String) (schema : Schema) : Prop :=
  (session.execute (.select table none)).2 = .ok (.rows table schema []) ∧
    ∀ values : List Value, values.map Value.type = schema.dataColumns.entries.map Prod.snd →
      ((session.execute (.select table none)).1.execute (.insert table values)).2 =
        .ok (.inserted table 1)

theorem storage_execute_select (session : Session State) (table : String)
    (predicate : Option Predicate) :
    (session.execute (.select table predicate)).1.storage = session.storage := by
  cases ran : session.execute (.select table predicate) with
  | mk after result =>
      rcases execute_cases ran with ⟨same, -⟩ | ⟨catalog, outcome, -, executed, persisted⟩
      · exact same
      · have unchanged : outcome.change = .nothing := by
          rw [Engine.execute, Engine.select] at executed
          split at executed
          · cases executed
          · split at executed
            · cases executed
            · cases executed
              rfl
        rw [unchanged, persist, Prod.mk.injEq] at persisted
        rw [persisted.1]

theorem execute_insert_of_knows (knows : session.Knows table schema)
    (empty : (Storage.loader session.storage).load table = .ok .empty)
    (fits : values.map Value.type = schema.dataColumns.entries.map Prod.snd) :
    (session.execute (.insert table values)).2 =
      (Storage.saveTable session.storage table ⟨[Store.newRecord schema 1 values]⟩).2.map
        fun _ => .inserted table 1 := by
  rcases knows with ⟨catalog, loaded, known⟩
  have found := Catalog.table_eq_ok_iff.mpr known
  have valid : Engine.loadValid (Storage.loader session.storage) table schema = .ok .empty :=
    Engine.loadValid_eq_ok_iff.mpr ⟨empty, Store.valid_empty⟩
  have enough : values.length = schema.dataColumns.size := by
    have lengths := congrArg List.length fits
    rwa [List.length_map, List.length_map] at lengths
  have inserted : Store.empty.insert schema values =
      .ok (⟨[Store.newRecord schema 1 values]⟩, 1) :=
    Store.insert_eq_ok_iff.mpr ⟨enough, fits, rfl, rfl⟩
  simp only [execute, withCatalog, loaded, perform, Engine.execute, Engine.insert, found, valid,
    inserted, persist]
  rcases Storage.saveTable session.storage table ⟨[Store.newRecord schema 1 values]⟩ with
    ⟨storage, error | done⟩
  · rfl
  · rfl

/-- A table is usable exactly if its records are read as none and its first record can be saved. -/
theorem usable_iff (uncached : session.Uncached table) (knows : session.Knows table schema) :
    session.Usable table schema ↔
      (Storage.loader session.storage).load table = .ok .empty ∧
        ∀ values : List Value, values.map Value.type = schema.dataColumns.entries.map Prod.snd →
          (Storage.saveTable session.storage table ⟨[Store.newRecord schema 1 values]⟩).2 =
            .ok () := by
  have selected : (session.execute (.select table none)).2 = .ok (.rows table schema []) ↔
      (Storage.loader session.storage).load table = .ok .empty := by
    rw [execute_select_of_knows uncached knows]
    constructor
    · intro answered
      cases valid : Engine.loadValid (Storage.loader session.storage) table schema with
      | error error =>
          rw [valid] at answered
          cases answered
      | ok store =>
          rw [valid] at answered
          simp only [Except.map, Except.ok.injEq, Answer.rows.injEq, true_and] at answered
          have none : store = .empty := Store.ext answered
          rw [← none]
          exact (Engine.loadValid_eq_ok_iff.mp valid).1
    · intro empty
      have valid : Engine.loadValid (Storage.loader session.storage) table schema = .ok .empty :=
        Engine.loadValid_eq_ok_iff.mpr ⟨empty, Store.valid_empty⟩
      rw [valid]
      rfl
  rw [Usable, selected]
  apply and_congr_right
  intro empty
  apply forall₂_congr
  intro values fits
  have storage := storage_execute_select session table none
  have knowsAfter : (session.execute (.select table none)).1.Knows table schema := by
    rw [Knows, storage]
    exact knows
  rw [execute_insert_of_knows knowsAfter (storage ▸ empty) fits, storage]
  cases (Storage.saveTable session.storage table ⟨[Store.newRecord schema 1 values]⟩).2 <;>
    simp [Except.map]

end

theorem uncached_forget {State : Type} (session : Session State) (table : String) :
    (session.forget table).Uncached table := by
  intro _
  rw [forget, SelectCache.get?_invalidate, if_pos rfl]

end Session

namespace Directory

variable {directory after : Directory} {table : String} {catalog : Catalog}

/-! ## Saving -/

section

variable {path : String} {json : Json}

theorem exists_saved (saved : (directory.save path json).2 = .ok ()) :
    ∃ after, directory.save path json = (after, .ok ()) := by
  generalize directory.save path json = outcome at saved ⊢
  rcases outcome with ⟨after, result⟩
  cases saved
  exact ⟨after, rfl⟩

/-- Whether a document can be saved is a question of its path. -/
theorem save_of_save (saved : (directory.save path json).2 = .ok ()) (other : Json) :
    (directory.save path other).2 = .ok () := by
  rcases exists_saved saved with ⟨after, ran⟩
  rcases save_ok_iff.mp ran with ⟨files, location, made, located, elsewhere, file, -⟩
  rw [save_of_locate made located elsewhere file]

end

/-- A path that leads to the place of a table's records has a name that is short enough. -/
theorem size_le_of_locate (valid : validTableName table = true) {place : Location}
    (located : directory.files.locate (Path.ofText (directory.tablePath table)) = .ok place) :
    table.utf8ByteSize ≤ 250 := by
  rcases FileSystem.locate_cases (Path.ofText (directory.tablePath table)) with
    ⟨-, fault, refused⟩ | ⟨usable, -⟩
  · cases (refused directory.files).symm.trans located
  · by_contra long
    have beside := locate_beside valid valid usable located
    rw [located, if_neg long] at beside
    cases beside

theorem size_le_of_save (valid : validTableName table = true) {json : Json}
    (saved : (directory.save (directory.tablePath table) json).2 = .ok ()) :
    table.utf8ByteSize ≤ 250 := by
  rcases exists_saved saved with ⟨after, ran⟩
  rcases save_ok_iff.mp ran with ⟨files, location, -, located, -⟩
  exact @size_le_of_locate { directory with files } table valid location located

/-! ## The default paths -/

/-- The paths are those of the default configuration. -/
structure HasDefaultPaths (directory : Directory) : Prop where
  metaPath : directory.metaPath = ({} : Config).metaPath
  dataDir : directory.dataDir = ({} : Config).dataDir

namespace HasDefaultPaths

variable {store : Store} {content : ByteArray}

theorem ofText_tablePath (paths : directory.HasDefaultPaths) (admits : Admits table) :
    Path.ofText (directory.tablePath table) = ⟨["data", table ++ ".json"]⟩ := by
  rw [tablePath, paths.dataDir]
  exact ofText_table admits.1

theorem locate_table (paths : directory.HasDefaultPaths) (admits : Admits table) :
    directory.files.locate (Path.ofText (directory.tablePath table)) =
      match directory.files.node? directory.dataPlace with
      | none => .error .notFound
      | some (.file _) => .error .notADirectory
      | some .directory => .ok (directory.tablePlace table) := by
  rw [paths.ofText_tablePath admits]
  exact FileSystem.locate_below isName_data (isName_table admits)

theorem locate_table_of_directory (paths : directory.HasDefaultPaths) (admits : Admits table)
    (there : directory.files.node? directory.dataPlace = some .directory) :
    directory.files.locate (Path.ofText (directory.tablePath table)) =
      .ok (directory.tablePlace table) := by
  rw [paths.locate_table admits, there]

theorem saveCatalog_eq (paths : directory.HasDefaultPaths)
    (saved : Storage.saveCatalog directory catalog = (after, .ok ())) :
    after = directory.overwrite directory.catalogPlace catalog.toJson.document := by
  have located : directory.files.locate (Path.ofText directory.metaPath) =
      .ok directory.catalogPlace := by
    have text : Path.ofText directory.metaPath = ⟨["db_meta.json"]⟩ := by
      rw [paths.metaPath]
      exact ofText_catalog
    rw [text, FileSystem.locate_name isName_catalog, catalogPlace]
  rcases save_ok_iff.mp saved with ⟨files, location, made, found, -, -, rfl⟩
  cases made.symm.trans (FileSystem.makeDirectories_parent_of_locate located)
  cases found.symm.trans located
  rfl

/-- The records of a table are read as before when the catalog has been written. -/
theorem load_overwrite (paths : directory.HasDefaultPaths) (admits : Admits table) :
    (Storage.loader (directory.overwrite directory.catalogPlace content)).load table =
      (Storage.loader directory).load table := by
  have after : (directory.overwrite directory.catalogPlace content).HasDefaultPaths :=
    ⟨paths.metaPath, paths.dataDir⟩
  have data : (directory.overwrite directory.catalogPlace content).files.node?
      directory.dataPlace = directory.files.node? directory.dataPlace :=
    node?_overwrite_of_ne (Ne.symm dataPlace_ne_catalogPlace)
  have located : (directory.overwrite directory.catalogPlace content).files.locate
      (Path.ofText (directory.tablePath table)) =
        directory.files.locate (Path.ofText (directory.tablePath table)) := by
    rw [paths.locate_table admits, ← data]
    exact after.locate_table admits
  have read : (directory.overwrite directory.catalogPlace content).files.readFile
      (Path.ofText (directory.tablePath table)) =
        directory.files.readFile (Path.ofText (directory.tablePath table)) := by
    refine FileSystem.readFile_eq_of_node? located fun place found => ?_
    rw [located, paths.locate_table admits] at found
    split at found
    · cases found
    · cases found
    · cases found
      exact node?_overwrite_of_ne tablePlace_ne_catalogPlace.symm
  rw [load_eq, load_eq]
  exact load_eq_of_readFile read .empty Store.ofDocument

/-- Records that are read stand in a file, or nowhere. -/
theorem eq_notFound_of_load {fault : FileFault}
    (loaded : (Storage.loader directory).load table = .ok store)
    (failed : directory.files.readFile (Path.ofText (directory.tablePath table)) = .error fault) :
    fault = .notFound := by
  rw [load_eq, load, FileSystem.readText, failed] at loaded
  cases fault with
  | notFound => rfl
  | _ => cases loaded

theorem directoryOnly_table (paths : directory.HasDefaultPaths) (admits : Admits table) :
    (Path.ofText (directory.tablePath table)).directoryOnly = false := by
  rw [paths.ofText_tablePath admits]
  exact (isName_table admits).directoryOnly ["data"]

/-- The directory of all records can be made where nothing stands, and then has room. -/
theorem saveTable_of_missing (paths : directory.HasDefaultPaths) (admits : Admits table)
    (missing : directory.files.node? directory.dataPlace = none) (store : Store) :
    (Storage.saveTable directory table store).2 = .ok () := by
  have parent : (Path.ofText (directory.tablePath table)).parent = ⟨["data"]⟩ := by
    rw [paths.ofText_tablePath admits, parent_below (isName_table admits)]
  have made : directory.files.makeDirectories (Path.ofText (directory.tablePath table)).parent =
      (directory.files.addDirectory directory.dataPlace, .ok ()) := by
    rw [parent]
    exact FileSystem.makeDirectories_name isName_data missing
  have pathsMade : HasDefaultPaths
      { directory with files := directory.files.addDirectory directory.dataPlace } :=
    ⟨paths.metaPath, paths.dataDir⟩
  have there : (directory.files.addDirectory directory.dataPlace).node? directory.dataPlace =
      some .directory := by
    rw [FileSystem.node?_eq_directory_iff, FileSystem.isDirectory_addDirectory,
      List.isPrefixOf_iff_prefix.mpr List.prefix_rfl, Bool.true_or]
  have free : directory.files.isDirectory (directory.tablePlace table) = false := by
    rw [Bool.eq_false_iff]
    intro below
    have above : directory.dataPlace <+: directory.tablePlace table :=
      ⟨[table ++ ".json"], by simp [dataPlace, tablePlace]⟩
    have higher := FileSystem.isDirectory_of_higher above below
    rw [(FileSystem.node?_eq_none_iff.mp missing).1] at higher
    cases higher
  have elsewhere : (directory.files.addDirectory directory.dataPlace).isDirectory
      (directory.tablePlace table) = false := by
    rw [FileSystem.isDirectory_addDirectory, free, Bool.or_false, Bool.eq_false_iff]
    exact fun above => not_prefix_tablePlace (List.isPrefixOf_iff_prefix.mp above)
  exact congrArg Prod.snd (save_of_locate made (pathsMade.locate_table_of_directory admits there)
    elsewhere (paths.directoryOnly_table admits) store.toJson)

/-- What is read as no records can be replaced by records. -/
theorem saveTable_of_load (paths : directory.HasDefaultPaths) (admits : Admits table)
    (loaded : (Storage.loader directory).load table = .ok .empty) (store : Store) :
    (Storage.saveTable directory table store).2 = .ok () := by
  cases data : directory.files.node? directory.dataPlace with
  | none => exact paths.saveTable_of_missing admits data store
  | some node =>
      cases node with
      | file content =>
          have blocked : directory.files.readFile (Path.ofText (directory.tablePath table)) =
              .error .notADirectory := by
            rw [FileSystem.readFile, paths.locate_table admits, data]
          cases eq_notFound_of_load loaded blocked
      | directory =>
          have located := paths.locate_table_of_directory admits data
          have elsewhere : directory.files.isDirectory (directory.tablePlace table) = false := by
            rw [Bool.eq_false_iff]
            intro there
            have node := FileSystem.node?_eq_directory_iff.mpr there
            have blocked : directory.files.readFile (Path.ofText (directory.tablePath table)) =
                .error .isADirectory := by
              rw [FileSystem.readFile, located]
              simp only [node]
            cases eq_notFound_of_load loaded blocked
          have made := FileSystem.makeDirectories_parent_of_locate located
          exact congrArg Prod.snd (save_of_locate made located elsewhere
            (paths.directoryOnly_table admits) store.toJson)

end HasDefaultPaths

end Directory

namespace Session

variable {table : String} {definitions : List String} {schema : Schema}

/-! ## What a new table needs -/

theorem usable_memory_iff {session after : Session Memory}
    (ran : session.execute (.createTable table definitions) =
      (after, .ok (.created table schema))) :
    after.Usable table schema ↔ session.storage.store table = .empty := by
  rcases execute_createTable_eq_ok_iff.mp ran with
    ⟨catalog, extended, storage, -, created, saved, rfl⟩
  have kept : storage = { session.storage with catalog := extended } :=
    (congrArg Prod.fst saved).symm
  have knows : (({ session with storage }).forget table).Knows table schema := by
    refine ⟨extended, ?_, ?_⟩
    · rw [forget, kept]
      rfl
    · rw [(Catalog.createTable_eq_ok_iff.mp created).2.2.2, OrderedMap.get?_insert, if_pos rfl]
  rw [usable_iff (uncached_forget _ table) knows, forget, kept]
  simp [Storage.loader, Storage.saveTable, Memory.store]

/-- Every schema allows some row. -/
theorem exists_row (schema : Schema) : ∃ values : List Value,
    values.map Value.type = schema.dataColumns.entries.map Prod.snd := by
  have surjective : Function.Surjective Value.type := by
    intro type
    cases type with
    | int => exact ⟨.int 0, rfl⟩
    | str => exact ⟨.str "", rfl⟩
    | bool => exact ⟨.bool true, rfl⟩
  exact List.map_surjective_iff.mpr surjective _

variable {session after : Session Directory}

theorem usable_directory_iff
    (ran : session.execute (.createTable table definitions) =
      (after, .ok (.created table schema))) :
    after.Usable table schema ↔
      (Storage.loader after.storage).load table = .ok .empty ∧
        (Storage.saveTable after.storage table .empty).2 = .ok () := by
  rcases execute_createTable_eq_ok_iff.mp ran with
    ⟨catalog, extended, storage, -, created, saved, rfl⟩
  have knows : (({ session with storage }).forget table).Knows table schema := by
    refine ⟨extended, (Directory.loadCatalog_of_saveCatalog saved).2, ?_⟩
    rw [(Catalog.createTable_eq_ok_iff.mp created).2.2.2, OrderedMap.get?_insert, if_pos rfl]
  rw [usable_iff (uncached_forget _ table) knows]
  apply and_congr_right
  intro _
  constructor
  · intro saves
    rcases exists_row schema with ⟨values, fits⟩
    exact Directory.save_of_save (saves values fits) _
  · intro saves values _
    exact Directory.save_of_save saves _

theorem usable_default_iff (paths : session.storage.HasDefaultPaths)
    (ran : session.execute (.createTable table definitions) =
      (after, .ok (.created table schema))) :
    after.Usable table schema ↔
      (Storage.loader session.storage).load table = .ok .empty ∧ table.utf8ByteSize ≤ 250 := by
  rw [usable_directory_iff ran]
  rcases execute_createTable_eq_ok_iff.mp ran with
    ⟨catalog, extended, storage, -, created, saved, rfl⟩
  have valid := (Catalog.createTable_eq_ok_iff.mp created).2.1
  have written := paths.saveCatalog_eq saved
  have pathsAfter : storage.HasDefaultPaths := by
    rw [written]
    exact ⟨paths.metaPath, paths.dataDir⟩
  have same (admits : Directory.Admits table) :
      (Storage.loader storage).load table = (Storage.loader session.storage).load table := by
    rw [written]
    exact paths.load_overwrite admits
  constructor
  · rintro ⟨empty, saves⟩
    have short := Directory.size_le_of_save valid saves
    exact ⟨(same ⟨valid, short⟩).symm.trans empty, short⟩
  · rintro ⟨empty, short⟩
    have emptyAfter := (same ⟨valid, short⟩).trans empty
    exact ⟨emptyAfter, pathsAfter.saveTable_of_load ⟨valid, short⟩ emptyAfter .empty⟩

/-- When a table that has been created is usable. In memory no records may be kept under its name.
Over files its records must be read as none, and it must be possible to save records. With the paths
of the default configuration these are questions of the files before: the records must be read as
none there, and the name of the table must leave room for the name of its file. -/
theorem usable_iff_of_created (table : String) (definitions : List String) (schema : Schema) :
    (∀ session after : Session Memory,
      session.execute (.createTable table definitions) = (after, .ok (.created table schema)) →
        (after.Usable table schema ↔ session.storage.store table = .empty)) ∧
    ∀ session after : Session Directory,
      session.execute (.createTable table definitions) = (after, .ok (.created table schema)) →
        (after.Usable table schema ↔
            (Storage.loader after.storage).load table = .ok .empty ∧
              (Storage.saveTable after.storage table .empty).2 = .ok ()) ∧
        (session.storage.HasDefaultPaths →
          (after.Usable table schema ↔
            (Storage.loader session.storage).load table = .ok .empty ∧
              table.utf8ByteSize ≤ 250)) :=
  ⟨fun _ _ ran => usable_memory_iff ran,
    fun _ _ ran => ⟨usable_directory_iff ran, fun paths => usable_default_iff paths ran⟩⟩

theorem admits_t : Directory.Admits "t" := by
  unfold Directory.Admits
  decide

/-- Records that have been left under the name of a table. -/
def leftRecords : Store :=
  ⟨[.ofList [("ID", .int 1), ("a", .int 5)]]⟩

/-- A memory with records under the name of a table that the catalog does not have. -/
def leftover : Memory where
  stores := (∅ : OrderedMap String Store).insert "t" leftRecords

theorem createTable_t : ∃ extended schema,
    Catalog.createTable ∅ "t" ["a:int"] = .ok (extended, schema) ∧ extended.keys = ["t"] :=
  ⟨_, _, rfl, rfl⟩

/-- In a new directory, and in a memory with records that have been left. -/
theorem usable_iff_of_created_t :
    (∃ after schema,
      Session.execute ⟨Directory.fresh [], true, .empty⟩ (.createTable "t" ["a:int"]) =
          (after, .ok (.created "t" schema)) ∧ after.Usable "t" schema) ∧
      ∃ after schema,
        Session.execute ⟨leftover, true, .empty⟩ (.createTable "t" ["a:int"]) =
          (after, .ok (.created "t" schema)) ∧ ¬after.Usable "t" schema := by
  rcases createTable_t with ⟨extended, schema, created, keys⟩
  have needs := usable_iff_of_created "t" ["a:int"] schema
  constructor
  · have keeps := Directory.keeps_fresh []
    rcases keeps.saveCatalog (keys ▸ List.forall_mem_singleton.mpr admits_t) with
      ⟨storage, saved, -⟩
    have ran : Session.execute ⟨Directory.fresh [], true, .empty⟩ (.createTable "t" ["a:int"]) =
        (Session.forget ⟨storage, true, .empty⟩ "t", .ok (.created "t" schema)) :=
      execute_createTable_eq_ok_iff.mpr
        ⟨∅, extended, storage, keeps.loadCatalog, created, saved, rfl⟩
    refine ⟨_, schema, ran, ?_⟩
    rw [(needs.2 _ _ ran).2 ⟨rfl, rfl⟩]
    exact ⟨keeps.load admits_t, admits_t.2⟩
  · have ran : Session.execute ⟨leftover, true, .empty⟩ (.createTable "t" ["a:int"]) =
        (Session.forget ⟨{ leftover with catalog := extended }, true, .empty⟩ "t",
          .ok (.created "t" schema)) :=
      execute_createTable_eq_ok_iff.mpr ⟨∅, extended, _, rfl, created, rfl, rfl⟩
    refine ⟨_, schema, ran, ?_⟩
    rw [needs.1 _ _ ran]
    decide

/-- A table that is created over records left in a directory is not usable. -/
theorem exists_created_not_usable :
    ∃ directory after schema,
      Storage.saveTable (Directory.fresh []) "t" leftRecords = (directory, .ok ()) ∧
        Session.execute ⟨directory, true, .empty⟩ (.createTable "t" ["a:int"]) =
            (after, .ok (.created "t" schema)) ∧
          ¬after.Usable "t" schema := by
  rcases (Directory.keeps_fresh []).saveTable admits_t leftRecords with ⟨directory, left, keeps⟩
  rcases createTable_t with ⟨extended, schema, created, keys⟩
  rcases keeps.saveCatalog (keys ▸ List.forall_mem_singleton.mpr admits_t) with
    ⟨storage, saved, -⟩
  have ran : Session.execute ⟨directory, true, .empty⟩ (.createTable "t" ["a:int"]) =
      (Session.forget ⟨storage, true, .empty⟩ "t", .ok (.created "t" schema)) :=
    execute_createTable_eq_ok_iff.mpr
      ⟨∅, extended, storage, keeps.loadCatalog, created, saved, rfl⟩
  refine ⟨directory, _, schema, left, ran, ?_⟩
  rw [usable_default_iff ⟨keeps.metaPath, keeps.dataDir⟩ ran, keeps.load admits_t]
  rintro ⟨none, -⟩
  revert none
  decide

end Session

end Tabula
