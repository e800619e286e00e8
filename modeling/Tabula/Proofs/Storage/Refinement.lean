import Tabula.Proofs.Session
import Tabula.Proofs.Storage.Places

/-!
# Files that stand for a memory

A directory keeps a memory when its files are the documents of the memory's catalog and record sets,
each in its place, and nothing else; an empty catalog may have no document. Every read of such a
directory gives what the memory holds, and every write leads to a directory that keeps the memory
that was written. So a session over a new directory answers as one over a new memory, however often
the directory is opened again.
-/

namespace Tabula

namespace Directory

variable {directory : Directory} {memory : Memory} {table : String} {location : Location}

/-- The files are the documents of a memory, each in its place. -/
structure Keeps (directory : Directory) (memory : Memory) : Prop where
  metaPath : directory.metaPath = "db_meta.json"
  dataDir : directory.dataDir = "data"
  directories : ∀ location, directory.files.isDirectory location = true →
    location <+: directory.dataPlace
  catalog : directory.files.contents.get? directory.catalogPlace =
      some memory.catalog.toJson.document ∨
    directory.files.contents.get? directory.catalogPlace = none ∧ memory.catalog = ∅
  records : ∀ table, directory.files.contents.get? (directory.tablePlace table) =
    (memory.stores.get? table).map fun store => store.toJson.document
  only : ∀ location ∈ directory.files.contents.keys, location = directory.catalogPlace ∨
    ∃ table ∈ memory.stores.keys, location = directory.tablePlace table
  below : ∀ table ∈ memory.stores.keys,
    directory.files.isDirectory directory.dataPlace = true
  tables : ∀ table ∈ memory.catalog.keys, Admits table
  stores : ∀ table ∈ memory.stores.keys, Admits table

theorem keeps_fresh (location : Location) : (fresh location).Keeps .empty where
  metaPath := rfl
  dataDir := rfl
  directories place directory := by
    simp only [FileSystem.isDirectory, fresh, FileSystem.ofDirectory, List.any_cons,
      List.any_nil, Bool.or_false, Bool.or_eq_true, List.isEmpty_iff,
      List.isPrefixOf_iff_prefix] at directory
    rcases directory with rfl | above
    · exact List.nil_prefix
    · exact above.trans (List.prefix_append _ _)
  catalog := .inr ⟨rfl, rfl⟩
  records _ := rfl
  only place place_mem := by cases place_mem
  below table table_mem := by cases table_mem
  tables table table_mem := by cases table_mem
  stores table table_mem := by cases table_mem

/-! ## Reading -/

namespace Keeps

theorem isDirectory_catalogPlace (keeps : directory.Keeps memory) :
    directory.files.isDirectory directory.catalogPlace = false := by
  rw [Bool.eq_false_iff]
  intro isDirectory
  exact not_prefix_catalogPlace (keeps.directories _ isDirectory)

theorem isDirectory_tablePlace (keeps : directory.Keeps memory) (table : String) :
    directory.files.isDirectory (directory.tablePlace table) = false := by
  rw [Bool.eq_false_iff]
  intro isDirectory
  exact not_prefix_tablePlace (keeps.directories _ isDirectory)

theorem locate_catalog (keeps : directory.Keeps memory) :
    directory.files.locate (Path.ofText directory.metaPath) = .ok directory.catalogPlace := by
  rw [keeps.metaPath, ofText_catalog, FileSystem.locate_name isName_catalog, catalogPlace]

theorem readFile_catalog (keeps : directory.Keeps memory) :
    directory.files.readFile (Path.ofText directory.metaPath) =
      (directory.files.contents.get? directory.catalogPlace).elim (.error .notFound) .ok := by
  refine FileSystem.readFile_of_locate keeps.locate_catalog keeps.isDirectory_catalogPlace ?_
  rw [keeps.metaPath, ofText_catalog]
  exact isName_catalog.directoryOnly []

theorem loadCatalog (keeps : directory.Keeps memory) :
    Storage.loadCatalog directory = .ok memory.catalog := by
  have read := keeps.readFile_catalog
  rcases keeps.catalog with held | ⟨absent, empty⟩
  · rw [held] at read
    exact loadCatalog_of_document read
  · rw [absent] at read
    rw [loadCatalog_eq, load_of_missing read, empty]

/-- The directory of all records is there, or nothing stands in its place and there are none. -/
theorem node?_dataPlace (keeps : directory.Keeps memory) :
    directory.files.node? directory.dataPlace = some .directory ∨
      directory.files.node? directory.dataPlace = none ∧
        ∀ table, memory.stores.get? table = none := by
  cases isDirectory : directory.files.isDirectory directory.dataPlace with
  | true => exact .inl (FileSystem.node?_eq_directory_iff.mpr isDirectory)
  | false =>
      right
      refine ⟨FileSystem.node?_eq_none_iff.mpr ⟨isDirectory, ?_⟩, ?_⟩
      · rw [OrderedMap.get?_eq_none_iff]
        intro held
        rcases keeps.only _ held with same | ⟨table, -, same⟩
        · exact dataPlace_ne_catalogPlace same
        · exact dataPlace_ne_tablePlace same
      · intro table
        rw [OrderedMap.get?_eq_none_iff]
        intro table_mem
        rw [keeps.below table table_mem] at isDirectory
        cases isDirectory

theorem ofText_tablePath (keeps : directory.Keeps memory) (admits : Admits table) :
    Path.ofText (directory.tablePath table) = ⟨["data", table ++ ".json"]⟩ := by
  rw [tablePath, keeps.dataDir, ofText_table admits.1]

theorem directoryOnly_table (keeps : directory.Keeps memory) (admits : Admits table) :
    (Path.ofText (directory.tablePath table)).directoryOnly = false := by
  rw [keeps.ofText_tablePath admits]
  exact (isName_table admits).directoryOnly ["data"]

theorem locate_table (keeps : directory.Keeps memory) (admits : Admits table)
    (isDirectory : directory.files.node? directory.dataPlace = some .directory) :
    directory.files.locate (Path.ofText (directory.tablePath table)) =
      .ok (directory.tablePlace table) := by
  rw [dataPlace] at isDirectory
  rw [keeps.ofText_tablePath admits, FileSystem.locate_below isName_data (isName_table admits),
    isDirectory, tablePlace]

/-- Without the directory of all records there are no records. -/
theorem locate_table_of_missing (keeps : directory.Keeps memory) (admits : Admits table)
    (missing : directory.files.node? directory.dataPlace = none) :
    directory.files.locate (Path.ofText (directory.tablePath table)) = .error .notFound := by
  rw [dataPlace] at missing
  rw [keeps.ofText_tablePath admits, FileSystem.locate_below isName_data (isName_table admits),
    missing]

theorem readFile_table (keeps : directory.Keeps memory) (admits : Admits table) :
    directory.files.readFile (Path.ofText (directory.tablePath table)) =
      (memory.stores.get? table).elim (.error .notFound) fun store => .ok store.toJson.document := by
  rcases keeps.node?_dataPlace with isDirectory | ⟨missing, unkept⟩
  · rw [FileSystem.readFile_of_locate (keeps.locate_table admits isDirectory)
      (keeps.isDirectory_tablePlace table) (keeps.directoryOnly_table admits), keeps.records]
    cases memory.stores.get? table <;> rfl
  · rw [FileSystem.readFile, keeps.locate_table_of_missing admits missing, unkept]
    rfl

theorem removeFile_table (keeps : directory.Keeps memory) (admits : Admits table) :
    directory.files.removeFile (Path.ofText (directory.tablePath table)) =
      (memory.stores.get? table).elim (.error .notFound) fun _ => .ok { directory.files with
        contents := directory.files.contents.erase (directory.tablePlace table) } := by
  rcases keeps.node?_dataPlace with isDirectory | ⟨missing, unkept⟩
  · rw [FileSystem.removeFile_of_locate (keeps.locate_table admits isDirectory)
      (keeps.isDirectory_tablePlace table) (keeps.directoryOnly_table admits), keeps.records]
    cases memory.stores.get? table <;> rfl
  · rw [FileSystem.removeFile, keeps.locate_table_of_missing admits missing, unkept]
    rfl

theorem load (keeps : directory.Keeps memory) (admits : Admits table) :
    (Storage.loader directory).load table = .ok (memory.store table) := by
  have read := keeps.readFile_table admits
  rw [load_eq, Memory.store]
  cases kept : memory.stores.get? table with
  | none =>
      rw [kept] at read
      rw [load_of_missing read, Option.getD_none]
  | some store =>
      rw [kept] at read
      rw [load_of_document read, store.ofDocument_indented, Option.getD_some]

theorem recordsExist (keeps : directory.Keeps memory) (admits : Admits table) :
    (Storage.loader directory).recordsExist table = memory.stores.contains table := by
  rw [recordsExist_eq, FileSystem.isFile, keeps.readFile_table admits, OrderedMap.contains]
  cases memory.stores.get? table <;> rfl

/-! ## Writing -/

theorem saveCatalog (keeps : directory.Keeps memory) {catalog : Catalog}
    (admitted : ∀ table ∈ catalog.keys, Admits table) :
    ∃ saved, Storage.saveCatalog directory catalog = (saved, .ok ()) ∧
      saved.Keeps { memory with catalog } := by
  have file : (Path.ofText directory.metaPath).directoryOnly = false := by
    rw [keeps.metaPath, ofText_catalog]
    exact isName_catalog.directoryOnly []
  have made := FileSystem.makeDirectories_parent_of_locate keeps.locate_catalog
  have saved := save_of_locate made keeps.locate_catalog keeps.isDirectory_catalogPlace file
    catalog.toJson
  refine ⟨_, saved, { keeps with catalog := ?_, records := ?_, only := ?_, tables := admitted }⟩
  · left
    rw [catalogPlace_overwrite, get?_overwrite, if_pos rfl]
  · intro table
    rw [tablePlace_overwrite, get?_overwrite, if_neg tablePlace_ne_catalogPlace.symm,
      keeps.records]
  · intro location location_mem
    rcases mem_keys_overwrite.mp location_mem with here | before
    · exact .inl here
    · exact keeps.only location before

/-- The directory of all records is made where it is missing. -/
theorem exists_makeDirectories (keeps : directory.Keeps memory) (admits : Admits table) :
    ∃ files target, directory.files.makeDirectories
        (Path.ofText (directory.tablePath table)).parent = (files, .ok ()) ∧
      target = { directory with files } ∧ target.Keeps memory ∧
        target.files.node? target.dataPlace = some .directory := by
  rcases keeps.node?_dataPlace with isDirectory | ⟨missing, -⟩
  · have located := keeps.locate_table admits isDirectory
    exact ⟨_, _, FileSystem.makeDirectories_parent_of_locate located, rfl, keeps, isDirectory⟩
  · have parent : (Path.ofText (directory.tablePath table)).parent = ⟨["data"]⟩ := by
      rw [keeps.ofText_tablePath admits, parent_below (isName_table admits)]
    have data : (directory.files.addDirectory directory.dataPlace).isDirectory
        directory.dataPlace = true := by
      rw [FileSystem.isDirectory_addDirectory, List.isPrefixOf_iff_prefix.mpr List.prefix_rfl]
      rfl
    refine ⟨directory.files.addDirectory directory.dataPlace, _, ?_, rfl, ?_, ?_⟩
    · rw [parent]
      exact FileSystem.makeDirectories_name isName_data missing
    · refine { keeps with directories := ?_, below := fun _ _ => data }
      intro location isDirectory
      rw [FileSystem.isDirectory_addDirectory, Bool.or_eq_true,
        List.isPrefixOf_iff_prefix] at isDirectory
      rcases isDirectory with above | before
      · exact above
      · exact keeps.directories location before
    · exact FileSystem.node?_eq_directory_iff.mpr data

theorem saveTable (keeps : directory.Keeps memory) (admits : Admits table) (store : Store) :
    ∃ saved, Storage.saveTable directory table store = (saved, .ok ()) ∧
      saved.Keeps { memory with stores := memory.stores.insert table store } := by
  rcases keeps.exists_makeDirectories admits with
    ⟨files, target, made, rfl, extended, isDirectory⟩
  have data := FileSystem.node?_eq_directory_iff.mp isDirectory
  have saved := save_of_locate made (extended.locate_table admits isDirectory)
    (extended.isDirectory_tablePlace table) (extended.directoryOnly_table admits) store.toJson
  refine ⟨_, saved, { extended with
    catalog := ?_, records := ?_, only := ?_, below := ?_, stores := ?_ }⟩
  · rw [catalogPlace_overwrite, get?_overwrite, if_neg tablePlace_ne_catalogPlace]
    exact extended.catalog
  · intro name
    rw [tablePlace_overwrite, get?_overwrite, OrderedMap.get?_insert]
    by_cases same : table = name
    · rw [same, if_pos rfl, if_pos rfl]
      rfl
    · rw [if_neg (fun place => same (tablePlace_inj place)), if_neg same, extended.records]
  · intro location location_mem
    rcases mem_keys_overwrite.mp location_mem with rfl | before
    · exact .inr ⟨table, OrderedMap.mem_keys_insert.mpr (.inl rfl), rfl⟩
    · rcases extended.only location before with catalog | ⟨name, name_mem, same⟩
      · exact .inl catalog
      · exact .inr ⟨name, OrderedMap.mem_keys_insert.mpr (.inr name_mem), same⟩
  · intro _ _
    exact data
  · intro name name_mem
    rcases OrderedMap.mem_keys_insert.mp name_mem with rfl | before
    · exact admits
    · exact extended.stores name before

theorem deleteTable (keeps : directory.Keeps memory) (admits : Admits table) :
    ∃ saved, Storage.deleteTable directory table = (saved, .ok ()) ∧
      saved.Keeps { memory with stores := memory.stores.erase table } := by
  have removed := keeps.removeFile_table admits
  cases kept : memory.stores.get? table with
  | none =>
      have unkept := OrderedMap.erase_of_not_mem (OrderedMap.get?_eq_none_iff.mp kept)
      rw [kept] at removed
      refine ⟨directory, remove_of_missing removed, ?_⟩
      rwa [unkept]
  | some store =>
      rw [kept] at removed
      refine ⟨_, remove_of_ok removed, { keeps with
        catalog := ?_, records := ?_, only := ?_, below := ?_, stores := ?_ }⟩
      · rw [catalogPlace_discard, get?_discard, if_neg tablePlace_ne_catalogPlace]
        exact keeps.catalog
      · intro name
        rw [tablePlace_discard, get?_discard, OrderedMap.get?_erase]
        by_cases same : table = name
        · rw [same, if_pos rfl, if_pos rfl]
          rfl
        · rw [if_neg (fun place => same (tablePlace_inj place)), if_neg same, keeps.records]
      · intro location location_mem
        rcases mem_keys_discard.mp location_mem with ⟨before, elsewhere⟩
        rcases keeps.only location before with catalog | ⟨name, name_mem, same⟩
        · exact .inl catalog
        · refine .inr ⟨name, OrderedMap.mem_keys_erase.mpr ⟨name_mem, ?_⟩, same⟩
          rintro rfl
          exact elsewhere same
      · intro name name_mem
        exact keeps.below name (OrderedMap.mem_keys_erase.mp name_mem).1
      · intro name name_mem
        exact keeps.stores name (OrderedMap.mem_keys_erase.mp name_mem).1

end Keeps

/-- The states of a directory with the default configuration, as memories. -/
def representation : Representation Directory where
  Admits := Admits
  Holds := Keeps
  admits keeps := keeps.tables
  loadCatalog keeps := keeps.loadCatalog
  load keeps _ admits := keeps.load admits
  recordsExist keeps _ admits := keeps.recordsExist admits
  saveCatalog keeps _ admitted := keeps.saveCatalog admitted
  saveTable keeps _ admits store := keeps.saveTable admits store
  deleteTable keeps _ admits := keeps.deleteTable admits

/-- The documents are read as what a memory holds: the catalog, and the records of every table. There
is a document of records exactly where the memory has a record set, and no other file. -/
structure Mirrors (directory : Directory) (memory : Memory) : Prop where
  catalog : Storage.loadCatalog directory = .ok memory.catalog
  records {table : String} (admits : Admits table) :
    (Storage.loader directory).load table = .ok (memory.store table)
  exist {table : String} (admits : Admits table) :
    (Storage.loader directory).recordsExist table = memory.stores.contains table
  stores : ∀ table ∈ memory.stores.keys, Admits table
  only : ∀ location ∈ directory.files.contents.keys, location = directory.catalogPlace ∨
    ∃ table ∈ memory.stores.keys, location = directory.tablePlace table

theorem Keeps.mirrors (keeps : directory.Keeps memory) : directory.Mirrors memory where
  catalog := keeps.loadCatalog
  records := keeps.load
  exist := keeps.recordsExist
  stores := keeps.stores
  only := keeps.only

end Directory

namespace Session

variable {location : Location} {remembers recalls : Bool} {moves : List Move}

/-- Sessions over a new directory answer as one over a new memory, which the files mirror. -/
theorem mirrors_moves_fresh
    (short : ∀ input ∈ moves.filterMap Move.input?, ∀ table, input.table? = some table →
      table.utf8ByteSize ≤ 250) :
    ((Session.mk (Directory.fresh location) remembers .empty).moves moves).2 =
        ((Session.mk Memory.empty recalls .empty).run (moves.filterMap Move.input?)).2 ∧
      ((Session.mk (Directory.fresh location) remembers .empty).moves moves).1.storage.Mirrors
        ((Session.mk Memory.empty recalls .empty).run (moves.filterMap Move.input?)).1.storage := by
  have onDisk : (Session.mk (Directory.fresh location) remembers .empty).Follows
      Directory.representation .empty :=
    ⟨Directory.keeps_fresh location, SelectCache.coherent_empty .empty⟩
  have inMemory : (Session.mk Memory.empty recalls .empty).Follows Memory.itself .empty :=
    ⟨rfl, SelectCache.coherent_empty .empty⟩
  rcases onDisk.moves fun input input_mem table named valid =>
    ⟨valid, short input input_mem table named⟩ with ⟨sameAnswers, kept⟩
  rcases inMemory.run fun _ _ _ _ _ => trivial with ⟨otherAnswers, held⟩
  refine ⟨sameAnswers.trans otherAnswers.symm, ?_⟩
  rw [held.holds]
  exact Directory.Keeps.mirrors kept.holds

/-- Files refine memory. Sessions over a new directory, one after the other, give the answers that
one session over a new memory gives, and after each of their moves the files mirror its memory. -/
theorem moves_fresh_refines (location : Location) (remembers recalls : Bool) (moves : List Move)
    (short : ∀ input ∈ moves.filterMap Move.input?, ∀ table, input.table? = some table →
      table.utf8ByteSize ≤ 250) :
    ((Session.mk (Directory.fresh location) remembers .empty).moves moves).2 =
        ((Session.mk Memory.empty recalls .empty).run (moves.filterMap Move.input?)).2 ∧
      ∀ count,
        ((Session.mk (Directory.fresh location) remembers .empty).moves
            (moves.take count)).1.storage.Mirrors
          ((Session.mk Memory.empty recalls .empty).run
            ((moves.take count).filterMap Move.input?)).1.storage := by
  refine ⟨(mirrors_moves_fresh short).1, ?_⟩
  intro count
  have fewer := ((List.take_sublist count moves).filterMap Move.input?).subset
  exact (mirrors_moves_fresh fun input input_mem => short input (fewer input_mem)).2

/-- A database that is opened again between a create and an insert. -/
theorem moves_fresh_refines_reopened :
    (∀ input ∈ [Input.line "create_table t a:int", .line "insert into t values (1)"],
        ∀ table, input.table? = some table → table.utf8ByteSize ≤ 250) ∧
      ((Session.mk (Directory.fresh []) true .empty).moves
          [.give (.line "create_table t a:int"), .reopen false,
            .give (.line "insert into t values (1)")]).2 =
        ((Session.mk Memory.empty true .empty).run
          [.line "create_table t a:int", .line "insert into t values (1)"]).2 := by
  have short : ∀ input ∈ [Input.line "create_table t a:int", .line "insert into t values (1)"],
      ∀ table, input.table? = some table → table.utf8ByteSize ≤ 250 := by
    have created : (Input.line "create_table t a:int").table? = some "t" := by decide +kernel
    have inserted : (Input.line "insert into t values (1)").table? = some "t" := by
      decide +kernel
    intro input input_mem table named
    simp only [List.mem_cons, List.not_mem_nil, or_false] at input_mem
    rcases input_mem with rfl | rfl
    · cases created.symm.trans named
      decide
    · cases inserted.symm.trans named
      decide
  exact ⟨short, (moves_fresh_refines [] true true
    [.give (.line "create_table t a:int"), .reopen false,
      .give (.line "insert into t values (1)")] short).1⟩

end Session

end Tabula
