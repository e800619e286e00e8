import Tabula.Proofs.OrderedMap
import Tabula.Proofs.Run
import Tabula.Proofs.Storage.Failure
import Tabula.Proofs.Storage.Writing

/-!
# Where a session writes

Whatever stands in the files at first, a session writes and removes nothing but the document of the
catalog and the records of tables. The names of these tables come from two sources: a command can
only create a table under a valid name, but a catalog that is loaded may hold any name at all. The
records of a table without a slash in its name are in the directory of all records; those of another
are wherever its name leads.
-/

namespace Tabula

namespace FileSystem

variable {files made : FileSystem} {location : Location} {parts : List String} {path : Path}
  {fault : FileFault} {result : Except FileFault Unit}

/-! ## Making directories in any files -/

/-- Files to which nothing but directories has been added. Other than `Grows`, this supposes nothing
of the directory from which they are made. -/
structure Adds (files made : FileSystem) : Prop where
  workingDirectory : made.workingDirectory = files.workingDirectory
  contents : made.contents = files.contents
  keeps : ∀ place, files.isDirectory place = true → made.isDirectory place = true

theorem Adds.refl (files : FileSystem) : Adds files files :=
  ⟨rfl, rfl, fun _ => id⟩

theorem Adds.trans {grown : FileSystem} (first : Adds files made) (second : Adds made grown) :
    Adds files grown where
  workingDirectory := second.workingDirectory.trans first.workingDirectory
  contents := second.contents.trans first.contents
  keeps place directory := second.keeps place (first.keeps place directory)

theorem adds_addDirectory (files : FileSystem) (location : Location) :
    Adds files (files.addDirectory location) where
  workingDirectory := rfl
  contents := rfl
  keeps place directory := by rw [isDirectory_addDirectory, directory, Bool.or_true]

theorem adds_makeDirectoriesFrom
    (ran : files.makeDirectoriesFrom location parts = (made, result)) : Adds files made := by
  induction parts generalizing files location with
  | nil =>
      cases ran
      exact .refl _
  | cons part rest ih =>
      rw [makeDirectoriesFrom] at ran
      repeat' split at ran
      · exact ih ran
      · cases ran
        exact .refl _
      · exact ih ran
      · cases ran
        exact .refl _
      · exact (adds_addDirectory files _).trans (ih ran)

theorem adds_makeDirectories (ran : files.makeDirectories path = (made, result)) :
    Adds files made := by
  rw [makeDirectories] at ran
  repeat' split at ran
  · cases ran
    exact .refl _
  · cases ran
    exact .refl _
  · cases ran
    exact .refl _
  · exact adds_makeDirectoriesFrom ran

/-- Directories that could not be made cannot be made when it is tried again. -/
theorem makeDirectoriesFrom_again
    (failed : files.makeDirectoriesFrom location parts = (made, .error fault)) :
    made.makeDirectoriesFrom location parts = (made, .error fault) := by
  induction parts generalizing files location with
  | nil => cases failed
  | cons part rest ih =>
      have adds : Adds files made := adds_makeDirectoriesFrom failed
      rw [makeDirectoriesFrom] at failed ⊢
      split
      · rename_i above
        rw [if_pos above] at failed
        exact ih failed
      · rename_i named
        rw [if_neg named] at failed
        split at failed
        · rename_i long
          cases failed
          rw [if_pos long]
        · rename_i short
          rw [if_neg short]
          split at failed
          · rename_i directory
            have there := adds.keeps _ (node?_eq_directory_iff.mp directory)
            rw [node?_eq_directory_iff.mpr there]
            exact ih failed
          · rename_i content file
            cases failed
            rw [file]
          · have adds := adds_makeDirectoriesFrom failed
            have there : made.isDirectory (location ++ [part]) = true := by
              apply adds.keeps
              rw [isDirectory_addDirectory, List.isPrefixOf_iff_prefix.mpr List.prefix_rfl,
                Bool.true_or]
            rw [node?_eq_directory_iff.mpr there]
            exact ih failed

theorem makeDirectories_again (failed : files.makeDirectories path = (made, .error fault)) :
    ∃ again, made.makeDirectories path = (made, .error again) := by
  have here : made.workingDirectory = files.workingDirectory :=
    (adds_makeDirectories failed).workingDirectory
  have origins : made.origin path = files.origin path := by rw [origin, origin, here]
  rw [makeDirectories] at failed ⊢
  split
  · exact ⟨_, rfl⟩
  · rename_i named
    rw [if_neg named] at failed
    split
    · exact ⟨_, rfl⟩
    · rename_i short
      rw [if_neg short] at failed
      split
      · exact ⟨_, rfl⟩
      · rename_i unblocked
        split at failed
        · rename_i blocked
          cases failed
          exact absurd blocked unblocked
        · rw [origins]
          exact ⟨fault, makeDirectoriesFrom_again failed⟩

end FileSystem

namespace Directory

variable {directory after : Directory} {path other table : String} {json : Json}
  {result : Except Error Unit} {content old : ByteArray} {catalog next held : Catalog}

/-! ## One write -/

/-- What a save leaves elsewhere, in any files. -/
structure Saved (directory after : Directory) (path : String) (json : Json) : Prop where
  site : after.site = directory.site
  keeps : ∀ place, directory.files.isDirectory place = true → after.files.isDirectory place = true
  contents : after.files.contents = directory.files.contents ∨
    after.files.contents =
      directory.files.contents.insert (directory.site.place path) json.document

theorem saved_of_save (ran : directory.save path json = (after, result)) :
    directory.Saved after path json := by
  rw [save] at ran
  split at ran
  · rename_i files fault made
    have adds := FileSystem.adds_makeDirectories made
    cases ran
    refine ⟨?_, adds.keeps, .inl adds.contents⟩
    exact congrArg (Site.mk · _ _) adds.workingDirectory
  · rename_i files made
    have adds := FileSystem.adds_makeDirectories made
    have site := congrArg (Site.mk · directory.metaPath directory.dataDir) adds.workingDirectory
    split at ran
    · cases ran
      exact ⟨site, adds.keeps, .inl adds.contents⟩
    · rename_i written wrote
      cases ran
      rcases FileSystem.writeFile_eq_ok_iff.mp wrote with ⟨place, located, -, -, rfl⟩
      have there := eq_place_of_locate adds.workingDirectory located
      refine ⟨site, adds.keeps, .inr ?_⟩
      rw [← there, ← adds.contents]
      rfl

/-- What is read at the path of a document after it has been saved, or has not, is the document. -/
theorem readFile_of_save (ran : directory.save path json = (after, result))
    (read : after.files.readFile (Path.ofText path) = .ok content) : content = json.document := by
  rcases FileSystem.readFile_eq_ok_iff.mp read with ⟨place, located, node, file⟩
  rcases FileSystem.node?_eq_file_iff.mp node with ⟨elsewhere, holds⟩
  have again := FileSystem.makeDirectories_parent_of_locate located
  rw [save] at ran
  split at ran
  · rename_i files fault made
    cases ran
    rcases FileSystem.makeDirectories_again made with ⟨other, failed⟩
    cases again.symm.trans failed
  · rename_i files made
    split at ran
    · rename_i fault unwritten
      cases ran
      have writable : ∃ written, files.writeFile (Path.ofText path)
          (String.ofList json.indented).toUTF8 = .ok written :=
        ⟨_, FileSystem.writeFile_eq_ok_iff.mpr ⟨place, located, elsewhere, file, rfl⟩⟩
      rcases writable with ⟨written, wrote⟩
      cases unwritten.symm.trans wrote
    · rename_i written wrote
      cases ran
      rcases FileSystem.writeFile_eq_ok_iff.mp wrote with ⟨there, found, -, -, rfl⟩
      cases found.symm.trans (FileSystem.locate_contents_iff.mp located)
      rw [OrderedMap.get?_insert, if_pos rfl] at holds
      exact (Option.some.inj holds).symm

/-- What was read at another path is still read there, unless it has the place of the document. -/
theorem Saved.readFile_cases (saved : directory.Saved after path json)
    (before : directory.files.readFile (Path.ofText other) = .ok old)
    (read : after.files.readFile (Path.ofText other) = .ok content) :
    content = old ∨ content = json.document := by
  rcases FileSystem.readFile_eq_ok_iff.mp before with ⟨place, located, node, -⟩
  rcases FileSystem.readFile_eq_ok_iff.mp read with ⟨there, found, nodeAfter, -⟩
  have here : directory.files.workingDirectory = after.files.workingDirectory :=
    (congrArg Site.workingDirectory saved.site).symm
  cases found.symm.trans (FileSystem.locate_mono here saved.keeps located)
  have held := (FileSystem.node?_eq_file_iff.mp node).2
  have holds := (FileSystem.node?_eq_file_iff.mp nodeAfter).2
  rcases saved.contents with same | inserted
  · rw [same, held] at holds
    exact .inl (Option.some.inj holds).symm
  · rw [inserted, OrderedMap.get?_insert] at holds
    split at holds
    · exact .inr (Option.some.inj holds).symm
    · rw [held] at holds
      exact .inl (Option.some.inj holds).symm

theorem site_remove (directory : Directory) (path : String) :
    (directory.remove path).1.site = directory.site := by
  rcases remove_cases directory path with kept | ⟨-, removed⟩
  · rw [kept]
  · rw [removed]
    rfl

theorem get?_remove_of_ne {place : Location} (differs : directory.site.place path ≠ place) :
    (directory.remove path).1.files.contents.get? place = directory.files.contents.get? place := by
  rcases remove_cases directory path with kept | ⟨-, removed⟩
  · rw [kept]
  · rw [removed, get?_discard, if_neg differs]

theorem readFile_of_remove (ran : directory.remove path = (after, result))
    (read : after.files.readFile (Path.ofText other) = .ok content) :
    directory.files.readFile (Path.ofText other) = .ok content := by
  have left : after = (directory.remove path).1 := by rw [ran]
  rcases remove_cases directory path with kept | ⟨-, removed⟩
  · rwa [left, kept] at read
  · rw [left, removed] at read
    rcases FileSystem.readFile_eq_ok_iff.mp read with ⟨place, located, node, file⟩
    rcases FileSystem.node?_eq_file_iff.mp node with ⟨elsewhere, holds⟩
    have found := FileSystem.locate_contents_iff.mp located
    rw [get?_discard] at holds
    split at holds
    · cases holds
    · exact FileSystem.readFile_eq_ok_iff.mpr
        ⟨place, found, FileSystem.node?_eq_file_iff.mpr ⟨elsewhere, holds⟩, file⟩

/-! ## The catalog after one write -/

/-- A catalog that is loaded after a write is the empty one, or has been read in its file. -/
theorem empty_or_read_of_loadCatalog (same : after.site = directory.site)
    (loaded : Storage.loadCatalog after = .ok held) :
    held = ∅ ∨ ∃ content, after.files.readFile (Path.ofText directory.metaPath) = .ok content := by
  have path : after.metaPath = directory.metaPath := congrArg Site.metaPath same
  by_cases tables : held = ∅
  · exact .inl tables
  · rw [loadCatalog_eq] at loaded
    rw [← path]
    exact .inr (exists_file_of_load loaded tables)

theorem loadCatalog_eq_of_readFile (same : after.site = directory.site)
    (read : after.files.readFile (Path.ofText directory.metaPath) =
      directory.files.readFile (Path.ofText directory.metaPath)) :
    Storage.loadCatalog after = Storage.loadCatalog directory := by
  have path : after.metaPath = directory.metaPath := congrArg Site.metaPath same
  rw [loadCatalog_eq, loadCatalog_eq, path, load_eq_of_readFile read]

theorem catalog_of_saveCatalog (ran : Storage.saveCatalog directory next = (after, result))
    (loaded : Storage.loadCatalog after = .ok held) : held = ∅ ∨ held = next := by
  simp only [Storage.saveCatalog] at ran
  have same := (saved_of_save ran).site
  refine (empty_or_read_of_loadCatalog same loaded).imp_right ?_
  rintro ⟨content, stands⟩
  have path : after.metaPath = directory.metaPath := congrArg Site.metaPath same
  cases readFile_of_save ran stands
  rw [← path] at stands
  exact Except.ok.inj (loaded.symm.trans (loadCatalog_of_document stands))

/-- Records are no catalog, so the catalog that is loaded after records have been saved is the one
before, if any. -/
theorem catalog_of_saveTable {store : Store}
    (ran : Storage.saveTable directory table store = (after, result))
    (before : Storage.loadCatalog directory = .ok catalog) (tables : catalog ≠ ∅)
    (loaded : Storage.loadCatalog after = .ok held) : held = ∅ ∨ held = catalog := by
  simp only [Storage.saveTable] at ran
  have saved := saved_of_save ran
  refine (empty_or_read_of_loadCatalog saved.site loaded).imp_right ?_
  rintro ⟨content, stands⟩
  have known := before
  rw [loadCatalog_eq] at known
  rcases exists_file_of_load known tables with ⟨old, stood⟩
  rcases saved.readFile_cases stood stands with rfl | rfl
  · have unchanged := loadCatalog_eq_of_readFile saved.site (stands.trans stood.symm)
    exact Except.ok.inj (loaded.symm.trans (unchanged.trans before))
  · have path : after.metaPath = directory.metaPath := congrArg Site.metaPath saved.site
    rw [← path] at stands
    rw [loadCatalog_eq, load_of_document stands] at loaded
    cases Catalog.ofDocument_store store held loaded

theorem catalog_of_deleteTable (ran : Storage.deleteTable directory table = (after, result))
    (loaded : Storage.loadCatalog after = .ok held) :
    held = ∅ ∨ Storage.loadCatalog directory = .ok held := by
  simp only [Storage.deleteTable] at ran
  have same : after.site = directory.site := by
    rw [← site_remove directory (directory.tablePath table), ran]
  refine (empty_or_read_of_loadCatalog same loaded).imp_right ?_
  rintro ⟨content, stands⟩
  have stood := readFile_of_remove ran stands
  rw [← loadCatalog_eq_of_readFile same (stands.trans stood.symm), loaded]

end Directory

/-! ## Confinement -/

/-- The places of the catalog and of the records of some tables. -/
inductive Site.Documents (site : Site) (known : String → Prop) : Location → Prop
  | catalog : site.Documents known site.catalogPlace
  | records {table : String} (isKnown : known table) : site.Documents known (site.tablePlace table)

namespace Directory

variable {known : String → Prop} {before middle after : Directory} {table : String}
  {catalog next : Catalog} {result : Except Error Unit} {store : Store}

/-- Whether a table can come to be in a catalog: its name is valid, or there at first. -/
def CanName (directory : Directory) (table : String) : Prop :=
  validTableName table = true ∨
    ∃ catalog, Storage.loadCatalog directory = .ok catalog ∧ table ∈ catalog.keys

/-- A catalog that is loaded names none but some tables. -/
def Names (directory : Directory) (known : String → Prop) : Prop :=
  ∀ catalog, Storage.loadCatalog directory = .ok catalog → ∀ table ∈ catalog.keys, known table

/-- What writes leave that are confined to the documents of some tables. -/
structure Confined (known : String → Prop) (before after : Directory) : Prop where
  site : after.site = before.site
  names : after.Names known
  elsewhere : ∀ place, ¬before.site.Documents known place →
    after.files.contents.get? place = before.files.contents.get? place

theorem Confined.refl (names : before.Names known) : Confined known before before :=
  ⟨rfl, names, fun _ _ => rfl⟩

theorem Confined.trans (first : Confined known before middle)
    (second : Confined known middle after) : Confined known before after := by
  refine ⟨second.site.trans first.site, second.names, ?_⟩
  intro place apart
  rw [second.elsewhere place (first.site ▸ apart), first.elsewhere place apart]

theorem Saved.get?_of_ne {path : String} {json : Json} {place : Location}
    (saved : before.Saved after path json) (differs : before.site.place path ≠ place) :
    after.files.contents.get? place = before.files.contents.get? place := by
  rcases saved.contents with same | inserted
  · rw [same]
  · rw [inserted, OrderedMap.get?_insert, if_neg differs]

theorem confined_saveCatalog (ran : Storage.saveCatalog before next = (after, result))
    (names : ∀ table ∈ next.keys, known table) : Confined known before after := by
  have saved : before.Saved after before.metaPath next.toJson := by
    simp only [Storage.saveCatalog] at ran
    exact saved_of_save ran
  refine ⟨saved.site, ?_, ?_⟩
  · intro held loaded
    rcases catalog_of_saveCatalog ran loaded with rfl | rfl
    · exact nofun
    · exact names
  · intro place apart
    apply saved.get?_of_ne
    rintro rfl
    exact apart .catalog

theorem confined_saveTable (ran : Storage.saveTable before table store = (after, result))
    (names : before.Names known) (loaded : Storage.loadCatalog before = .ok catalog)
    (listed : table ∈ catalog.keys) : Confined known before after := by
  have saved : before.Saved after (before.tablePath table) store.toJson := by
    simp only [Storage.saveTable] at ran
    exact saved_of_save ran
  refine ⟨saved.site, ?_, ?_⟩
  · intro held loadedAfter
    have tables := OrderedMap.ne_empty_of_mem_keys listed
    rcases catalog_of_saveTable ran loaded tables loadedAfter with rfl | rfl
    · exact nofun
    · exact names held loaded
  · intro place apart
    apply saved.get?_of_ne
    rintro rfl
    exact apart (.records (names catalog loaded table listed))

theorem confined_deleteTable (ran : Storage.deleteTable before table = (after, result))
    (names : before.Names known) (isKnown : known table) : Confined known before after := by
  have removed : (before.remove (before.tablePath table)).1 = after := by
    simp only [Storage.deleteTable] at ran
    rw [ran]
  subst removed
  refine ⟨site_remove before _, ?_, ?_⟩
  · intro held loaded
    rcases catalog_of_deleteTable ran loaded with rfl | before
    · exact nofun
    · exact names held before
  · intro place apart
    apply get?_remove_of_ne
    rintro rfl
    exact apart (.records isKnown)

end Directory

namespace Session

variable {known : String → Prop} {session : Session Directory} {catalog : Catalog} {loader : Loader}
  {command : Command} {change : Change}

theorem confined_persist (names : session.storage.Names known)
    (valid : ∀ table, validTableName table = true → known table)
    (loaded : Storage.loadCatalog session.storage = .ok catalog)
    (effect : Engine.Effect catalog loader command change) :
    session.storage.Confined known (session.persist change).1.storage := by
  have listed := names catalog loaded
  cases effect with
  | nothing => exact .refl names
  | @create table definitions extended schema created =>
      have extendedKnown : ∀ name ∈ extended.keys, known name := by
        rcases Catalog.createTable_eq_ok_iff.mp created with ⟨-, new, -, rfl⟩
        intro name name_mem
        rcases OrderedMap.mem_keys_insert.mp name_mem with rfl | old
        · exact valid name new
        · exact listed name old
      rw [persist, saveCatalog]
      split
      · rename_i failed
        exact Directory.confined_saveCatalog failed extendedKnown
      · rename_i done
        exact Directory.confined_saveCatalog done extendedKnown
  | @drop table schema found =>
      have reducedKnown := OrderedMap.forall_mem_keys_erase listed table
      have isKnown := listed table (OrderedMap.mem_keys_iff.mpr ⟨schema, found⟩)
      rw [persist, saveCatalog]
      split
      · rename_i failed
        exact Directory.confined_saveCatalog failed reducedKnown
      · rename_i storage done
        have saved := Directory.confined_saveCatalog done reducedKnown
        split
        · rename_i failed
          exact saved.trans (Directory.confined_deleteTable failed saved.names isKnown)
        · rename_i discarded
          exact saved.trans (Directory.confined_deleteTable discarded saved.names isKnown)
  | @save command table schema store edited named found read edit =>
      have table_mem := OrderedMap.mem_keys_iff.mpr ⟨schema, found⟩
      rw [persist]
      split
      · rename_i failed
        exact Directory.confined_saveTable failed names loaded table_mem
      · rename_i done
        exact Directory.confined_saveTable done names loaded table_mem

theorem confined_execute (names : session.storage.Names known)
    (valid : ∀ table, validTableName table = true → known table) (command : Command) :
    session.storage.Confined known (session.execute command).1.storage := by
  rcases ran : session.execute command with ⟨after, result⟩
  rcases execute_cases ran with ⟨same, -⟩ | ⟨catalog, outcome, loaded, executed, persisted⟩
  · rw [same]
    exact .refl names
  · have confined := confined_persist names valid loaded (Engine.effect_of_execute executed)
    rwa [persisted] at confined

/-- However many commands a session takes, its writes are confined. -/
theorem confined_moves (names : session.storage.Names known)
    (valid : ∀ table, validTableName table = true → known table) (moves : List Move) :
    session.storage.Confined known (session.moves moves).1.storage := by
  induction moves generalizing session with
  | nil => exact .refl names
  | cons move rest ih =>
      cases move with
      | reopen remembers => exact @ih ⟨session.storage, remembers, .empty⟩ names
      | give input =>
          have first : session.storage.Confined known (session.take input).1.storage := by
            rw [take]
            cases input.read with
            | error error => exact .refl names
            | ok command => exact confined_execute names valid command
          exact first.trans (@ih (session.take input).1 first.names)

/-- Whatever stands in the files at first, a session changes nothing but the document of the catalog
and the records of tables that can be named. Records of a table without a slash in its name are in
the directory of all records. -/
theorem unchanged_or_document (start : Session Directory) (moves : List Move) (place : Location) :
    (start.moves moves).1.storage.files.contents.get? place =
        start.storage.files.contents.get? place ∨
      place = start.storage.site.catalogPlace ∨
        ∃ table, start.storage.CanName table ∧ place = start.storage.site.tablePlace table ∧
          ('/' ∉ table.toList →
            place = start.storage.site.place start.storage.dataDir ++ [table ++ ".json"]) := by
  have names : start.storage.Names start.storage.CanName := by
    intro catalog loaded table listed
    exact .inr ⟨catalog, loaded, listed⟩
  have confined := confined_moves names (fun _ => .inl) moves
  by_cases document : start.storage.site.Documents start.storage.CanName place
  · right
    cases document with
    | catalog => exact .inl rfl
    | @records table canName =>
        refine .inr ⟨table, canName, rfl, ?_⟩
        intro slashless
        exact start.storage.site.tablePlace_of_slashless slashless
  · exact .inl (confined.elsewhere place document)

end Session

/-! ## A name that leads elsewhere -/

namespace Directory

/-- The catalog of a table whose name leads out of the directory of all records. -/
def outward : Catalog :=
  (∅ : Catalog).insert "../x" .idOnly

/-- A directory with the catalog, and no records. -/
def exposed : Directory :=
  overwrite ⟨⟨[["data"]], ∅, []⟩, "db_meta.json", "data"⟩ ["db_meta.json"] outward.toJson.document

theorem loadCatalog_exposed : Storage.loadCatalog exposed = .ok outward := by
  have located : exposed.files.locate (Path.ofText exposed.metaPath) = .ok ["db_meta.json"] := by
    decide +kernel
  have file : (Path.ofText exposed.metaPath).directoryOnly = false := by decide +kernel
  exact loadCatalog_of_document
    (FileSystem.readFile_eq_ok_iff.mpr ⟨_, located, rfl, file⟩)

theorem locate_exposed :
    exposed.files.locate (Path.ofText (exposed.tablePath "../x")) = .ok ["x.json"] := by
  decide +kernel

theorem directoryOnly_exposed :
    (Path.ofText (exposed.tablePath "../x")).directoryOnly = false := by
  decide +kernel

theorem load_exposed : (Storage.loader exposed).load "../x" = .ok .empty := by
  rw [load_eq]
  refine load_of_missing ?_
  exact FileSystem.readFile_of_locate locate_exposed rfl directoryOnly_exposed

theorem saveTable_exposed (store : Store) :
    Storage.saveTable exposed "../x" store =
      (exposed.overwrite ["x.json"] store.toJson.document, .ok ()) :=
  save_of_locate (FileSystem.makeDirectories_parent_of_locate locate_exposed) locate_exposed rfl
    directoryOnly_exposed store.toJson

end Directory

namespace Session

theorem execute_exposed :
    ∃ store : Store, Session.execute ⟨Directory.exposed, true, .empty⟩ (.insert "../x" []) =
      (⟨Directory.exposed.overwrite ["x.json"] store.toJson.document, true,
        SelectCache.empty.invalidate "../x"⟩, .ok (.inserted "../x" 1)) := by
  have loaded := Directory.loadCatalog_exposed
  have known : Directory.outward.table "../x" = .ok .idOnly := rfl
  have valid : Engine.loadValid (Storage.loader Directory.exposed) "../x" .idOnly = .ok .empty :=
    Engine.loadValid_eq_ok_iff.mpr ⟨Directory.load_exposed, Store.valid_empty⟩
  have inserted : ∃ store, Store.empty.insert .idOnly [] = .ok (store, 1) := ⟨_, rfl⟩
  rcases inserted with ⟨store, inserted⟩
  refine ⟨store, ?_⟩
  simp only [execute, withCatalog, loaded, perform, Engine.execute, Engine.insert, known, valid,
    inserted, persist, Directory.saveTable_exposed]
  rfl

/-- A record of a table in the catalog is written beside the directory of all records. -/
theorem exists_insert_outside :
    Storage.loadCatalog Directory.exposed = .ok Directory.outward ∧
      ∃ after : Session Directory,
        Session.execute ⟨Directory.exposed, true, .empty⟩ (.insert "../x" []) =
          (after, .ok (.inserted "../x" 1)) ∧
        after.storage.files.contents.get? ["x.json"] ≠
            Directory.exposed.files.contents.get? ["x.json"] ∧
          ["x.json"] ≠ Directory.exposed.site.catalogPlace ∧
            ∀ table, ["x.json"] ≠ Directory.exposed.site.place "data" ++ [table ++ ".json"] := by
  rcases execute_exposed with ⟨store, ran⟩
  refine ⟨Directory.loadCatalog_exposed, _, ran, ?_, ?_, ?_⟩
  · have absent : Directory.exposed.files.contents.get? ["x.json"] = none := by decide +kernel
    rw [Directory.get?_overwrite, if_pos rfl, absent]
    nofun
  · decide +kernel
  · intro table same
    have below : Directory.exposed.site.place "data" = ["data"] := by decide +kernel
    rw [below] at same
    cases congrArg List.length same

end Session

end Tabula
