import Tabula.Proofs.Engine
import Tabula.Proofs.OrderedMap
import Tabula.Proofs.Storage.Directory
import Tabula.Session

/-!
# Commands that fail over files

A command that fails leaves the bytes of all files and everything remembered as they were, whatever
stands in the directory, unless it drops a table whose records can neither be removed nor found
missing. Then the catalog has already been saved without the table: the command fails, the table is
gone, and its records are still there.
-/

namespace Tabula

namespace Session

/-! ## What a command comes to -/

section

variable {State : Type} [Storage State] {session after : Session State} {catalog : Catalog}
  {command : Command} {error : Error} {result : Except Error Answer}

/-- A command changes nothing that is stored, or ends as the change does that the engine asks for.
When it fails in the first way, nothing at all is changed. -/
theorem perform_cases (ran : session.perform catalog command = (after, result)) :
    (after.storage = session.storage ∧ ∀ error, result = .error error → after = session) ∨
      ∃ outcome, Engine.execute catalog (Storage.loader session.storage) command = .ok outcome ∧
        session.persist outcome.change = (after, result.map fun _ => ()) := by
  rw [perform] at ran
  split at ran
  · cases ran
    exact .inl ⟨rfl, fun _ _ => rfl⟩
  · rename_i outcome executed
    split at ran
    · rename_i persisted
      cases ran
      exact .inr ⟨outcome, executed, persisted⟩
    · rename_i persisted
      cases ran
      exact .inr ⟨outcome, executed, persisted⟩

theorem storage_selectRemembered {table : String} {predicate : Option Predicate}
    (ran : session.selectRemembered catalog table predicate = (after, result)) :
    after.storage = session.storage ∧ ∀ error, result = .error error → after = session := by
  rw [selectRemembered] at ran
  split at ran
  · cases ran
    exact ⟨rfl, fun _ _ => rfl⟩
  · split at ran
    · cases ran
      exact ⟨rfl, nofun⟩
    · split at ran
      · cases ran
        exact ⟨rfl, fun _ _ => rfl⟩
      · cases ran
        exact ⟨rfl, nofun⟩

theorem execute_cases (ran : session.execute command = (after, result)) :
    (after.storage = session.storage ∧ ∀ error, result = .error error → after = session) ∨
      ∃ catalog outcome, Storage.loadCatalog session.storage = .ok catalog ∧
        Engine.execute catalog (Storage.loader session.storage) command = .ok outcome ∧
          session.persist outcome.change = (after, result.map fun _ => ()) := by
  have ofPerform : session.withCatalog (fun catalog => session.perform catalog command) =
      (after, result) →
        (after.storage = session.storage ∧ ∀ error, result = .error error → after = session) ∨
          ∃ catalog outcome, Storage.loadCatalog session.storage = .ok catalog ∧
            Engine.execute catalog (Storage.loader session.storage) command = .ok outcome ∧
              session.persist outcome.change = (after, result.map fun _ => ()) := by
    intro ran
    rw [withCatalog] at ran
    split at ran
    · cases ran
      exact .inl ⟨rfl, fun _ _ => rfl⟩
    · rename_i catalog loaded
      rcases perform_cases ran with same | ⟨outcome, executed, persisted⟩
      · exact .inl same
      · exact .inr ⟨catalog, outcome, loaded, executed, persisted⟩
  cases command with
  | help | exit =>
      cases ran
      exact .inl ⟨rfl, nofun⟩
  | select table predicate =>
      rw [execute] at ran
      cases remembers : session.remembers with
      | false =>
          simp only [remembers, Bool.false_eq_true, if_false] at ran
          exact ofPerform ran
      | true =>
          simp only [remembers, if_true] at ran
          rw [withCatalog] at ran
          split at ran
          · cases ran
            exact .inl ⟨rfl, fun _ _ => rfl⟩
          · exact .inl (storage_selectRemembered ran)
  | createTable | dropTable | listTables | info | insert | update | delete =>
      exact ofPerform ran

/-- A command fails before anything is written, or in persisting what the engine changed. -/
theorem execute_eq_error (failed : session.execute command = (after, .error error)) :
    after = session ∨
      ∃ catalog outcome, Storage.loadCatalog session.storage = .ok catalog ∧
        Engine.execute catalog (Storage.loader session.storage) command = .ok outcome ∧
          session.persist outcome.change = (after, .error error) := by
  rcases execute_cases failed with ⟨-, unchanged⟩ | persisted
  · exact .inl (unchanged error rfl)
  · exact .inr persisted

/-- A table that is created has been added to the catalog, which has been saved, and everything
remembered of it has been forgotten. -/
theorem execute_createTable_eq_ok_iff :
    session.execute (.createTable table definitions) = (after, .ok (.created table schema)) ↔
      ∃ catalog extended storage, Storage.loadCatalog session.storage = .ok catalog ∧
        catalog.createTable table definitions = .ok (extended, schema) ∧
          Storage.saveCatalog session.storage extended = (storage, .ok ()) ∧
            after = ({ session with storage }).forget table := by
  constructor
  · intro ran
    simp only [execute, withCatalog] at ran
    split at ran
    · cases ran
    rename_i catalog loaded
    simp only [perform, Engine.execute, Engine.createTable] at ran
    cases created : catalog.createTable table definitions with
    | error error =>
        simp only [created] at ran
        cases ran
    | ok both =>
        rcases both with ⟨extended, defined⟩
        cases saved : Storage.saveCatalog session.storage extended with
        | mk storage result =>
            simp only [created, persist, saveCatalog, saved] at ran
            cases result with
            | error error => cases ran
            | ok done =>
                cases ran
                exact ⟨catalog, extended, storage, loaded, created, saved, rfl⟩
  · rintro ⟨catalog, extended, storage, loaded, created, saved, rfl⟩
    simp only [execute, withCatalog, loaded, perform, Engine.execute, Engine.createTable, created,
      persist, saveCatalog, saved]

end

/-! ## What is left -/

/-- The files hold what they held, and as much is remembered. -/
def Untouched (before after : Session Directory) : Prop :=
  after.storage.files.contents = before.storage.files.contents ∧ after.cache = before.cache

end Session

namespace Directory

/-- A table of the catalog whose records can neither be removed nor found missing. -/
structure Stuck (directory : Directory) (table : String) (catalog : Catalog) (fault : FileFault) :
    Prop where
  loaded : Storage.loadCatalog directory = .ok catalog
  known : table ∈ catalog.keys
  blocked : directory.files.removeFile (Path.ofText (directory.tablePath table)) = .error fault
  present : fault ≠ .notFound

/-- A catalog saved over the file of another: one file holds its document and is read as it. -/
structure Resaved (before after : Directory) (catalog : Catalog) : Prop where
  overwritten : ∃ location, (before.files.contents.get? location).isSome ∧
    after = before.overwrite location catalog.toJson.document
  loads : Storage.loadCatalog after = .ok catalog

variable {directory before after : Directory} {table path : String} {catalog next : Catalog}
  {fault : FileFault}

/-- A catalog with tables has a file, over which another catalog can be saved. -/
theorem exists_saveCatalog (loaded : Storage.loadCatalog directory = .ok catalog)
    (known : table ∈ catalog.keys) (next : Catalog) :
    ∃ saved, Storage.saveCatalog directory next = (saved, .ok ()) ∧
      directory.Resaved saved next := by
  rcases exists_file_of_load loaded (OrderedMap.ne_empty_of_mem_keys known) with ⟨content, stands⟩
  rcases save_of_readFile stands next.toJson with ⟨location, -, standing, saved, reads⟩
  refine ⟨_, saved, ⟨location, standing, rfl⟩, ?_⟩
  exact loadCatalog_of_document reads

/-- What cannot be removed could not be removed before the catalog was saved. -/
theorem Resaved.removeFile_eq_error_iff (resaved : before.Resaved after catalog) :
    after.files.removeFile (Path.ofText (after.tablePath table)) = .error fault ↔
      before.files.removeFile (Path.ofText (before.tablePath table)) = .error fault := by
  rcases resaved.overwritten with ⟨location, standing, rfl⟩
  exact (FileSystem.sameShape_insert standing).removeFile_eq_error_iff

/-- Saving another catalog than the one that is loaded changes what the files hold. -/
theorem Resaved.contents_ne (resaved : before.Resaved after next)
    (loaded : Storage.loadCatalog before = .ok catalog) (differs : catalog ≠ next) :
    after.files.contents ≠ before.files.contents := by
  intro same
  rcases resaved.overwritten with ⟨location, standing, rfl⟩
  have inserted : before.files.contents.insert location next.toJson.document =
      before.files.contents := same
  have unchanged : before.overwrite location next.toJson.document = before := by
    rw [overwrite, inserted]
  have loads := resaved.loads
  rw [unchanged, loaded] at loads
  exact differs (Except.ok.inj loads)

end Directory

namespace Session

variable {session after : Session Directory} {command : Command} {table : String}
  {catalog : Catalog} {fault : FileFault} {error : Error}

/-- Dropping a table that is stuck fails with the catalog saved and nothing else done. -/
theorem execute_of_stuck (stuck : session.storage.Stuck table catalog fault) :
    ∃ saved, session.storage.Resaved saved (catalog.erase table) ∧
      session.execute (.dropTable table) =
        ({ session with storage := saved }, .error (.file fault)) := by
  rcases OrderedMap.mem_keys_iff.mp stuck.known with ⟨schema, known⟩
  rcases Directory.exists_saveCatalog stuck.loaded stuck.known (catalog.erase table) with
    ⟨saved, save, resaved⟩
  refine ⟨saved, resaved, ?_⟩
  have dropped := Catalog.dropTable_eq_ok_iff.mpr ⟨known, rfl⟩
  have blocked := resaved.removeFile_eq_error_iff.mpr stuck.blocked
  have kept : Storage.deleteTable saved table = (saved, .error (.file fault)) :=
    Directory.remove_eq_error_iff.mpr ⟨rfl, fault, rfl, stuck.present, blocked⟩
  simp only [execute, withCatalog, stuck.loaded, perform, Engine.execute, Engine.dropTable,
    dropped, persist, saveCatalog, save, kept]

/-- A command that fails in persisting fails in the last of its writes, or is a drop that is
stuck. -/
theorem untouched_or_stuck (failed : session.execute command = (after, .error error)) :
    session.Untouched after ∨ ∃ table catalog fault, command = .dropTable table ∧
      session.storage.Stuck table catalog fault := by
  rcases execute_eq_error failed with rfl | ⟨catalog, outcome, loaded, ran, persisted⟩
  · exact .inl ⟨rfl, rfl⟩
  have effect := Engine.effect_of_execute ran
  revert persisted effect
  generalize outcome.change = change
  intro persisted effect
  cases effect with
  | nothing => cases persisted
  | @create table definitions extended schema created =>
      rw [persist, saveCatalog] at persisted
      split at persisted
      · rename_i storage fault saved
        cases persisted
        exact .inl ⟨Directory.contents_of_save_error saved, rfl⟩
      · cases persisted
  | @drop table schema found =>
      have known := OrderedMap.mem_keys_iff.mpr ⟨schema, found⟩
      rcases Directory.exists_saveCatalog loaded known (catalog.erase table) with
        ⟨saved, save, resaved⟩
      rw [persist, saveCatalog, save] at persisted
      dsimp only at persisted
      split at persisted
      · rename_i storage other removed
        rcases Directory.remove_eq_error_iff.mp removed with ⟨-, fault, -, present, blocked⟩
        exact .inr ⟨table, catalog, fault, rfl, loaded, known,
          resaved.removeFile_eq_error_iff.mp blocked, present⟩
      · cases persisted
  | @save command table schema store edited named found loaded edit =>
      rw [persist] at persisted
      split at persisted
      · rename_i storage fault saved
        cases persisted
        exact .inl ⟨Directory.contents_of_save_error saved, rfl⟩
      · cases persisted

/-- A command that fails leaves everything as it was, whatever stands in the directory, if and only
if it is not the drop of a stuck table. That drop fails with the catalog saved without the table:
one file is overwritten, and nothing else changes. -/
theorem execute_error_untouched_iff (session : Session Directory) (command : Command) :
    ((∀ after error, session.execute command = (after, .error error) → session.Untouched after) ↔
        ∀ table catalog fault, command = .dropTable table →
          ¬session.storage.Stuck table catalog fault) ∧
      ∀ table catalog fault, session.storage.Stuck table catalog fault →
        ∃ saved, session.storage.Resaved saved (catalog.erase table) ∧
          session.execute (.dropTable table) =
            ({ session with storage := saved }, .error (.file fault)) := by
  refine ⟨⟨?_, ?_⟩, fun table catalog fault => execute_of_stuck⟩
  · rintro clean table catalog fault rfl stuck
    rcases execute_of_stuck stuck with ⟨saved, resaved, failed⟩
    have untouched := clean _ _ failed
    refine resaved.contents_ne stuck.loaded ?_ untouched.1
    intro same
    have known := stuck.known
    rw [same] at known
    simp at known
  · intro free after error failed
    rcases untouched_or_stuck failed with untouched | ⟨table, catalog, fault, dropping, stuck⟩
    · exact untouched
    · exact absurd stuck (free table catalog fault dropping)

end Session

namespace Directory

/-- A database with one table, and a directory at the place of the table's records. -/
def obstructed : Directory where
  files := {
    directories := [["data", "t.json"]]
    contents := (∅ : OrderedMap Location ByteArray).insert ["db_meta.json"]
      (Catalog.toJson ((∅ : Catalog).insert "t" .idOnly)).document
    workingDirectory := [] }
  metaPath := "db_meta.json"
  dataDir := "data"

theorem stuck_obstructed :
    obstructed.Stuck "t" ((∅ : Catalog).insert "t" .idOnly) .isADirectory where
  loaded := by
    have located : obstructed.files.locate (Path.ofText obstructed.metaPath) =
        .ok ["db_meta.json"] := by
      decide +kernel
    have file : (Path.ofText obstructed.metaPath).directoryOnly = false := by
      decide +kernel
    have stands := FileSystem.readFile_eq_ok_iff.mpr ⟨_, located, rfl, file⟩
    exact loadCatalog_of_document stands
  known := by decide
  blocked := by
    have located : obstructed.files.locate (Path.ofText (obstructed.tablePath "t")) =
        .ok ["data", "t.json"] := by
      decide +kernel
    rw [FileSystem.removeFile, located]
    rfl
  present := by decide

end Directory

namespace Session

/-- Dropping the table fails and changes what the files hold. -/
theorem exists_execute_obstructed_not_untouched :
    ∃ after error, Session.execute ⟨.obstructed, true, .empty⟩ (.dropTable "t") =
        (after, .error error) ∧
      ¬Session.Untouched ⟨.obstructed, true, .empty⟩ after := by
  have stuck := Directory.stuck_obstructed
  rcases @execute_of_stuck ⟨.obstructed, true, .empty⟩ _ _ _ stuck with ⟨saved, resaved, failed⟩
  refine ⟨_, _, failed, ?_⟩
  intro untouched
  exact resaved.contents_ne stuck.loaded (by decide +kernel) untouched.1

end Session

end Tabula
