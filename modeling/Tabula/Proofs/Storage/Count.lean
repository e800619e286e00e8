import Tabula.Proofs.Storage.Failure
import Tabula.Storage.Memory

/-!
# Two ways to count records

A table's records are counted by `info`, which reads them only if they exist, and by `select`, which
always reads them. In memory the two agree. Over files they agree unless the path of the records
leads to something that is not a file, or to nothing by way of something that is not a directory,
or cannot be used at all: no file exists there, so `info` counts no records, but only a path that
leads to nothing stands for no records, so `select` fails.
-/

namespace Tabula

namespace Session

section

variable {State : Type} [Storage State] {session : Session State} {table : String}
  {schema : Schema}

/-- Nothing is remembered of the select of all records of a table. -/
def Uncached (session : Session State) (table : String) : Prop :=
  session.remembers = true → session.cache.get? ⟨table, none⟩ = none

/-- A table is in the catalog that is loaded. -/
def Knows (session : Session State) (table : String) (schema : Schema) : Prop :=
  ∃ catalog, Storage.loadCatalog session.storage = .ok catalog ∧ catalog.get? table = some schema

/-- Counting the records of a table succeeds with a number exactly if selecting all of them succeeds
with that many. -/
def CountsAgree (session : Session State) (table : String) : Prop :=
  ∀ count,
    (∃ schema, (session.execute (.info table)).2 = .ok (.info table schema count)) ↔
      ∃ schema records,
        (session.execute (.select table none)).2 = .ok (.rows table schema records) ∧
          records.length = count

/-! ## What the two commands answer -/

theorem execute_info_of_knows (knows : session.Knows table schema) :
    (session.execute (.info table)).2 =
      if (Storage.loader session.storage).recordsExist table then
        (Engine.loadValid (Storage.loader session.storage) table schema).map
          fun store => .info table schema store.size
      else .ok (.info table schema 0) := by
  rcases knows with ⟨catalog, loaded, known⟩
  have found := Catalog.table_eq_ok_iff.mpr known
  simp only [execute, withCatalog, loaded, perform, Engine.execute, Engine.info, found]
  cases (Storage.loader session.storage).recordsExist table with
  | false => rfl
  | true => cases Engine.loadValid (Storage.loader session.storage) table schema <;> rfl

theorem execute_select_of_knows (uncached : session.Uncached table)
    (knows : session.Knows table schema) :
    (session.execute (.select table none)).2 =
      (Engine.loadValid (Storage.loader session.storage) table schema).map
        fun store => .rows table schema (store.select none) := by
  rcases knows with ⟨catalog, loaded, known⟩
  have found := Catalog.table_eq_ok_iff.mpr known
  simp only [execute, withCatalog, loaded]
  split
  · rename_i remembers
    simp only [selectRemembered, found, uncached remembers]
    cases Engine.loadValid (Storage.loader session.storage) table schema <;> rfl
  · simp only [perform, Engine.execute, Engine.select, found]
    cases Engine.loadValid (Storage.loader session.storage) table schema <;> rfl

theorem execute_of_not_knows (unknown : ∀ schema, ¬session.Knows table schema) :
    (∃ error, (session.execute (.info table)).2 = .error error) ∧
      ∃ error, (session.execute (.select table none)).2 = .error error := by
  cases loaded : Storage.loadCatalog session.storage with
  | error error => exact ⟨⟨error, by simp [execute, withCatalog, loaded]⟩,
      error, by simp [execute, withCatalog, loaded]⟩
  | ok catalog =>
      cases found : catalog.table table with
      | ok schema =>
          exact absurd ⟨catalog, loaded, Catalog.table_eq_ok_iff.mp found⟩ (unknown schema)
      | error error =>
          constructor
          · exact ⟨error, by
              simp [execute, withCatalog, loaded, perform, Engine.execute, Engine.info, found]⟩
          · refine ⟨error, ?_⟩
            simp only [execute, withCatalog, loaded]
            split
            · simp [selectRemembered, found]
            · simp [perform, Engine.execute, Engine.select, found]

/-- The two counts agree if records that do not exist are read as none. -/
theorem countsAgree_of_missing (uncached : session.Uncached table)
    (missing : ∀ schema, session.Knows table schema →
      (Storage.loader session.storage).recordsExist table = false →
        (Storage.loader session.storage).load table = .ok .empty) :
    session.CountsAgree table := by
  intro count
  by_cases known : ∃ schema, session.Knows table schema
  · rcases known with ⟨schema, knows⟩
    have counted : (session.execute (.info table)).2 =
        (Engine.loadValid (Storage.loader session.storage) table schema).map
          fun store => .info table schema store.size := by
      rw [execute_info_of_knows knows]
      split
      · rfl
      · rename_i absent
        rw [Bool.not_eq_true] at absent
        have empty : Engine.loadValid (Storage.loader session.storage) table schema = .ok .empty :=
          Engine.loadValid_eq_ok_iff.mpr ⟨missing schema knows absent, Store.valid_empty⟩
        rw [empty]
        rfl
    rw [counted, execute_select_of_knows uncached knows]
    cases Engine.loadValid (Storage.loader session.storage) table schema with
    | error error => simp [Except.map]
    | ok store => simp [Except.map, Store.size, Store.select]
  · rw [not_exists] at known
    rcases execute_of_not_knows known with ⟨⟨error, informed⟩, other, selected⟩
    simp [informed, selected]

end

end Session

namespace Directory

/-- A table of the catalog whose records can neither be read nor found missing. -/
structure Unreadable (directory : Directory) (table : String) (schema : Schema)
    (fault : FileFault) : Prop where
  known : ∃ catalog, Storage.loadCatalog directory = .ok catalog ∧
    catalog.get? table = some schema
  blocked : directory.files.readFile (Path.ofText (directory.tablePath table)) = .error fault
  present : fault ≠ .notFound

variable {directory : Directory} {table : String} {schema : Schema} {fault : FileFault}

theorem recordsExist_eq_false_iff :
    (Storage.loader directory).recordsExist table = false ↔
      ∃ fault, directory.files.readFile (Path.ofText (directory.tablePath table)) =
        .error fault := by
  rw [recordsExist_eq, FileSystem.isFile]
  cases directory.files.readFile (Path.ofText (directory.tablePath table)) <;> simp

theorem Unreadable.load_eq (unreadable : directory.Unreadable table schema fault) :
    (Storage.loader directory).load table = .error (.file fault) := by
  have present := unreadable.present
  rw [Directory.load_eq, load, FileSystem.readText, unreadable.blocked]
  cases fault with
  | notFound => exact absurd rfl present
  | _ => rfl

end Directory

namespace Session

variable {session : Session Directory} {table : String} {schema : Schema} {fault : FileFault}

/-- Of records that can neither be read nor found missing, none are counted, and none selected. -/
theorem execute_of_unreadable (uncached : session.Uncached table)
    (unreadable : session.storage.Unreadable table schema fault) :
    (session.execute (.info table)).2 = .ok (.info table schema 0) ∧
      (session.execute (.select table none)).2 = .error (.file fault) := by
  have absent := Directory.recordsExist_eq_false_iff.mpr ⟨fault, unreadable.blocked⟩
  constructor
  · rw [execute_info_of_knows unreadable.known, absent, if_neg Bool.false_ne_true]
  · rw [execute_select_of_knows uncached unreadable.known, Engine.loadValid, unreadable.load_eq]
    rfl

theorem not_countsAgree_of_unreadable (uncached : session.Uncached table)
    (unreadable : session.storage.Unreadable table schema fault) :
    ¬session.CountsAgree table := by
  intro agree
  rcases execute_of_unreadable uncached unreadable with ⟨counted, failed⟩
  rcases (agree 0).mp ⟨schema, counted⟩ with ⟨_, _, selected, -⟩
  rw [failed] at selected
  cases selected

theorem countsAgree_of_readable (uncached : session.Uncached table)
    (readable : ∀ schema fault, ¬session.storage.Unreadable table schema fault) :
    session.CountsAgree table := by
  apply countsAgree_of_missing uncached
  intro schema knows absent
  rcases Directory.recordsExist_eq_false_iff.mp absent with ⟨fault, blocked⟩
  by_cases missing : fault = .notFound
  · rw [missing] at blocked
    rw [Directory.load_eq, Directory.load_of_missing blocked]
  · exact absurd ⟨knows, blocked, missing⟩ (readable schema fault)

/-- Counting the records of a table and selecting all of them agree over every memory, and over
every directory unless the table is in the catalog and its records can neither be read nor found
missing. Then the count succeeds, of no records, and the select fails. -/
theorem countsAgree_iff (table : String) :
    (∀ session : Session Memory, session.Uncached table → session.CountsAgree table) ∧
      ∀ session : Session Directory, session.Uncached table →
        (session.CountsAgree table ↔
            ∀ schema fault, ¬session.storage.Unreadable table schema fault) ∧
          ∀ schema fault, session.storage.Unreadable table schema fault →
            (session.execute (.info table)).2 = .ok (.info table schema 0) ∧
              (session.execute (.select table none)).2 = .error (.file fault) := by
  constructor
  · intro session uncached
    apply countsAgree_of_missing uncached
    intro schema _ absent
    simp only [Storage.loader, OrderedMap.contains, Option.isSome_eq_false_iff,
      Option.isNone_iff_eq_none] at absent
    simp only [Storage.loader, Memory.store, absent, Option.getD_none]
  · intro session uncached
    refine ⟨⟨?_, countsAgree_of_readable uncached⟩, ?_⟩
    · intro agree schema fault unreadable
      exact not_countsAgree_of_unreadable uncached unreadable agree
    · intro schema fault unreadable
      exact execute_of_unreadable uncached unreadable

end Session

namespace Directory

theorem unreadable_obstructed : obstructed.Unreadable "t" .idOnly .isADirectory where
  known := ⟨_, stuck_obstructed.loaded, by decide⟩
  blocked := by
    have located : obstructed.files.locate (Path.ofText (obstructed.tablePath "t")) =
        .ok ["data", "t.json"] := by
      decide +kernel
    rw [FileSystem.readFile, located]
    rfl
  present := by decide

end Directory

namespace Session

theorem countsAgree_iff_obstructed :
    ¬Session.CountsAgree ⟨Directory.obstructed, true, .empty⟩ "t" ∧
      Session.CountsAgree ⟨{ catalog := (∅ : Catalog).insert "t" .idOnly : Memory }, true, .empty⟩
        "t" := by
  have counts := countsAgree_iff "t"
  constructor
  · intro agree
    have uncached : Session.Uncached ⟨Directory.obstructed, true, .empty⟩ "t" := fun _ => rfl
    exact (counts.2 _ uncached).1.mp agree _ _ Directory.unreadable_obstructed
  · exact counts.1 _ fun _ => rfl

/-- A count succeeds where the select fails. -/
theorem exists_countsDisagree :
    ∃ session : Session Directory, session.Uncached "t" ∧ ¬session.CountsAgree "t" :=
  ⟨⟨.obstructed, true, .empty⟩, fun _ => rfl,
    not_countsAgree_of_unreadable (fun _ => rfl) Directory.unreadable_obstructed⟩

end Session

end Tabula
