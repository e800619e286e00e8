import Tabula.Proofs.Storage.Directory
import Tabula.Proofs.Storage.Site

/-!
# Writing a document

Saving a document makes the directories on the way to it, and then writes it or fails. What has been
written is read at its place; every directory and every other file is as before, or was made on the
way. The records of all tables are in one directory: where it is there, each table's records are
looked for at a place of their own, whatever else stands in the files.
-/

namespace Tabula

namespace Directory

variable {directory after : Directory} {path table other : String} {json : Json}
  {location place : Location} {content : ByteArray}

/-- Where a path leads is said by the site, in any files with the same working directory. -/
theorem eq_place_of_locate {files : FileSystem}
    (here : files.workingDirectory = directory.files.workingDirectory)
    (located : files.locate (Path.ofText path) = .ok place) :
    place = directory.site.place path := by
  have led := FileSystem.eq_destination_of_walk (FileSystem.walk_of_locate located)
  rw [FileSystem.origin, here] at led
  exact led

/-! ## Saving and removing -/

/-- A document is saved where its directories can be made and its path then leads to a place for a
file. -/
theorem save_ok_iff :
    directory.save path json = (after, .ok ()) ↔
      ∃ files location, directory.files.makeDirectories (Path.ofText path).parent =
          (files, .ok ()) ∧
        files.locate (Path.ofText path) = .ok location ∧ files.isDirectory location = false ∧
          (Path.ofText path).directoryOnly = false ∧
            after = overwrite { directory with files } location json.document := by
  constructor
  · intro saved
    rw [save] at saved
    split at saved
    · cases saved
    · rename_i files made
      split at saved
      · cases saved
      · rename_i written wrote
        rcases FileSystem.writeFile_eq_ok_iff.mp wrote with
          ⟨location, located, elsewhere, file, rfl⟩
        cases saved
        exact ⟨files, location, made, located, elsewhere, file, rfl⟩
  · rintro ⟨files, location, made, located, elsewhere, file, rfl⟩
    exact save_of_locate made located elsewhere file json

/-- A document that has been saved is read. -/
theorem readFile_of_saved (saved : directory.save path json = (after, .ok ())) :
    after.files.readFile (Path.ofText path) = .ok json.document := by
  rcases save_ok_iff.mp saved with ⟨files, location, -, located, elsewhere, file, rfl⟩
  refine FileSystem.readFile_eq_ok_iff.mpr ⟨location, ?_, ?_, file⟩
  · exact FileSystem.locate_contents_iff.mpr located
  · refine FileSystem.node?_eq_file_iff.mpr ⟨elsewhere, ?_⟩
    rw [get?_overwrite, if_pos rfl]

theorem metaPath_of_saved (saved : directory.save path json = (after, .ok ())) :
    after.metaPath = directory.metaPath := by
  rcases save_ok_iff.mp saved with ⟨files, location, -, -, -, -, rfl⟩
  rfl

/-- A document has been written to its place, in directories that were made for it. -/
structure Wrote (directory after : Directory) (path : String) (json : Json) (files : FileSystem) :
    Prop where
  start : directory.files.isDirectory directory.files.workingDirectory = true
  grows : FileSystem.Grows directory.files files
    (FileSystem.route (directory.site.origin path) (Path.ofText path).parts.dropLast)
  made : directory.files.makeDirectories (Path.ofText path).parent = (files, .ok ())
  located : files.locate (Path.ofText path) = .ok (directory.site.place path)
  elsewhere : files.isDirectory (directory.site.place path) = false
  file : (Path.ofText path).directoryOnly = false
  written : after = overwrite { directory with files } (directory.site.place path) json.document

/-- Saving makes directories on the way to the document, and then writes it or fails. -/
theorem save_cases (start : directory.files.isDirectory directory.files.workingDirectory = true)
    (path : String) (json : Json) :
    ∃ files, FileSystem.Grows directory.files files (FileSystem.route (directory.site.origin path)
        (Path.ofText path).parts.dropLast) ∧
      ((∃ error, directory.save path json = ({ directory with files }, .error error)) ∨
        ∃ after, directory.save path json = (after, .ok ()) ∧
          directory.Wrote after path json files) := by
  have grows := FileSystem.grows_makeDirectories_parent start (Path.ofText path)
  rw [save]
  rcases made : directory.files.makeDirectories (Path.ofText path).parent with ⟨files, result⟩
  rw [made] at grows
  refine ⟨files, grows, ?_⟩
  cases result with
  | error fault => exact .inl ⟨_, rfl⟩
  | ok done =>
      dsimp only
      cases wrote : files.writeFile (Path.ofText path) (String.ofList json.indented).toUTF8 with
      | error fault => exact .inl ⟨_, rfl⟩
      | ok written =>
          rcases FileSystem.writeFile_eq_ok_iff.mp wrote with
            ⟨place, located, elsewhere, file, rfl⟩
          have same := eq_place_of_locate grows.workingDirectory located
          subst same
          exact .inr ⟨_, rfl, start, grows, made, located, elsewhere, file, rfl⟩

theorem remove_cases (directory : Directory) (path : String) :
    (directory.remove path).1 = directory ∨
      directory.files.locate (Path.ofText path) = .ok (directory.site.place path) ∧
        (directory.remove path).1 = directory.discard (directory.site.place path) := by
  rw [remove]
  cases removed : directory.files.removeFile (Path.ofText path) with
  | error fault => cases fault <;> exact .inl rfl
  | ok files =>
      rcases FileSystem.removeFile_eq_ok_iff.mp removed with ⟨place, content, located, -, -, rfl⟩
      have same := eq_place_of_locate rfl located
      subst same
      exact .inr ⟨located, rfl⟩

namespace Wrote

variable {files : FileSystem} (wrote : directory.Wrote after path json files)

include wrote

theorem site_eq : after.site = directory.site := by
  rw [wrote.written, Directory.site, overwrite, Directory.site]
  exact congrArg (Site.mk · _ _) wrote.grows.workingDirectory

theorem keeps (place : Location) (isDirectory : directory.files.isDirectory place = true) :
    after.files.isDirectory place = true := by
  rw [wrote.written]
  exact wrote.grows.keeps place isDirectory

theorem locate : after.files.locate (Path.ofText path) = .ok (directory.site.place path) := by
  rw [wrote.written]
  refine FileSystem.locate_mono ?_ ?_ wrote.located
  · rfl
  · exact fun _ isDirectory => isDirectory

/-- What has been written is read. -/
theorem readFile : after.files.readFile (Path.ofText path) = .ok json.document := by
  refine FileSystem.readFile_eq_ok_iff.mpr ⟨_, wrote.locate, ?_, wrote.file⟩
  rw [wrote.written]
  refine FileSystem.node?_eq_file_iff.mpr ⟨wrote.elsewhere, ?_⟩
  rw [get?_overwrite, if_pos rfl]

section

variable (differs : directory.site.place path ≠ place)

include differs

theorem get?_of_ne : after.files.contents.get? place = directory.files.contents.get? place := by
  rw [wrote.written, ← wrote.grows.contents]
  exact (get?_overwrite _ _ _ _).trans (if_neg differs)

end

end Wrote

/-! ## The directory of all records -/

/-- The directory of all records is there, and every directory on the way to it. -/
def HasDataDir (directory : Directory) : Prop :=
  ∀ way ∈ directory.site.way directory.dataDir, directory.files.isDirectory way = true

theorem HasDataDir.mono (hasDataDir : directory.HasDataDir) (same : after.site = directory.site)
    (keeps : ∀ place, directory.files.isDirectory place = true →
      after.files.isDirectory place = true) : after.HasDataDir := by
  have dataDir : after.dataDir = directory.dataDir := congrArg Site.dataDir same
  intro way way_mem
  rw [same, dataDir] at way_mem
  exact keeps way (hasDataDir way way_mem)

@[simp]
theorem hasDataDir_overwrite :
    (directory.overwrite place content).HasDataDir ↔ directory.HasDataDir :=
  Iff.rfl

@[simp]
theorem hasDataDir_discard : (directory.discard place).HasDataDir ↔ directory.HasDataDir :=
  Iff.rfl

/-- Beside the records of one table, those of another are looked for at their place, unless the name
is too long. -/
theorem locate_beside (valid : validTableName table = true)
    (otherValid : validTableName other = true)
    (usable : ¬FileSystem.Unusable (Path.ofText (directory.tablePath other))) {place : Location}
    (located : directory.files.locate (Path.ofText (directory.tablePath table)) = .ok place) :
    directory.files.locate (Path.ofText (directory.tablePath other)) =
      if other.utf8ByteSize ≤ 250 then .ok (directory.site.tablePlace other)
      else .error .nameTooLong := by
  rcases directory.site.locate_tablePath_cases otherValid with ⟨unusable, -⟩ | ⟨-, leads⟩
  · exact absurd unusable usable
  rcases directory.site.locate_tablePath_cases valid with ⟨-, fault, refused⟩ | ⟨-, tableLeads⟩
  · cases (refused directory.files).symm.trans located
  have led := (tableLeads directory.files rfl).symm.trans located
  have size : (other ++ ".json").utf8ByteSize = other.utf8ByteSize + 5 := by
    rw [String.utf8ByteSize_append]
    rfl
  refine (leads directory.files rfl).trans ?_
  rw [FileSystem.walk_beside led, FileSystem.walk_name (fileName_ne (by decide)), size,
    directory.site.tablePlace_eq otherValid]
  by_cases short : other.utf8ByteSize ≤ 250
  · rw [if_pos short, if_neg]
    · rfl
    · exact Nat.not_lt.mpr (Nat.add_le_add_right short 5)
  · rw [if_neg short, if_pos]
    exact Nat.add_lt_add_right (Nat.lt_of_not_le short) 5

namespace Wrote

variable {files : FileSystem} (valid : validTableName table = true)
  (wrote : directory.Wrote after (directory.tablePath table) json files)

include valid wrote

theorem growsDataDir :
    FileSystem.Grows directory.files files (directory.site.way directory.dataDir) :=
  directory.site.route_tablePath valid ▸ wrote.grows

/-- Before the records of a table are written, the directory of all records is made. -/
theorem makes :
    directory.files.makeDirectoriesFrom (directory.site.origin directory.dataDir)
      (Path.ofText directory.dataDir).parts = (files, .ok ()) := by
  have start := directory.site.origin_tablePath valid
  have parts : (Path.ofText (directory.tablePath table)).parts.dropLast =
      (Path.ofText directory.dataDir).parts :=
    (congrArg List.dropLast (directory.site.parts_tablePath valid)).trans List.dropLast_concat
  have made := FileSystem.makeDirectoriesFrom_of_parent wrote.made
  rw [parts] at made
  exact start ▸ made

theorem hasDataDir : after.HasDataDir := by
  have start : directory.files.isDirectory (directory.site.origin directory.dataDir) = true :=
    FileSystem.isDirectory_origin wrote.start _
  have dataDir : after.dataDir = directory.dataDir := congrArg Site.dataDir wrote.site_eq
  intro way way_mem
  rw [wrote.site_eq, dataDir] at way_mem
  rw [wrote.written]
  exact FileSystem.isDirectory_of_makeDirectoriesFrom start (wrote.makes valid) way way_mem

end Wrote

end Directory

end Tabula
