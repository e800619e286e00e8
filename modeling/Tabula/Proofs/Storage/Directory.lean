import Tabula.Proofs.Document
import Tabula.Proofs.FileSystem
import Tabula.Storage.Directory

/-!
# Documents in files

What a document is read as, what is left when one cannot be written or removed, and how one that
stands is overwritten: in place, with every directory and every other file as it was.
-/

namespace Tabula

/-- The bytes of a document. -/
def Json.document (json : Json) : ByteArray :=
  (String.ofList json.indented).toUTF8

namespace Directory

variable {α : Type} {directory after : Directory} {path : String} {json : Json} {error : Error}
  {content : ByteArray} {location : Location} {missing value : α}
  {read : String → Except Error α}

/-- The directory with other bytes in one file. -/
def overwrite (directory : Directory) (location : Location) (content : ByteArray) : Directory :=
  { directory with
    files := { directory.files with
      contents := directory.files.contents.insert location content } }

@[simp]
theorem get?_overwrite (directory : Directory) (location other : Location)
    (content : ByteArray) :
    (directory.overwrite location content).files.contents.get? other =
      if location = other then some content else directory.files.contents.get? other :=
  OrderedMap.get?_insert ..

theorem mem_keys_overwrite {other : Location} :
    other ∈ (directory.overwrite location content).files.contents.keys ↔
      other = location ∨ other ∈ directory.files.contents.keys :=
  OrderedMap.mem_keys_insert

/-- Elsewhere there stands what stood there. -/
theorem node?_overwrite_of_ne {other : Location} (differs : location ≠ other) :
    (directory.overwrite location content).files.node? other = directory.files.node? other := by
  rw [FileSystem.node?, FileSystem.node?, get?_overwrite, if_neg differs]
  rfl

/-- The directory without one file. -/
def discard (directory : Directory) (location : Location) : Directory :=
  { directory with
    files := { directory.files with contents := directory.files.contents.erase location } }

@[simp]
theorem get?_discard (directory : Directory) (location other : Location) :
    (directory.discard location).files.contents.get? other =
      if location = other then none else directory.files.contents.get? other :=
  OrderedMap.get?_erase ..

theorem mem_keys_discard {other : Location} :
    other ∈ (directory.discard location).files.contents.keys ↔
      other ∈ directory.files.contents.keys ∧ other ≠ location :=
  OrderedMap.mem_keys_erase

theorem loadCatalog_eq (directory : Directory) :
    Storage.loadCatalog directory = directory.load directory.metaPath ∅ Catalog.ofDocument := by
  simp only [Storage.loadCatalog]

theorem load_eq (directory : Directory) (table : String) :
    (Storage.loader directory).load table =
      directory.load (directory.tablePath table) .empty Store.ofDocument := by
  simp only [Storage.loader]

theorem recordsExist_eq (directory : Directory) (table : String) :
    (Storage.loader directory).recordsExist table =
      directory.files.isFile (Path.ofText (directory.tablePath table)) := by
  simp only [Storage.loader]

/-! ## Reading -/

theorem load_of_missing (absent : directory.files.readFile (Path.ofText path) = .error .notFound) :
    directory.load path missing read = .ok missing := by
  rw [load, FileSystem.readText, absent]

theorem load_of_document
    (stands : directory.files.readFile (Path.ofText path) = .ok json.document) :
    directory.load path missing read = read (String.ofList json.indented) := by
  rw [load, FileSystem.readText_toUTF8 stands]

theorem loadCatalog_of_document {catalog : Catalog}
    (stands : directory.files.readFile (Path.ofText directory.metaPath) =
      .ok catalog.toJson.document) :
    Storage.loadCatalog directory = .ok catalog := by
  rw [loadCatalog_eq, load_of_document stands, catalog.ofDocument_indented]

theorem load_eq_of_readFile
    (same : after.files.readFile (Path.ofText path) = directory.files.readFile (Path.ofText path))
    (missing : α) (read : String → Except Error α) :
    after.load path missing read = directory.load path missing read := by
  rw [load, load, FileSystem.readText, FileSystem.readText, same]

/-- What is not the value taken for a missing document is read from a file. -/
theorem exists_file_of_load (loaded : directory.load path missing read = .ok value)
    (present : value ≠ missing) :
    ∃ content, directory.files.readFile (Path.ofText path) = .ok content := by
  rw [load, FileSystem.readText] at loaded
  cases found : directory.files.readFile (Path.ofText path) with
  | ok content => exact ⟨content, rfl⟩
  | error fault =>
      rw [found] at loaded
      cases fault with
      | notFound => exact absurd (Except.ok.inj loaded).symm present
      | _ => cases loaded

/-! ## Failing to write and to remove -/

theorem contents_of_save_error (failed : directory.save path json = (after, .error error)) :
    after.files.contents = directory.files.contents := by
  have made := FileSystem.contents_makeDirectories directory.files (Path.ofText path).parent
  rw [save] at failed
  split at failed
  · rename_i files fault making
    rw [making] at made
    cases failed
    exact made
  · rename_i files making
    rw [making] at made
    split at failed
    · cases failed
      exact made
    · cases failed

theorem remove_eq_error_iff :
    directory.remove path = (after, .error error) ↔
      after = directory ∧ ∃ fault, error = .file fault ∧ fault ≠ .notFound ∧
        directory.files.removeFile (Path.ofText path) = .error fault := by
  rw [remove]
  cases directory.files.removeFile (Path.ofText path) with
  | ok files => simp
  | error fault => cases fault <;> simp [eq_comm]

theorem remove_of_missing
    (missing : directory.files.removeFile (Path.ofText path) = .error .notFound) :
    directory.remove path = (directory, .ok ()) := by
  rw [remove, missing]

theorem remove_of_ok
    (removed : directory.files.removeFile (Path.ofText path) =
      .ok (directory.discard location).files) :
    directory.remove path = (directory.discard location, .ok ()) := by
  rw [remove, removed]
  rfl

/-! ## Overwriting -/

theorem save_of_locate {files : FileSystem}
    (made : directory.files.makeDirectories (Path.ofText path).parent = (files, .ok ()))
    (located : files.locate (Path.ofText path) = .ok location)
    (elsewhere : files.isDirectory location = false)
    (file : (Path.ofText path).directoryOnly = false) (json : Json) :
    directory.save path json =
      (overwrite { directory with files } location json.document, .ok ()) := by
  have written : files.writeFile (Path.ofText path) json.document =
      .ok { files with contents := files.contents.insert location json.document } :=
    FileSystem.writeFile_eq_ok_iff.mpr ⟨location, located, elsewhere, file, rfl⟩
  rw [Json.document] at written
  rw [save, made]
  simp only [written]
  rfl

theorem save_of_readFile (stands : directory.files.readFile (Path.ofText path) = .ok content)
    (json : Json) :
    ∃ location, directory.files.locate (Path.ofText path) = .ok location ∧
      (directory.files.contents.get? location).isSome ∧
      directory.save path json = (directory.overwrite location json.document, .ok ()) ∧
        (directory.overwrite location json.document).files.readFile (Path.ofText path) =
          .ok json.document := by
  rcases FileSystem.readFile_eq_ok_iff.mp stands with ⟨location, located, node, file⟩
  rcases FileSystem.node?_eq_file_iff.mp node with ⟨elsewhere, held⟩
  have standing : (directory.files.contents.get? location).isSome := by
    rw [held]
    rfl
  have same : FileSystem.SameShape (directory.overwrite location json.document).files
      directory.files := FileSystem.sameShape_insert standing
  have made := FileSystem.makeDirectories_parent_of_locate located
  refine ⟨location, located, standing, save_of_locate made located elsewhere file json, ?_⟩
  refine FileSystem.readFile_eq_ok_iff.mpr ⟨location, ?_, ?_, file⟩
  · rw [same.locate, located]
  · refine FileSystem.node?_eq_file_iff.mpr ⟨?_, ?_⟩
    · rw [same.isDirectory, elsewhere]
    · rw [get?_overwrite, if_pos rfl]

end Directory

end Tabula
