import Tabula.Document.Catalog
import Tabula.Document.Records
import Tabula.FileSystem
import Tabula.Storage

/-!
# Storage in files

The catalog is one file, and the records of each table are another, in a directory of their own
under the name of the table. All are written as indented JSON. A file that is not there stands for
the empty catalog or for no records. Directories are made when something is written into them.
-/

namespace Tabula

/-- Files in which a database is kept. -/
structure Directory where
  files : FileSystem
  metaPath : String
  dataDir : String

namespace Directory

/-- The path of a table's records. -/
def tablePath (directory : Directory) (table : String) : String :=
  Path.join directory.dataDir (table ++ ".json")

/-- Read a document, or take a value in its place if it is not there. -/
def load {α : Type} (directory : Directory) (path : String) (missing : α)
    (read : String → Except Error α) : Except Error α :=
  match directory.files.readText (Path.ofText path) with
  | .error .notFound => .ok missing
  | .error fault => .error (.file fault)
  | .ok text => read text

/-- Write a document, into directories that are made for it. -/
def save (directory : Directory) (path : String) (json : Json) : Directory × Except Error Unit :=
  match directory.files.makeDirectories (Path.ofText path).parent with
  | (files, .error fault) => ({ directory with files }, .error (.file fault))
  | (files, .ok ()) =>
      match files.writeFile (Path.ofText path) (String.ofList json.indented).toUTF8 with
      | .error fault => ({ directory with files }, .error (.file fault))
      | .ok files => ({ directory with files }, .ok ())

/-- Remove a document, if it is there. -/
def remove (directory : Directory) (path : String) : Directory × Except Error Unit :=
  match directory.files.removeFile (Path.ofText path) with
  | .error .notFound => (directory, .ok ())
  | .error fault => (directory, .error (.file fault))
  | .ok files => ({ directory with files }, .ok ())

instance : Storage Directory where
  loadCatalog directory := directory.load directory.metaPath ∅ Catalog.ofDocument
  loader directory := {
    load := fun table => directory.load (directory.tablePath table) .empty Store.ofDocument
    recordsExist := fun table => directory.files.isFile (Path.ofText (directory.tablePath table)) }
  saveCatalog directory catalog := directory.save directory.metaPath catalog.toJson
  saveTable directory table store := directory.save (directory.tablePath table) store.toJson
  deleteTable directory table := directory.remove (directory.tablePath table)

end Directory

end Tabula
