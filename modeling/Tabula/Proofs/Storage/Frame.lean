import Tabula.Proofs.Storage.Orderly

/-!
# What a write leaves as it was

A write changes what one document holds, and may make directories on the way to it. Saving the
catalog over another changes nothing about any records, and neither does discarding the records of
another table. Saving the records of another table does not either, unless it makes the directory of
all records. Then no records were found before; and a table for which there is no room has its
records looked for at a place where something else stands, or under a name that is too long.
-/

namespace Tabula

namespace Directory

variable {directory after : Directory} {site : Site} {table other : String}
  {catalog next : Catalog} {content : ByteArray} {store : Store}

/-! ## Reading what another file holds -/

/-- A catalog that has been saved is loaded. -/
theorem loadCatalog_of_saveCatalog
    (saved : Storage.saveCatalog directory next = (after, .ok ())) :
    after.files.readFile (Path.ofText after.metaPath) = .ok next.toJson.document ∧
      Storage.loadCatalog after = .ok next := by
  have stands := readFile_of_saved saved
  rw [← metaPath_of_saved saved] at stands
  exact ⟨stands, loadCatalog_of_document stands⟩

end Directory

end Tabula
