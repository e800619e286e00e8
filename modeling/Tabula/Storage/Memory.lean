import Tabula.Storage

/-!
# Storage in memory

The catalog and the records as values. Nothing here can fail.
-/

namespace Tabula

/-- A catalog with record sets, which may or may not belong to its tables. -/
@[ext]
structure Memory where
  catalog : Catalog := ∅
  /-- The record sets kept, by table. -/
  stores : OrderedMap String Store := ∅
deriving DecidableEq

namespace Memory

/-- The memory of a new database. -/
def empty : Memory :=
  {}

/-- The records of a table. -/
def store (memory : Memory) (table : String) : Store :=
  (memory.stores.get? table).getD .empty

instance : Storage Memory where
  loadCatalog memory := .ok memory.catalog
  loader memory := {
    load := fun table => .ok (memory.store table)
    recordsExist := memory.stores.contains }
  saveCatalog memory catalog := ({ memory with catalog }, .ok ())
  saveTable memory table store :=
    ({ memory with stores := memory.stores.insert table store }, .ok ())
  deleteTable memory table := ({ memory with stores := memory.stores.erase table }, .ok ())

end Memory

end Tabula
