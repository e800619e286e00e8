import Tabula.Catalog
import Tabula.Engine

/-!
# Storage

What a session needs of the place where the catalog and the records are kept. A write that fails
still gives the state it leaves behind.
-/

namespace Tabula

/-- A state in which a catalog and the records of tables are kept. -/
class Storage (State : Type) where
  /-- The catalog; where none was saved, the empty one. -/
  loadCatalog : State → Except Error Catalog
  loader : State → Loader
  /-- Keep a catalog in place of the one before. -/
  saveCatalog : State → Catalog → State × Except Error Unit
  /-- Keep records in place of those a table had before. -/
  saveTable : State → String → Store → State × Except Error Unit
  /-- Discard the records of a table, if there are any. -/
  deleteTable : State → String → State × Except Error Unit

end Tabula
