import Tabula.SelectCache
import Tabula.Storage

/-!
# Sessions

A session runs commands one at a time over a storage: it loads the catalog, runs the command, and
persists what the command changes before it answers. It may keep the records of selects; what it
keeps for a table is forgotten when the table is created, dropped or changed.
-/

namespace Tabula

/-- A storage with the selects remembered over it. -/
structure Session (State : Type) where
  storage : State
  remembers : Bool := true
  cache : SelectCache := .empty

namespace Session

variable {State : Type} [Storage State]

/-- Save a changed catalog, and then do what else the change asks for. -/
def saveCatalog (session : Session State) (catalog : Catalog)
    (next : Session State → Session State × Except Error Unit) :
    Session State × Except Error Unit :=
  match Storage.saveCatalog session.storage catalog with
  | (storage, .error error) => ({ session with storage }, .error error)
  | (storage, .ok ()) => next { session with storage }

/-- Forget what is remembered of a table. -/
def forget (session : Session State) (table : String) : Session State :=
  { session with cache := session.cache.invalidate table }

/-- Persist a change. The catalog is saved before records are discarded, and nothing is forgotten
unless everything before it succeeded. -/
def persist (session : Session State) : Change → Session State × Except Error Unit
  | .nothing => (session, .ok ())
  | .create catalog table =>
      session.saveCatalog catalog fun session => (session.forget table, .ok ())
  | .drop catalog table =>
      session.saveCatalog catalog fun session =>
        match Storage.deleteTable session.storage table with
        | (storage, .error error) => ({ session with storage }, .error error)
        | (storage, .ok ()) => (({ session with storage }).forget table, .ok ())
  | .save table store =>
      match Storage.saveTable session.storage table store with
      | (storage, .error error) => ({ session with storage }, .error error)
      | (storage, .ok ()) => (({ session with storage }).forget table, .ok ())

/-- Run a command and persist what it changes. -/
def perform (session : Session State) (catalog : Catalog) (command : Command) :
    Session State × Except Error Answer :=
  match Engine.execute catalog (Storage.loader session.storage) command with
  | .error error => (session, .error error)
  | .ok outcome =>
      match session.persist outcome.change with
      | (session, .error error) => (session, .error error)
      | (session, .ok ()) => (session, .ok outcome.answer)

/-- Select by way of the cache. A remembered select still needs its table to exist. -/
def selectRemembered (session : Session State) (catalog : Catalog) (table : String)
    (predicate : Option Predicate) : Session State × Except Error Answer :=
  match catalog.table table with
  | .error error => (session, .error error)
  | .ok schema =>
      match session.cache.get? ⟨table, predicate⟩ with
      | some records => (session, .ok (.rows table schema records))
      | none =>
          match Engine.loadValid (Storage.loader session.storage) table schema with
          | .error error => (session, .error error)
          | .ok store =>
              let records := store.select predicate
              ({ session with cache := session.cache.insert ⟨table, predicate⟩ records },
                .ok (.rows table schema records))

/-- Go on with the catalog, once it is loaded. -/
def withCatalog (session : Session State)
    (next : Catalog → Session State × Except Error Answer) : Session State × Except Error Answer :=
  match Storage.loadCatalog session.storage with
  | .error error => (session, .error error)
  | .ok catalog => next catalog

/-- Run a command: the session afterwards, and the answer or the error. -/
def execute (session : Session State) : Command → Session State × Except Error Answer
  | .help => (session, .ok .help)
  | .exit => (session, .ok .exit)
  | .select table predicate =>
      session.withCatalog fun catalog =>
        if session.remembers then session.selectRemembered catalog table predicate
        else session.perform catalog (.select table predicate)
  | command => session.withCatalog fun catalog => session.perform catalog command

end Session

end Tabula
