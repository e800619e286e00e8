import Tabula.Catalog
import Tabula.Command
import Tabula.Store

/-!
# The engine

The engine runs one command against a catalog and the records that a loader supplies. It writes
nothing: what a command changes comes back as a `Change` for the session to persist. Records are
checked against the schema whenever they are loaded, before anything is done with them, and a set
clause is checked before the records are loaded.
-/

namespace Tabula

/-- Read access to the records of tables. -/
structure Loader where
  /-- The records of a table; a table without any loads as the empty store. -/
  load : String → Except Error Store
  recordsExist : String → Bool

/-- What a command tells the user. -/
inductive Answer
  | created (table : String) (schema : Schema)
  | dropped (table : String)
  | tables (names : List String)
  | info (table : String) (schema : Schema) (count : Nat)
  | inserted (table : String) (id : Int64)
  | rows (table : String) (schema : Schema) (records : List Record)
  | updated (table : String) (ids : List Int64)
  | deleted (table : String) (ids : List Int64)
  | help
  | exit
deriving DecidableEq

/-- What a command changes. -/
inductive Change
  | nothing
  | create (catalog : Catalog) (table : String)
  /-- A table is gone from the catalog, and its records are to be discarded. -/
  | drop (catalog : Catalog) (table : String)
  | save (table : String) (store : Store)
deriving DecidableEq

namespace Change

def catalog? : Change → Option Catalog
  | .create catalog _ | .drop catalog _ => some catalog
  | .nothing | .save _ _ => none

def saved? : Change → Option (String × Store)
  | .save table store => some (table, store)
  | _ => none

def discarded? : Change → Option String
  | .drop _ table => some table
  | _ => none

def isMutation : Change → Bool
  | .nothing => false
  | _ => true

end Change

/-- Everything a command produced. -/
structure Outcome where
  answer : Answer
  change : Change := .nothing
deriving DecidableEq

/-- The first assignment of a set clause that a table does not allow: to `ID`, to a column it does
not have, or of a value of another type. -/
def assignmentError? (table : String) (schema : Schema) : List (String × Value) → Option Error
  | [] => none
  | (column, value) :: rest =>
      if column = idColumn then some (.readOnlyColumn column)
      else match schema.columnType? column with
        | none => some (.columnNotFound column table)
        | some type =>
            if value.type = type then assignmentError? table schema rest
            else some (.typeMismatch column type value)

/-- Accept the set clauses that keep the records of a table fitting its schema. -/
def SetClause.check (set : SetClause) (table : String) (schema : Schema) : Except Error Unit :=
  match assignmentError? table schema set.assignments.entries with
  | none => .ok ()
  | some error => .error error

namespace Engine

variable (catalog : Catalog) (loader : Loader)

/-- The records of a table, which must be what its schema says. -/
def loadValid (table : String) (schema : Schema) : Except Error Store :=
  match loader.load table with
  | .error error => .error error
  | .ok store =>
      match store.validate table schema with
      | .error error => .error error
      | .ok () => .ok store

def createTable (table : String) (definitions : List String) : Except Error Outcome :=
  match catalog.createTable table definitions with
  | .error error => .error error
  | .ok (extended, schema) => .ok ⟨.created table schema, .create extended table⟩

def dropTable (table : String) : Except Error Outcome :=
  match catalog.dropTable table with
  | .error error => .error error
  | .ok (reduced, _) => .ok ⟨.dropped table, .drop reduced table⟩

def info (table : String) : Except Error Outcome :=
  match catalog.table table with
  | .error error => .error error
  | .ok schema =>
      if loader.recordsExist table then
        match loadValid loader table schema with
        | .error error => .error error
        | .ok store => .ok { answer := .info table schema store.size }
      else .ok { answer := .info table schema 0 }

def insert (table : String) (values : List Value) : Except Error Outcome :=
  match catalog.table table with
  | .error error => .error error
  | .ok schema =>
      match loadValid loader table schema with
      | .error error => .error error
      | .ok store =>
          match store.insert schema values with
          | .error error => .error error
          | .ok (extended, id) => .ok ⟨.inserted table id, .save table extended⟩

def select (table : String) (predicate : Option Predicate) : Except Error Outcome :=
  match catalog.table table with
  | .error error => .error error
  | .ok schema =>
      match loadValid loader table schema with
      | .error error => .error error
      | .ok store => .ok { answer := .rows table schema (store.select predicate) }

/-- Overwrite columns of records. When no record is accepted there is nothing to persist. -/
def update (table : String) (set : SetClause) (predicate : Predicate) : Except Error Outcome :=
  match catalog.table table with
  | .error error => .error error
  | .ok schema =>
      match set.check table schema with
      | .error error => .error error
      | .ok () =>
          match loadValid loader table schema with
          | .error error => .error error
          | .ok store =>
              let (changed, ids) := store.update set predicate
              .ok ⟨.updated table ids, if ids = [] then .nothing else .save table changed⟩

/-- Remove records. When no record is accepted there is nothing to persist. -/
def delete (table : String) (predicate : Predicate) : Except Error Outcome :=
  match catalog.table table with
  | .error error => .error error
  | .ok schema =>
      match loadValid loader table schema with
      | .error error => .error error
      | .ok store =>
          let (kept, ids) := store.delete predicate
          .ok ⟨.deleted table ids, if ids = [] then .nothing else .save table kept⟩

def execute : Command → Except Error Outcome
  | .createTable table definitions => createTable catalog table definitions
  | .dropTable table => dropTable catalog table
  | .listTables => .ok { answer := .tables catalog.keys }
  | .info table => info catalog loader table
  | .insert table values => insert catalog loader table values
  | .select table predicate => select catalog loader table predicate
  | .update table set predicate => update catalog loader table set predicate
  | .delete table predicate => delete catalog loader table predicate
  | .help => .ok { answer := .help }
  | .exit => .ok { answer := .exit }

end Engine

end Tabula
