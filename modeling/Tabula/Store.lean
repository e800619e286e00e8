import Tabula.Clause
import Tabula.Error

/-!
# Stores

The records of one table, in the order of their insertion. Selecting, updating and deleting keep
that order. An insert gives its record the `ID` after the largest one present, so an `ID` comes back
only when the largest was deleted.
-/

namespace Tabula

/-- The records of a table. -/
@[ext]
structure Store where
  /-- The records, oldest first. -/
  records : List Record
deriving DecidableEq

namespace Store

def empty : Store :=
  ⟨[]⟩

instance : Inhabited Store := ⟨empty⟩

def size (store : Store) : Nat :=
  store.records.length

def isEmpty (store : Store) : Bool :=
  store.records.isEmpty

/-- The integer `ID`s present, in order. -/
def ids (store : Store) : List Int64 :=
  store.records.filterMap Record.id?

/-- The larger of an integer and the integers of a list. -/
def largestFrom (start : Int64) (numbers : List Int64) : Int64 :=
  numbers.foldl (fun largest number => if largest < number then number else largest) start

/-- The largest `ID` present. -/
def largestId? (store : Store) : Option Int64 :=
  match store.ids with
  | [] => none
  | first :: rest => some (largestFrom first rest)

/-- The `ID` of the next record: one more than the largest present, or 1. -/
def nextId (store : Store) : Except Error Int64 :=
  match store.largestId? with
  | none => .ok 1
  | some largest =>
      if largest = Int64.maxValue then .error (.noIdLeft largest) else .ok (largest + 1)

/-- What is wrong with records that follow `place` others whose `ID`s were `seen`: the first
record that does not fit the schema, or whose `ID` is not positive or was seen before. -/
def corruptionFrom? (schema : Schema) (place : Nat) (seen : List Int64) :
    List Record → Option Corruption
  | [] => none
  | record :: rest =>
      if !record.conforms schema then some (.mismatch (place + 1) schema)
      else match record.id? with
        | none => some (.missingId (place + 1))
        | some id =>
            if id ≤ 0 then some (.notPositive id)
            else if id ∈ seen then some (.repeated id)
            else corruptionFrom? schema (place + 1) (id :: seen) rest

/-- Accept a store whose records fit the schema and have distinct positive `ID`s. -/
def validate (store : Store) (table : String) (schema : Schema) : Except Error Unit :=
  match corruptionFrom? schema 0 [] store.records with
  | none => .ok ()
  | some corruption => .error (.corruptTable table corruption)

/-- The first column whose value is of another type, with that value. -/
def firstMismatch? : List (String × ColumnType) → List Value →
    Option (String × ColumnType × Value)
  | (name, type) :: columns, value :: values =>
      if value.type = type then firstMismatch? columns values else some (name, type, value)
  | _, _ => none

/-- The record of an `ID` and the values of the data columns. -/
def newRecord (schema : Schema) (id : Int64) (values : List Value) : Record :=
  .ofList ((idColumn, .int id) :: schema.dataColumns.keys.zip values)

/-- Add a record of the given values, one for each data column. It gives the store that is left and
the record's `ID`. -/
def attemptInsert (store : Store) (schema : Schema) (values : List Value) :
    Store × Except Error Int64 :=
  if values.length ≠ schema.dataColumns.size then
    (store, .error (.arityMismatch schema.dataColumns.size values.length))
  else match firstMismatch? schema.dataColumns.entries values with
    | some (column, expected, value) => (store, .error (.typeMismatch column expected value))
    | none =>
        match store.nextId with
        | .error error => (store, .error error)
        | .ok id => (⟨store.records ++ [newRecord schema id values]⟩, .ok id)

/-- The store with one more record, and the record's `ID`. -/
def insert (store : Store) (schema : Schema) (values : List Value) :
    Except Error (Store × Int64) :=
  completed (store.attemptInsert schema values)

/-- The records that a predicate accepts, or all of them. -/
def select (store : Store) : Option Predicate → List Record
  | none => store.records
  | some predicate => store.records.filter predicate.accepts

/-- The store with the accepted records overwritten, and their `ID`s. -/
def update (store : Store) (set : SetClause) (predicate : Predicate) : Store × List Int64 :=
  (⟨store.records.map fun record =>
      if predicate.accepts record then set.apply record else record⟩,
    ((store.records.filter predicate.accepts).map set.apply).filterMap Record.id?)

/-- The store without the accepted records, and their `ID`s. -/
def delete (store : Store) (predicate : Predicate) : Store × List Int64 :=
  (⟨store.records.filter fun record => !predicate.accepts record⟩,
    (store.records.filter predicate.accepts).filterMap Record.id?)

end Store

end Tabula
