import Tabula.ColumnType
import Tabula.OrderedMap

/-!
# Schemas

The columns of a table in their order. The first is always `ID`, of type `int`, and no two columns
share a name, so a schema is given by its data columns: the columns after `ID`, with distinct names
of which none is `ID`. Their order is the order of the values of an insert and of what is shown.
-/

namespace Tabula

/-- The name of the column that identifies a record. -/
def idColumn : String := "ID"

@[ext]
structure Schema where
  /-- The columns after `ID`. -/
  dataColumns : OrderedMap String ColumnType
  id_not_mem : idColumn ∉ dataColumns.keys

namespace Schema

instance : DecidableEq Schema :=
  fun left right => decidable_of_iff (left.dataColumns = right.dataColumns) Schema.ext_iff.symm

def idOnly : Schema :=
  ⟨∅, by simp⟩

instance : Inhabited Schema := ⟨idOnly⟩

/-- All columns in order, `ID` first. -/
def columns (schema : Schema) : OrderedMap String ColumnType :=
  ⟨(idColumn, .int) :: schema.dataColumns.entries,
    List.nodup_cons.mpr ⟨schema.id_not_mem, schema.dataColumns.nodup⟩⟩

/-- The schema with the given columns, which must start with `ID` of type `int`. -/
def ofColumns? : OrderedMap String ColumnType → Option Schema
  | ⟨(name, .int) :: rest, distinct⟩ =>
      if first : name = idColumn then
        some ⟨⟨rest, (List.nodup_cons.mp distinct).2⟩, first ▸ (List.nodup_cons.mp distinct).1⟩
      else none
  | _ => none

@[simp]
theorem ofColumns?_columns (schema : Schema) : ofColumns? schema.columns = some schema := by
  simp [ofColumns?, columns]

def names (schema : Schema) : List String :=
  schema.columns.keys

def columnType? (schema : Schema) (name : String) : Option ColumnType :=
  schema.columns.get? name

/-- The schema with one more data column at its end, unless the name is taken. -/
def addColumn? (schema : Schema) (name : String) (type : ColumnType) : Option Schema :=
  if free : name ∈ schema.names then none
  else
    some ⟨schema.dataColumns.insert name type, by
      rw [OrderedMap.mem_keys_insert]
      rintro (same | old)
      · subst same
        exact free (by simp [names, columns, OrderedMap.keys])
      · exact schema.id_not_mem old⟩

/-- A column as it is written: its name, a colon and its type. -/
def describeColumn (column : String × ColumnType) : String :=
  column.1 ++ ":" ++ column.2.name

/-- All columns as they are written, in order. -/
def describe (schema : Schema) : String :=
  ", ".intercalate (schema.columns.entries.map describeColumn)

end Schema

end Tabula
