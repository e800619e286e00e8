import Tabula.Schema
import Tabula.Value

/-!
# Records

A record maps column names to values, each column once, in the record's own order. It fits a schema
when it has the schema's columns, in any order, with values of their types.
-/

namespace Tabula

/-- One row: the values of its columns. -/
abbrev Record := OrderedMap String Value

namespace Record

/-- The record's `ID`, if it has an integer there. -/
def id? (record : Record) : Option Int64 :=
  (record.get? idColumn).bind Value.int?

/-- The record's values in the order of the schema's columns; nothing for a column that the record
lacks. -/
def project (record : Record) (schema : Schema) : List (Option Value) :=
  schema.names.map record.get?

/-- Whether the record has as many columns as the schema and all of them are the schema's, with
values of the right type. Since neither repeats a column, they then have the same columns. -/
def conforms (record : Record) (schema : Schema) : Bool :=
  record.size == schema.columns.size &&
    record.entries.all fun entry => schema.columnType? entry.1 == some entry.2.type

end Record

end Tabula
