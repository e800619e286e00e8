import Tabula.Catalog
import Tabula.Json
import Tabula.Json.Reader

/-!
# The catalog document

A schema is written as an object whose one member `columns` maps column names to type names, and
the catalog as an object that maps table names to schemas. In reading, a schema may have other
members, which are passed over, or be an array of its columns alone, and a type may be an object
whose only member is the type's name with `null`. A name given twice keeps its first place and takes
its last meaning. A schema is refused as soon as it has been read whole if it does not start with
`ID` of type `int`.
-/

namespace Tabula

open Json (Reader)

namespace ColumnType

def reader : Reader ColumnType
  | .string (some name) :: rest
  | .openBrace :: .string (some name) :: .colon :: .null :: .closeBrace :: rest =>
      match ofName? name with
      | some type => .ok (type, rest)
      | none => .error .malformed
  | _ => .error .malformed

end ColumnType

namespace Schema

/-- The columns of a schema as JSON. -/
def columnsToJson (schema : Schema) : Json :=
  .object (schema.columns.entries.map fun column => (column.1, .string column.2.name))

def toJson (schema : Schema) : Json :=
  .object [("columns", schema.columnsToJson)]

def columnsReader : Reader (OrderedMap String ColumnType) := fun tokens =>
  match Reader.object (Reader.keyed ColumnType.reader) tokens with
  | .error fault => .error fault
  | .ok (columns, rest) => .ok (.ofList columns, rest)

/-- Read a member of a schema: its columns, or anything under another name. -/
def memberReader : Option String → Reader (Option (OrderedMap String ColumnType))
  | none, _ => .error .malformed
  | some key, tokens =>
      if key = "columns" then
        match columnsReader tokens with
        | .error fault => .error fault
        | .ok (columns, rest) => .ok (some columns, rest)
      else
        match Reader.skip tokens with
        | .error fault => .error fault
        | .ok ((), rest) => .ok (none, rest)

/-- Read the columns of a schema in either form. They must be given exactly once. -/
def partsReader : Reader (OrderedMap String ColumnType)
  | .openBracket :: tokens =>
      match Reader.array columnsReader (.openBracket :: tokens) with
      | .error fault => .error fault
      | .ok ([columns], rest) => .ok (columns, rest)
      | .ok _ => .error .malformed
  | tokens =>
      match Reader.object memberReader tokens with
      | .error fault => .error fault
      | .ok (members, rest) =>
          match members.filterMap id with
          | [columns] => .ok (columns, rest)
          | _ => .error .malformed

def reader : Reader Schema := fun tokens =>
  match partsReader tokens with
  | .error fault => .error fault
  | .ok (columns, rest) =>
      match ofColumns? columns with
      | some schema => .ok (schema, rest)
      | none => .error .schemaWithoutId

def ofDocument (text : String) : Except Error Schema :=
  (reader.readAll text).mapError .document

end Schema

namespace Catalog

def toJson (catalog : Catalog) : Json :=
  .object (catalog.entries.map fun table => (table.1, table.2.toJson))

def reader : Reader Catalog := fun tokens =>
  match Reader.object (Reader.keyed Schema.reader) tokens with
  | .error fault => .error fault
  | .ok (tables, rest) => .ok (.ofList tables, rest)

def ofDocument (text : String) : Except Error Catalog :=
  (reader.readAll text).mapError .document

end Catalog

end Tabula
