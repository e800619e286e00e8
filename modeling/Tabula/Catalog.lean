import Tabula.Error
import Tabula.Text.Blank

/-!
# Catalogs

The tables of a database with their schemas, in the order of creation. A table is created from
column definitions, each a name, a colon and a type. Nothing happens to the catalog unless the
table name and every definition are well formed.
-/

namespace Tabula

/-- The column that a definition defines. -/
def columnDefinition (definition : String) : Except Error (String × ColumnType) :=
  match (Text.pieces (· == ':') definition.toList).map String.ofList with
  | [name, typeName] =>
      if name = "" ∨ typeName = "" then
        .error (.invalidSyntax (.columnDefinition definition))
      else match ColumnType.ofName? typeName with
        | some type => .ok (name, type)
        | none => .error (.unknownType typeName)
  | _ => .error (.invalidSyntax (.columnDefinition definition))

namespace Schema

/-- The schema with one more data column; a name that is taken, `ID` among them, is refused. -/
def addColumn (schema : Schema) (name : String) (type : ColumnType) : Except Error Schema :=
  match schema.addColumn? name type with
  | some extended => .ok extended
  | none => .error (.duplicateColumn name)

/-- The schema with the columns that definitions add, one after the other. A definition of `ID`
adds nothing, since every schema has that column, but it must be well formed. -/
def define (schema : Schema) : List String → Except Error Schema
  | [] => .ok schema
  | definition :: rest =>
      match columnDefinition definition with
      | .error error => .error error
      | .ok (name, type) =>
          if name = idColumn then schema.define rest
          else match schema.addColumn name type with
            | .error error => .error error
            | .ok extended => extended.define rest

end Schema

/-- Whether a table may have a name: it is not empty and holds no character that separates parts
of a file name. -/
def validTableName (name : String) : Bool :=
  name != "" && name.toList.all fun c => c != '/' && c != '\\' && c != '\x00'

theorem mem_of_validTableName {table : String} (valid : validTableName table = true) :
    table ≠ "" ∧ '/' ∉ table.toList ∧ '\\' ∉ table.toList ∧ '\x00' ∉ table.toList := by
  simp only [validTableName, Bool.and_eq_true, bne_iff_ne, List.all_eq_true] at valid
  refine ⟨valid.1, ?_, ?_, ?_⟩
  · intro slash
    exact (valid.2 _ slash).1.1 rfl
  · intro backslash
    exact (valid.2 _ backslash).1.2 rfl
  · intro nul
    exact (valid.2 _ nul).2 rfl

/-- The tables of a database. -/
abbrev Catalog := OrderedMap String Schema

namespace Catalog

def table (catalog : Catalog) (name : String) : Except Error Schema :=
  match catalog.get? name with
  | some schema => .ok schema
  | none => .error (.tableNotFound name)

/-- Add a table at the end. It gives the catalog that is left and the table's schema. -/
def attemptCreate (catalog : Catalog) (name : String) (definitions : List String) :
    Catalog × Except Error Schema :=
  if catalog.contains name then (catalog, .error (.tableAlreadyExists name))
  else if !validTableName name then (catalog, .error (.invalidSyntax (.tableName name)))
  else match Schema.idOnly.define definitions with
    | .error error => (catalog, .error error)
    | .ok schema => (catalog.insert name schema, .ok schema)

/-- Take a table away. It gives the catalog that is left and the table's schema. -/
def attemptDrop (catalog : Catalog) (name : String) : Catalog × Except Error Schema :=
  (catalog.erase name, catalog.table name)

/-- The catalog with a new table at its end, and the table's schema. -/
def createTable (catalog : Catalog) (name : String) (definitions : List String) :
    Except Error (Catalog × Schema) :=
  completed (catalog.attemptCreate name definitions)

/-- The catalog without a table, and the table's schema. -/
def dropTable (catalog : Catalog) (name : String) : Except Error (Catalog × Schema) :=
  completed (catalog.attemptDrop name)

end Catalog

end Tabula
