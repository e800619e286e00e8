import Tabula.Engine
import Tabula.Render.Grid

/-!
# Answers as text

What the user reads for each answer.
-/

namespace Tabula

/-- The commands there are, explained. -/
def helpText : String :=
  "\n".intercalate
    ["Data commands:",
      "  create_table <table> <column:type> ...                   Create a table (types: int, str, bool)",
      "  list_tables                                              List all tables",
      "  drop_table <table>                                       Drop a table",
      "  info <table>                                             Show a table's columns and record count",
      "  insert into <table> values (<value1>, <value2>, ...)     Add a record",
      "  select from <table> [where <column> = <value>]           Read records",
      "  update <table> set <column> = <value> where <column> = <value>",
      "                                                           Update matching records",
      "  delete from <table> where <column> = <value>             Delete matching records",
      "",
      "General commands:",
      "  help                                                     Show this help message",
      "  exit                                                     Exit PlainDB",
      "",
      "Examples:",
      "  create_table users name:str age:int active:bool",
      "  insert into users values (\"Alice\", 30, true)",
      "  select from users where name = \"Alice\""]

namespace Answer

/-- A line for each `ID`, or another one where there is none. -/
def linePerId (ids : List Int64) (none : String) (line : String → String) : String :=
  if ids = [] then none
  else "\n".intercalate (ids.map fun id => line (Value.int id).display)

def render : Answer → String
  | .created table schema =>
      "Table \"" ++ table ++ "\" created with columns: " ++ schema.describe
  | .dropped table => "Table \"" ++ table ++ "\" dropped."
  | .tables names =>
      if names = [] then "No tables found." else "\n".intercalate (names.map ("- " ++ ·))
  | .info table schema count =>
      "Table: " ++ table ++ "\nColumns: " ++ schema.describe ++ "\nRecords: " ++ toString count
  | .inserted table id =>
      "Record with ID=" ++ (Value.int id).display ++ " added to table \"" ++ table ++ "\"."
  | .rows _ schema records =>
      if records = [] then "No records found." else Grid.render schema records
  | .updated table ids =>
      linePerId ids "No records found to update." fun id =>
        "Record with ID=" ++ id ++ " in table \"" ++ table ++ "\" updated."
  | .deleted table ids =>
      linePerId ids "No records found to delete." fun id =>
        "Record with ID=" ++ id ++ " deleted from table \"" ++ table ++ "\"."
  | .help => helpText
  | .exit => "Goodbye!"

end Answer

end Tabula
