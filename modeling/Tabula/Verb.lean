/-!
# Verbs

The words that commands begin with, and the form of each command as it is quoted to a user who got
it wrong.
-/

namespace Tabula

inductive Verb
  | createTable
  | dropTable
  | listTables
  | info
  | insert
  | select
  | update
  | delete
  | help
  | exit
deriving DecidableEq, Repr

namespace Verb

/-- The word that is typed for a verb. -/
def word : Verb → String
  | .createTable => "create_table"
  | .dropTable => "drop_table"
  | .listTables => "list_tables"
  | .info => "info"
  | .insert => "insert"
  | .select => "select"
  | .update => "update"
  | .delete => "delete"
  | .help => "help"
  | .exit => "exit"

def all : List Verb :=
  [.createTable, .dropTable, .listTables, .info, .insert, .select, .update, .delete, .help, .exit]

/-- The verb that a word in small letters stands for. -/
def ofWord? (word : String) : Option Verb :=
  all.find? fun verb => verb.word = word

@[simp]
theorem ofWord?_word (verb : Verb) : ofWord? verb.word = some verb := by
  cases verb <;> decide

theorem word_of_ofWord? {word : String} {verb : Verb} (known : ofWord? word = some verb) :
    verb.word = word := by
  simpa using List.find?_some known

def usage : Verb → String
  | .createTable => "create_table <name> <column:type> ..."
  | .dropTable => "drop_table <name>"
  | .listTables => "list_tables"
  | .info => "info <name>"
  | .insert => "insert into <table> values (<value>, ...)"
  | .select => "select from <table> [where <column> = <value>]"
  | .update => "update <table> set <column> = <value> where <column> = <value>"
  | .delete => "delete from <table> where <column> = <value>"
  | .help => "help"
  | .exit => "exit"

end Verb

end Tabula
