import Tabula.Clause
import Tabula.Verb

/-!
# Commands

What one line of input asks for.
-/

namespace Tabula

inductive Command
  /-- Create a table from column definitions. -/
  | createTable (table : String) (definitions : List String)
  | dropTable (table : String)
  | listTables
  | info (table : String)
  | insert (table : String) (values : List Value)
  /-- Read the records that a predicate accepts, or all. -/
  | select (table : String) (predicate : Option Predicate)
  | update (table : String) (set : SetClause) (predicate : Predicate)
  | delete (table : String) (predicate : Predicate)
  | help
  | exit
deriving DecidableEq

namespace Command

def verb : Command → Verb
  | .createTable _ _ => .createTable
  | .dropTable _ => .dropTable
  | .listTables => .listTables
  | .info _ => .info
  | .insert _ _ => .insert
  | .select _ _ => .select
  | .update _ _ _ => .update
  | .delete _ _ => .delete
  | .help => .help
  | .exit => .exit

/-- The table that a command names. -/
def table? : Command → Option String
  | .createTable table _ | .dropTable table | .info table | .insert table _ | .select table _
  | .update table _ _ | .delete table _ => some table
  | .listTables | .help | .exit => none

/-- Whether a command can lose data, so that it is confirmed first. -/
def isDestructive : Command → Bool
  | .dropTable _ | .delete _ _ => true
  | _ => false

/-- What a command does, as it is named in the question that confirms it. -/
def action : Command → String
  | .dropTable table => "drop table " ++ table
  | .delete table predicate => "delete from " ++ table ++ " where " ++ predicate.display
  | command => command.verb.word

end Command

end Tabula
