/-!
# Column types

A column holds integers, text or truth values. The name of a type is the word used for it in
column definitions and in stored schemas; names are told apart by case.
-/

namespace Tabula

inductive ColumnType
  | int
  | str
  | bool
deriving DecidableEq, Repr

namespace ColumnType

def name : ColumnType → String
  | .int => "int"
  | .str => "str"
  | .bool => "bool"

/-- The type that a word names. -/
def ofName? (word : String) : Option ColumnType :=
  if word = "int" then some .int
  else if word = "str" then some .str
  else if word = "bool" then some .bool
  else none

@[simp]
theorem ofName?_name (type : ColumnType) : ofName? type.name = some type := by
  cases type <;> decide

theorem name_of_ofName? {word : String} {type : ColumnType} (named : ofName? word = some type) :
    word = type.name := by
  unfold ofName? at named
  repeat' split at named
  all_goals cases named
  all_goals assumption

end ColumnType

end Tabula
