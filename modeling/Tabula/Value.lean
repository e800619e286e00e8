import Tabula.ColumnType
import Tabula.Text.Decimal

/-!
# Values

A value is an integer, a text or a truth value, and it knows which: the text `1`, the integer 1
and the truth value `true` are three different values.
-/

namespace Tabula

/-- What a record holds in a column. -/
inductive Value
  | int (number : Int64)
  | str (text : String)
  /-- A truth value. -/
  | bool (truth : Bool)
deriving DecidableEq

namespace Value

/-- The only column type that admits a value. -/
def type : Value → ColumnType
  | .int _ => .int
  | .str _ => .str
  | .bool _ => .bool

/-- The integer that a value is, if it is one. -/
def int? : Value → Option Int64
  | .int number => some number
  | _ => none

/-- The text shown for a value: decimal digits, the text itself, or `true` and `false`. -/
def display : Value → String
  | .int number => String.ofList (Text.decimal number)
  | .str text => text
  | .bool true => "true"
  | .bool false => "false"

/-- The text shown for a value in a clause: a text stands between double quotes there. -/
def displayQuoted : Value → String
  | .str text => "\"" ++ text ++ "\""
  | value => value.display

end Value

end Tabula
