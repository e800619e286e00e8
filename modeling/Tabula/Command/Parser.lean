import Tabula.Command
import Tabula.Error
import Tabula.Text.Keyword
import Tabula.Text.Words
import Tabula.Value.Literal

/-!
# Reading commands

A line is trimmed, and its first word up to white space is the verb, in any case. Commands on
identifiers (`create_table`, `drop_table`, `info`) are read as quoted words. Commands on data
(`insert`, `select`, `update`, `delete`) are cut at the first occurrence of each of their keywords,
in any case, so that values keep their spelling; what stands between the cuts is trimmed.
-/

namespace Tabula

/-- A refusal of what was typed. -/
def refuse {α : Type} (fault : SyntaxFault) : Except Error α :=
  .error (.invalidSyntax fault)

namespace Condition

/-- Read a column, an equals sign and a value. The first equals sign counts. -/
def parse (text : List Char) : Except Error Condition :=
  match Text.splitOnce? '=' text with
  | none => refuse (.noEquals (String.ofList (Text.trim text)))
  | some (left, right) =>
      let column := Text.trim left
      if column = [] then refuse .missingColumn
      else match Value.ofLiteral? right with
        | none => refuse (.missingValue (String.ofList column))
        | some value => .ok ⟨String.ofList column, value⟩

end Condition

namespace Command

/-- The keywords of the data commands, as they are looked for. -/
def intoKeyword : List Char := "into ".toList

@[inherit_doc intoKeyword]
def valuesKeyword : List Char := "values".toList

@[inherit_doc intoKeyword]
def fromKeyword : List Char := "from ".toList

@[inherit_doc intoKeyword]
def whereKeyword : List Char := " where ".toList

@[inherit_doc intoKeyword]
def setKeyword : List Char := " set ".toList

/-- The part of a line from one place up to another. -/
def part (line : List Char) (start stop : Nat) : Except Error (List Char) :=
  match Text.slice? line start stop with
  | some text => .ok text
  | none => refuse .keywordOrder

/-- The table name that stands between two places. -/
def tableBetween (line : List Char) (start stop : Nat) : Except Error String :=
  match part line start stop with
  | .error error => .error error
  | .ok text =>
      let name := Text.trim text
      if name = [] then refuse .missingTable else .ok (String.ofList name)

/-- The text between a pair of parentheses that encloses all of a text. -/
def parenthesized? : List Char → Option (List Char)
  | [] => none
  | first :: rest =>
      if first = '(' ∧ rest.getLast? = some ')' then some rest.dropLast else none

/-- Read values, the first of which has the given place. -/
def parseValuesFrom (place : Nat) : List (List Char) → Except Error (List Value)
  | [] => .ok []
  | text :: rest =>
      match Value.ofLiteral? text with
      | none => refuse (.emptyValue place)
      | some value => (parseValuesFrom (place + 1) rest).map (value :: ·)

/-- Read values in parentheses, separated by commas. -/
def parseValues (text : List Char) : Except Error (List Value) :=
  match parenthesized? (Text.trim text) with
  | none => refuse .unwrappedValues
  | some inner =>
      if inner.any fun c => c == '(' || c == ')' then refuse .nestedParentheses
      else if Text.trim inner = [] then .ok []
      else parseValuesFrom 1 (Text.pieces (· == ',') inner)

def quotedWords (line : List Char) : Except Error (List String) :=
  match Text.words line with
  | .ok words => .ok (words.map String.ofList)
  | .error fault => refuse (.words fault)

/-- Read the name and the column definitions of a new table. -/
def parseCreateTable (line : List Char) : Except Error Command := do
  match ← quotedWords line with
  | _ :: table :: definition :: rest => .ok (.createTable table (definition :: rest))
  | _ => refuse .insufficientArguments

/-- Read the one table name of a command. -/
def parseTable (line : List Char) : Except Error String := do
  match ← quotedWords line with
  | [_, table] => .ok table
  | [_] => refuse .missingTable
  | _ => refuse .notOneTable

/-- Accept a command whose verb stands alone. -/
def parseBare (line : List Char) (command : Command) : Except Error Command :=
  if (Text.blankSeparated line).length > 1 then refuse (.takesNoArguments command.verb)
  else .ok command

def parseInsert (line : List Char) : Except Error Command := do
  match Text.position? intoKeyword line, Text.position? valuesKeyword line with
  | some into, some values =>
      let table ← tableBetween line (into + intoKeyword.length) values
      let values ← parseValues (line.drop (values + valuesKeyword.length))
      return .insert table values
  | _, _ => refuse (.usage .insert)

/-- Read a select, with or without a condition. -/
def parseSelect (line : List Char) : Except Error Command := do
  match Text.position? fromKeyword line with
  | none => refuse (.usage .select)
  | some source =>
      match Text.position? whereKeyword line with
      | none =>
          let table ← tableBetween line (source + fromKeyword.length) line.length
          return .select table none
      | some condition =>
          let table ← tableBetween line (source + fromKeyword.length) condition
          let condition ← Condition.parse (line.drop (condition + whereKeyword.length))
          return .select table (some (.ofCondition condition))

/-- Read an update. Its table stands between the verb and the word `set`. -/
def parseUpdate (line : List Char) : Except Error Command := do
  match Text.position? setKeyword line, Text.position? whereKeyword line,
      line.findIdx? Text.isBlank with
  | some set, some condition, some verbEnd =>
      if set < condition then
        let table ← tableBetween line verbEnd set
        let assignment ← Condition.parse (← part line (set + setKeyword.length) condition)
        let condition ← Condition.parse (line.drop (condition + whereKeyword.length))
        return .update table (.ofCondition assignment) (.ofCondition condition)
      else refuse (.usage .update)
  | _, _, _ => refuse (.usage .update)

def parseDelete (line : List Char) : Except Error Command := do
  match Text.position? fromKeyword line, Text.position? whereKeyword line with
  | some source, some condition =>
      let table ← tableBetween line (source + fromKeyword.length) condition
      let condition ← Condition.parse (line.drop (condition + whereKeyword.length))
      return .delete table (.ofCondition condition)
  | _, _ => refuse (.usage .delete)

/-- Read the command of a verb from a trimmed line. -/
def parseVerb (line : List Char) : Verb → Except Error Command
  | .createTable => parseCreateTable line
  | .dropTable => (parseTable line).map .dropTable
  | .listTables => parseBare line .listTables
  | .info => (parseTable line).map .info
  | .insert => parseInsert line
  | .select => parseSelect line
  | .update => parseUpdate line
  | .delete => parseDelete line
  | .help => parseBare line .help
  | .exit => parseBare line .exit

def parseTrimmed (line : List Char) : Except Error Command :=
  match Text.blankSeparated line with
  | [] => refuse .emptyCommand
  | first :: _ =>
      let word := String.ofList (Text.foldCase first)
      match Verb.ofWord? word with
      | none => .error (.unknownCommand word)
      | some verb => parseVerb line verb

def parse (line : String) : Except Error Command :=
  parseTrimmed (Text.trim line.toList)

end Command

end Tabula
