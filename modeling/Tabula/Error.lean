import Tabula.Schema
import Tabula.Text.Words
import Tabula.Value
import Tabula.Verb

/-!
# Errors

Every way in which a command, a document or a configuration can be refused, as a cause. The text a
user reads is made from the cause in one place, `Error.message`, and each cause belongs to one of
seven kinds.
-/

namespace Tabula

/-- Why a line is not a command, or a name or definition in it is not well formed. -/
inductive SyntaxFault
  | emptyCommand
  /-- Something follows a verb that stands alone. -/
  | takesNoArguments (verb : Verb)
  /-- A table is to be created without a name or without columns. -/
  | insufficientArguments
  | missingTable
  /-- More than a table name follows the verb. -/
  | notOneTable
  /-- A keyword of the command is missing. -/
  | usage (verb : Verb)
  /-- A part of the command would end before it starts. -/
  | keywordOrder
  | noEquals (text : String)
  | missingColumn
  | missingValue (column : String)
  /-- The values of an insert are not in parentheses. -/
  | unwrappedValues
  /-- A parenthesis among the values of an insert. -/
  | nestedParentheses
  /-- A blank value of an insert, counted from one. -/
  | emptyValue (place : Nat)
  /-- A table name that cannot name a file. -/
  | tableName (name : String)
  /-- A column definition that is not a name, a colon and a type. -/
  | columnDefinition (definition : String)
  /-- The words of the line cannot be told. -/
  | words (fault : Text.WordFault)
deriving DecidableEq

namespace SyntaxFault

def wordMessage : Text.WordFault → String
  | .unclosedQuote position =>
      "no closing quotation for quote at position " ++ toString position
  | .danglingEscape => "no character after escape"

def message : SyntaxFault → String
  | .emptyCommand => "empty command"
  | .takesNoArguments verb => verb.word ++ " takes no arguments"
  | .insufficientArguments => "insufficient arguments (usage: " ++ Verb.createTable.usage ++ ")"
  | .missingTable => "table name is missing"
  | .notOneTable => "expected exactly one table name"
  | .usage verb => "usage: " ++ verb.usage
  | .keywordOrder => "keywords are out of order"
  | .noEquals text => "expected <column> = <value>, got \"" ++ text ++ "\""
  | .missingColumn => "condition is missing a column name"
  | .missingValue column => "condition on \"" ++ column ++ "\" is missing a value"
  | .unwrappedValues => "values must be wrapped in parentheses"
  | .nestedParentheses => "nested parentheses are not supported"
  | .emptyValue place => "value " ++ toString place ++ " is empty"
  | .tableName name => "invalid table name \"" ++ name ++ "\""
  | .columnDefinition definition =>
      "invalid column definition \"" ++ definition ++ "\" (expected name:type)"
  | .words fault => wordMessage fault

end SyntaxFault

/-- Why the records of a table are not what its schema says. -/
inductive Corruption
  /-- The record at a place, counted from one, does not fit the schema. -/
  | mismatch (place : Nat) (schema : Schema)
  | notPositive (id : Int64)
  | repeated (id : Int64)
  /-- The record at a place, counted from one, has no integer `ID`. -/
  | missingId (place : Nat)
deriving DecidableEq

def Corruption.message : Corruption → String
  | .mismatch place schema =>
      "record " ++ toString place ++ " does not match columns " ++ schema.describe
  | .notPositive id => "ID " ++ (Value.int id).display ++ " is not positive"
  | .repeated id => "ID " ++ (Value.int id).display ++ " appears more than once"
  | .missingId place => "record " ++ toString place ++ " has no ID"

/-- Why a file cannot be read, written or removed. -/
inductive FileFault
  /-- Nothing has that name, or a directory on the way to it is missing. -/
  | notFound
  | notADirectory
  | isADirectory
  | alreadyExists
  | nameTooLong
  /-- The name holds the character NUL. -/
  | invalidName
  | invalidText
deriving DecidableEq, Repr

def FileFault.message : FileFault → String
  | .notFound => "no such file or directory"
  | .notADirectory => "not a directory"
  | .isADirectory => "is a directory"
  | .alreadyExists => "file exists"
  | .nameTooLong => "file name too long"
  | .invalidName => "file name contains NUL"
  | .invalidText => "stream did not contain valid UTF-8"

/-- Why a document is not what it should be. -/
inductive DocumentFault
  /-- It is not JSON of the right shape. -/
  | malformed
  /-- A schema in it does not start with `ID` of type `int`. -/
  | schemaWithoutId
deriving DecidableEq, Repr

def DocumentFault.message : DocumentFault → String
  | .malformed => "malformed document"
  | .schemaWithoutId => "schema must start with ID:int"

/-- Why a configuration is refused. -/
inductive ConfigFault
  | unreadable
  | emptyMetaPath
  | emptyDataDir
  | emptyLogLevel
deriving DecidableEq, Repr

def ConfigFault.message : ConfigFault → String
  | .unreadable => "unreadable"
  | .emptyMetaPath => "meta_path cannot be empty"
  | .emptyDataDir => "data_dir cannot be empty"
  | .emptyLogLevel => "log_level cannot be empty"

inductive Error
  | tableNotFound (table : String)
  | columnNotFound (column table : String)
  | tableAlreadyExists (table : String)
  | duplicateColumn (column : String)
  | unknownType (name : String)
  | typeMismatch (column : String) (expected : ColumnType) (value : Value)
  | invalidSyntax (fault : SyntaxFault)
  | unknownCommand (verb : String)
  | readOnlyColumn (column : String)
  | arityMismatch (expected found : Nat)
  | file (fault : FileFault)
  | document (fault : DocumentFault)
  | corruptTable (table : String) (corruption : Corruption)
  | config (fault : ConfigFault)
  /-- The largest `ID` in use is the largest there is. -/
  | noIdLeft (largest : Int64)
deriving DecidableEq

/-- The kinds of error told apart for the user. -/
inductive ErrorKind
  | notFound
  | duplicateName
  | invalidType
  | invalidSyntax
  | arityMismatch
  | storage
  | internal
deriving DecidableEq, Repr

namespace Error

def kind : Error → ErrorKind
  | .tableNotFound _ | .columnNotFound _ _ => .notFound
  | .tableAlreadyExists _ | .duplicateColumn _ => .duplicateName
  | .unknownType _ | .typeMismatch _ _ _ => .invalidType
  | .invalidSyntax _ | .unknownCommand _ | .readOnlyColumn _ => .invalidSyntax
  | .arityMismatch _ _ => .arityMismatch
  | .file _ | .document _ | .corruptTable _ _ => .storage
  | .config _ | .noIdLeft _ => .internal

def message : Error → String
  | .tableNotFound table => "Table \"" ++ table ++ "\" does not exist"
  | .columnNotFound column table =>
      "Column \"" ++ column ++ "\" does not exist in table \"" ++ table ++ "\""
  | .tableAlreadyExists table => "Table \"" ++ table ++ "\" already exists"
  | .duplicateColumn column => "Column \"" ++ column ++ "\" is defined more than once"
  | .unknownType name => "Invalid type: " ++ name ++ " (expected int, str or bool)"
  | .typeMismatch column expected value =>
      "Invalid value " ++ value.display ++ " for column \"" ++ column ++ "\" (expected " ++
        expected.name ++ ")"
  | .invalidSyntax fault => "Invalid syntax: " ++ fault.message
  | .unknownCommand verb =>
      "Unknown command: " ++ verb ++ ". Type 'help' for available commands"
  | .readOnlyColumn column => "Column \"" ++ column ++ "\" cannot be updated"
  | .arityMismatch expected found =>
      "Expected " ++ toString expected ++ " values, got " ++ toString found
  | .file fault => "I/O error: " ++ fault.message
  | .document fault => "Serialization error: " ++ fault.message
  | .corruptTable table corruption =>
      "Records of table \"" ++ table ++ "\" are corrupt: " ++ corruption.message
  | .config fault => "Configuration error: " ++ fault.message
  | .noIdLeft largest => "Internal error: no ID left after " ++ (Value.int largest).display

end Error

/-- What comes of an attempt to change a state, if what a failed attempt leaves is given up. -/
def completed {State α : Type} : State × Except Error α → Except Error (State × α)
  | (_, .error error) => .error error
  | (state, .ok value) => .ok (state, value)

section

variable {State α : Type} {attempt : State × Except Error α}

theorem completed_eq_ok_iff {state : State} {value : α} :
    completed attempt = .ok (state, value) ↔ attempt = (state, .ok value) := by
  rcases attempt with ⟨left, _ | given⟩
  · simp [completed]
  · simp [completed]

theorem completed_eq_error_iff {error : Error} :
    completed attempt = .error error ↔ attempt.2 = .error error := by
  rcases attempt with ⟨left, _ | given⟩
  · simp [completed]
  · simp [completed]

end

end Tabula
