import Tabula.Command.Parser
import Tabula.Proofs.Engine

/-!
# Why commands are refused

A line that is no command is refused for its syntax. Over tables whose records load and are valid,
a command is refused for what it asks for and never for what is stored. Both are said by the kinds
of the errors that a result can have.
-/

namespace Tabula

/-- A result that fails, if it does, with an error of one of the kinds allowed. -/
def FailsOnlyWith {α : Type} (allowed : ErrorKind → Prop) (result : Except Error α) : Prop :=
  ∀ error, result = .error error → allowed error.kind

namespace FailsOnlyWith

variable {α β : Type} {allowed : ErrorKind → Prop}

theorem of_ok (value : α) : FailsOnlyWith allowed (.ok value : Except Error α) := by
  intro error failed
  cases failed

theorem of_error {error : Error} (expected : allowed error.kind) :
    FailsOnlyWith allowed (.error error : Except Error α) := by
  intro other failed
  cases failed
  exact expected

theorem bind {result : Except Error α} {next : α → Except Error β}
    (first : FailsOnlyWith allowed result) (second : ∀ value, FailsOnlyWith allowed (next value)) :
    FailsOnlyWith allowed (result >>= next) := by
  cases result with
  | error error => exact of_error (first error rfl)
  | ok value => exact second value

theorem map {result : Except Error α} {f : α → β} (first : FailsOnlyWith allowed result) :
    FailsOnlyWith allowed (result.map f) := by
  cases result with
  | error error => exact of_error (first error rfl)
  | ok value => exact of_ok (f value)

theorem completed {State : Type} {attempt : State × Except Error α}
    (answered : FailsOnlyWith allowed attempt.2) : FailsOnlyWith allowed (completed attempt) :=
  fun error failed => answered error (completed_eq_error_iff.mp failed)

end FailsOnlyWith

open FailsOnlyWith

/-! ## Lines -/

/-- A result that fails, if it does, for reasons of syntax. -/
abbrev FailsOnSyntax {α : Type} (result : Except Error α) : Prop :=
  FailsOnlyWith (· = .invalidSyntax) result

theorem failsOnSyntax_refuse {α : Type} (fault : SyntaxFault) :
    FailsOnSyntax (refuse fault : Except Error α) :=
  of_error rfl

theorem Condition.failsOnSyntax_parse (text : List Char) : FailsOnSyntax (parse text) := by
  unfold parse
  split
  · exact failsOnSyntax_refuse _
  · dsimp only
    split
    · exact failsOnSyntax_refuse _
    · split
      · exact failsOnSyntax_refuse _
      · exact of_ok _

namespace Command

variable (line : List Char)

theorem failsOnSyntax_part (start stop : Nat) : FailsOnSyntax (part line start stop) := by
  unfold part
  split
  · exact of_ok _
  · exact failsOnSyntax_refuse _

theorem failsOnSyntax_tableBetween (start stop : Nat) :
    FailsOnSyntax (tableBetween line start stop) := by
  unfold tableBetween
  split
  · rename_i error failed
    exact of_error (failsOnSyntax_part line start stop error failed)
  · dsimp only
    split
    · exact failsOnSyntax_refuse _
    · exact of_ok _

theorem failsOnSyntax_parseValuesFrom (place : Nat) (texts : List (List Char)) :
    FailsOnSyntax (parseValuesFrom place texts) := by
  induction texts generalizing place with
  | nil => exact of_ok []
  | cons text rest ih =>
      unfold parseValuesFrom
      split
      · exact failsOnSyntax_refuse _
      · exact (ih _).map

theorem failsOnSyntax_parseValues (text : List Char) : FailsOnSyntax (parseValues text) := by
  unfold parseValues
  split
  · exact failsOnSyntax_refuse _
  · split
    · exact failsOnSyntax_refuse _
    · split
      · exact of_ok _
      · exact failsOnSyntax_parseValuesFrom _ _

theorem failsOnSyntax_quotedWords : FailsOnSyntax (quotedWords line) := by
  unfold quotedWords
  split
  · exact of_ok _
  · exact failsOnSyntax_refuse _

theorem failsOnSyntax_parseTable : FailsOnSyntax (parseTable line) := by
  refine (failsOnSyntax_quotedWords line).bind fun words => ?_
  split
  · exact of_ok _
  · exact failsOnSyntax_refuse _
  · exact failsOnSyntax_refuse _

theorem failsOnSyntax_parseBare (command : Command) : FailsOnSyntax (parseBare line command) := by
  unfold parseBare
  split
  · exact failsOnSyntax_refuse _
  · exact of_ok _

theorem failsOnSyntax_parseCreateTable : FailsOnSyntax (parseCreateTable line) := by
  refine (failsOnSyntax_quotedWords line).bind fun words => ?_
  split
  · exact of_ok _
  · exact failsOnSyntax_refuse _

theorem failsOnSyntax_parseInsert : FailsOnSyntax (parseInsert line) := by
  unfold parseInsert
  split
  · refine (failsOnSyntax_tableBetween line _ _).bind fun table => ?_
    exact (failsOnSyntax_parseValues _).bind fun values => of_ok _
  · exact failsOnSyntax_refuse _

theorem failsOnSyntax_parseSelect : FailsOnSyntax (parseSelect line) := by
  unfold parseSelect
  split
  · exact failsOnSyntax_refuse _
  · split
    · exact (failsOnSyntax_tableBetween line _ _).bind fun table => of_ok _
    · refine (failsOnSyntax_tableBetween line _ _).bind fun table => ?_
      exact (Condition.failsOnSyntax_parse _).bind fun condition => of_ok _

theorem failsOnSyntax_parseUpdate : FailsOnSyntax (parseUpdate line) := by
  unfold parseUpdate
  split
  · split
    · refine (failsOnSyntax_tableBetween line _ _).bind fun table => ?_
      refine (failsOnSyntax_part line _ _).bind fun text => ?_
      refine (Condition.failsOnSyntax_parse text).bind fun assignment => ?_
      exact (Condition.failsOnSyntax_parse _).bind fun condition => of_ok _
    · exact failsOnSyntax_refuse _
  · exact failsOnSyntax_refuse _

theorem failsOnSyntax_parseDelete : FailsOnSyntax (parseDelete line) := by
  unfold parseDelete
  split
  · refine (failsOnSyntax_tableBetween line _ _).bind fun table => ?_
    exact (Condition.failsOnSyntax_parse _).bind fun condition => of_ok _
  · exact failsOnSyntax_refuse _

theorem failsOnSyntax_parseVerb (verb : Verb) : FailsOnSyntax (parseVerb line verb) := by
  cases verb with
  | createTable => exact failsOnSyntax_parseCreateTable line
  | dropTable | info => exact (failsOnSyntax_parseTable line).map
  | listTables | help | exit => exact failsOnSyntax_parseBare line _
  | insert => exact failsOnSyntax_parseInsert line
  | select => exact failsOnSyntax_parseSelect line
  | update => exact failsOnSyntax_parseUpdate line
  | delete => exact failsOnSyntax_parseDelete line

/-- A line that is no command is refused for its syntax. -/
theorem failsOnSyntax_parse (text : String) : FailsOnSyntax (parse text) := by
  unfold parse parseTrimmed
  split
  · exact failsOnSyntax_refuse _
  · dsimp only
    split
    · exact of_error rfl
    · exact failsOnSyntax_parseVerb _ _

end Command

/-! ## Commands -/

/-- A result that fails, if it does, for other reasons than what is stored. -/
abbrev FailsOffStorage {α : Type} (result : Except Error α) : Prop :=
  FailsOnlyWith (· ≠ .storage) result

theorem Schema.failsOffStorage_define (schema : Schema) (definitions : List String) :
    FailsOffStorage (schema.define definitions) := by
  induction definitions generalizing schema with
  | nil => exact of_ok schema
  | cons definition rest ih =>
      have refused : FailsOffStorage (columnDefinition definition) := by
        unfold columnDefinition
        repeat' split
        all_goals first | exact of_ok _ | exact of_error (by simp [Error.kind])
      rw [define]
      split
      · rename_i error failed
        exact of_error (refused error failed)
      · split
        · exact ih schema
        · unfold addColumn
          cases schema.addColumn? _ _ with
          | none => exact of_error (by simp [Error.kind])
          | some extended => exact ih extended

theorem Catalog.failsOffStorage_table (catalog : Catalog) (name : String) :
    FailsOffStorage (catalog.table name) := by
  rw [table]
  cases catalog.get? name with
  | none => exact of_error (by simp [Error.kind])
  | some schema => exact of_ok schema

theorem Catalog.failsOffStorage_createTable (catalog : Catalog) (name : String)
    (definitions : List String) : FailsOffStorage (catalog.createTable name definitions) := by
  refine FailsOnlyWith.completed ?_
  unfold attemptCreate
  split
  · exact of_error (by simp [Error.kind])
  · split
    · exact of_error (by simp [Error.kind])
    · have defined := Schema.failsOffStorage_define .idOnly definitions
      split
      · rename_i error failed
        exact of_error (defined error failed)
      · exact of_ok _

theorem Catalog.failsOffStorage_dropTable (catalog : Catalog) (name : String) :
    FailsOffStorage (catalog.dropTable name) :=
  FailsOnlyWith.completed (catalog.failsOffStorage_table name)

theorem Store.failsOffStorage_insert (store : Store) (schema : Schema) (values : List Value) :
    FailsOffStorage (store.insert schema values) := by
  have identified : FailsOffStorage store.nextId := by
    unfold nextId
    repeat' split
    all_goals first | exact of_ok _ | exact of_error (by simp [Error.kind])
  refine FailsOnlyWith.completed ?_
  unfold attemptInsert
  split
  · exact of_error (by simp [Error.kind])
  · split
    · exact of_error (by simp [Error.kind])
    · split
      · rename_i error failed
        exact of_error (identified error failed)
      · exact of_ok _

theorem failsOffStorage_assignments (table : String) (schema : Schema)
    (assignments : List (String × Value)) {error : Error}
    (refused : assignmentError? table schema assignments = some error) : error.kind ≠ .storage := by
  induction assignments with
  | nil => simp [assignmentError?] at refused
  | cons assignment rest ih =>
      unfold assignmentError? at refused
      repeat' split at refused
      all_goals first | exact ih refused | (cases refused; simp [Error.kind])

theorem SetClause.failsOffStorage_check (set : SetClause) (table : String) (schema : Schema) :
    FailsOffStorage (set.check table schema) := by
  unfold check
  split
  · exact of_ok _
  · rename_i error refused
    exact of_error (failsOffStorage_assignments table schema _ refused)

namespace Engine

/-- Over tables whose records load and are valid, no command fails for what is stored. -/
theorem failsOffStorage_execute {catalog : Catalog} {loader : Loader}
    (loads : ∀ {table : String} {schema : Schema}, catalog.get? table = some schema →
      ∃ store, loadValid loader table schema = .ok store) (command : Command) :
    FailsOffStorage (execute catalog loader command) := by
  have known := catalog.failsOffStorage_table
  cases command with
  | createTable table definitions =>
      simp only [execute, createTable]
      split
      · rename_i error failed
        exact of_error (catalog.failsOffStorage_createTable table definitions error failed)
      · exact of_ok _
  | dropTable table =>
      simp only [execute, dropTable]
      split
      · rename_i error failed
        exact of_error (catalog.failsOffStorage_dropTable table error failed)
      · exact of_ok _
  | listTables | help | exit => exact of_ok _
  | info table =>
      simp only [execute, info]
      cases found : catalog.table table with
      | error error => exact of_error (known table error found)
      | ok schema =>
          rcases loads (Catalog.table_eq_ok_iff.mp found) with ⟨store, loaded⟩
          simp only [loaded]
          split <;> exact of_ok _
  | insert table values =>
      simp only [execute, insert]
      cases found : catalog.table table with
      | error error => exact of_error (known table error found)
      | ok schema =>
          rcases loads (Catalog.table_eq_ok_iff.mp found) with ⟨store, loaded⟩
          simp only [loaded]
          cases inserted : store.insert schema values with
          | error error =>
              exact of_error (store.failsOffStorage_insert schema values error inserted)
          | ok result => exact of_ok _
  | select table predicate =>
      simp only [execute, select]
      cases found : catalog.table table with
      | error error => exact of_error (known table error found)
      | ok schema =>
          rcases loads (Catalog.table_eq_ok_iff.mp found) with ⟨store, loaded⟩
          simp only [loaded]
          exact of_ok _
  | update table set predicate =>
      simp only [execute, update]
      cases found : catalog.table table with
      | error error => exact of_error (known table error found)
      | ok schema =>
          rcases loads (Catalog.table_eq_ok_iff.mp found) with ⟨store, loaded⟩
          simp only [loaded]
          cases checked : set.check table schema with
          | error error => exact of_error (set.failsOffStorage_check table schema error checked)
          | ok allowed => exact of_ok _
  | delete table predicate =>
      simp only [execute, delete]
      cases found : catalog.table table with
      | error error => exact of_error (known table error found)
      | ok schema =>
          rcases loads (Catalog.table_eq_ok_iff.mp found) with ⟨store, loaded⟩
          simp only [loaded]
          exact of_ok _

end Engine

end Tabula
