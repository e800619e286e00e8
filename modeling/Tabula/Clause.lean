import Tabula.Record

/-!
# Where and set clauses

Both list columns with values, each column once; a column given again takes the new value in its
old place. A predicate accepts the records that hold all its values. A set clause overwrites the
columns it lists.
-/

namespace Tabula

structure Condition where
  column : String
  value : Value
deriving DecidableEq

def Condition.display (condition : Condition) : String :=
  condition.column ++ " = " ++ condition.value.displayQuoted

/-- A conjunction of equality tests. -/
@[ext]
structure Predicate where
  /-- The value asked of each tested column. -/
  conditions : OrderedMap String Value
deriving DecidableEq

namespace Predicate

/-- The predicate that accepts every record. -/
def always : Predicate :=
  ⟨∅⟩

/-- The predicate of one condition. -/
def ofCondition (condition : Condition) : Predicate :=
  ⟨.single condition.column condition.value⟩

/-- Ask also for a value in a column, in place of one asked for before. -/
def and (predicate : Predicate) (column : String) (value : Value) : Predicate :=
  ⟨predicate.conditions.insert column value⟩

/-- Whether a record holds every value asked for. A missing column holds none. -/
def accepts (predicate : Predicate) (record : Record) : Bool :=
  predicate.conditions.entries.all fun entry => record.get? entry.1 == some entry.2

def display (predicate : Predicate) : String :=
  " and ".intercalate
    (predicate.conditions.entries.map fun entry => Condition.display ⟨entry.1, entry.2⟩)

end Predicate

/-- The columns that an update overwrites, with their new values. -/
@[ext]
structure SetClause where
  /-- The new value of each column. -/
  assignments : OrderedMap String Value
deriving DecidableEq

namespace SetClause

/-- The clause that overwrites nothing. -/
def nothing : SetClause :=
  ⟨∅⟩

/-- The clause of one assignment. -/
def ofCondition (assignment : Condition) : SetClause :=
  ⟨.single assignment.column assignment.value⟩

/-- Overwrite also a column, in place of what it was given before. -/
def assign (clause : SetClause) (column : String) (value : Value) : SetClause :=
  ⟨clause.assignments.insert column value⟩

/-- The record with the clause's columns overwritten; columns it lacks are added at its end. -/
def apply (clause : SetClause) (record : Record) : Record :=
  clause.assignments.entries.foldl (fun record entry => record.insert entry.1 entry.2) record

end SetClause

end Tabula
