import Tabula.Clause

/-!
# The select cache

The records that selects returned, by what was selected. Everything kept for a table is forgotten
together.
-/

namespace Tabula

/-- What a select asks for. -/
structure Selection where
  table : String
  predicate : Option Predicate
deriving DecidableEq

/-- The records kept for selections. -/
@[ext]
structure SelectCache where
  /-- The selections, oldest first, with their records. -/
  entries : OrderedMap Selection (List Record)
deriving DecidableEq

namespace SelectCache

def empty : SelectCache :=
  ⟨∅⟩

def size (cache : SelectCache) : Nat :=
  cache.entries.size

def isEmpty (cache : SelectCache) : Bool :=
  cache.entries.isEmpty

def get? (cache : SelectCache) (selection : Selection) : Option (List Record) :=
  cache.entries.get? selection

def insert (cache : SelectCache) (selection : Selection) (records : List Record) : SelectCache :=
  ⟨cache.entries.insert selection records⟩

/-- Forget every selection from a table. -/
def invalidate (cache : SelectCache) (table : String) : SelectCache :=
  ⟨cache.entries.filter fun selection _ => selection.table ≠ table⟩

def clear (_ : SelectCache) : SelectCache :=
  empty

end SelectCache

end Tabula
