import Mathlib.Data.Finset.Sort
import Mathlib.Data.PNat.Basic
import Mathlib.Order.Lattice.Nat
import Tabula.Proofs.Run

/-!
# Databases as relations

The plain meaning of a database, without records and without their order. A table is a relation: its
columns, and a finite map from positive `ID`s to tuples, each the values of the data columns in
their order. A database lists its tables in the order of their creation. Commands are defined here
on such databases alone; what they answer is listed by increasing `ID`.
-/

namespace Tabula

/-- The values of the data columns, in their order. -/
abbrev Tuple := List Value

/-- A finite map from positive `ID`s to tuples. -/
@[ext]
structure Tuples where
  /-- The tuple under an `ID`. -/
  get? : ℕ+ → Option Tuple
  /-- The `ID`s under which there is a tuple. -/
  ids : Finset ℕ+
  mem_ids : ∀ id, id ∈ ids ↔ (get? id).isSome

namespace Tuples

def empty : Tuples :=
  ⟨fun _ => none, ∅, by simp⟩

/-- The map with a tuple under an `ID`. -/
def insert (tuples : Tuples) (id : ℕ+) (tuple : Tuple) : Tuples where
  get? := Function.update tuples.get? id (some tuple)
  ids := Insert.insert id tuples.ids
  mem_ids other := by
    rw [Finset.mem_insert, tuples.mem_ids]
    by_cases same : other = id
    · simp [same]
    · simp [same]

/-- The map with every tuple altered. -/
def map (change : ℕ+ → Tuple → Tuple) (tuples : Tuples) : Tuples where
  get? id := (tuples.get? id).map (change id)
  ids := tuples.ids
  mem_ids id := by simp [tuples.mem_ids]

/-- The map with only the tuples that pass a test. -/
def filter (keep : ℕ+ → Tuple → Bool) (tuples : Tuples) : Tuples where
  get? id := (tuples.get? id).filter (keep id)
  ids := tuples.ids.filter fun id => (tuples.get? id).any (keep id)
  mem_ids id := by
    rw [Finset.mem_filter, tuples.mem_ids]
    cases found : tuples.get? id <;> simp [Option.filter_some]

def size (tuples : Tuples) : ℕ :=
  tuples.ids.card

/-- The largest `ID` with a tuple, or 0. -/
def largestId (tuples : Tuples) : ℕ :=
  tuples.ids.sup fun id => (id : ℕ)

/-- The `ID`s with their tuples, by increasing `ID`. -/
def listed (tuples : Tuples) : List (ℕ+ × Tuple) :=
  tuples.ids.sort.filterMap fun id => (tuples.get? id).map (Prod.mk id)

end Tuples

/-- The largest `ID` there can be. -/
def maxId : ℕ :=
  2 ^ 63 - 1

/-- An `ID` as the integer that stands for it. -/
def idNumber (id : ℕ+) : Int64 :=
  Int64.ofNat id

/-- A table: its columns, and its tuples by `ID`. -/
structure Relation where
  schema : Schema
  tuples : Tuples

namespace Relation

variable (relation : Relation)

/-- The value of a tuple in a column. -/
def value? (id : ℕ+) (tuple : Tuple) (column : String) : Option Value :=
  if column = idColumn then some (.int (idNumber id))
  else OrderedMap.lookup column (relation.schema.dataColumns.keys.zip tuple)

/-- Whether a tuple has, in the column of every condition, that very value. -/
def satisfies (predicate : Predicate) (id : ℕ+) (tuple : Tuple) : Bool :=
  predicate.conditions.entries.all fun condition =>
    relation.value? id tuple condition.1 = some condition.2

/-- A tuple with the assigned components overwritten. -/
def overwrite (set : SetClause) (tuple : Tuple) : Tuple :=
  (relation.schema.dataColumns.keys.zip tuple).map fun component =>
    (set.assignments.get? component.1).getD component.2

/-- A tuple as a record: its `ID`, and then its values under the names of their columns. -/
def record (entry : ℕ+ × Tuple) : Record :=
  .ofList ((idColumn, .int (idNumber entry.1)) :: relation.schema.dataColumns.keys.zip entry.2)

/-- What a table has against an assignment: that the column is `ID`, or unknown, or of another
type. -/
def objection? (table : String) (assignment : String × Value) : Option Error :=
  if assignment.1 = idColumn then some (.readOnlyColumn assignment.1)
  else match relation.schema.columnType? assignment.1 with
    | none => some (.columnNotFound assignment.1 table)
    | some type =>
        if assignment.2.type = type then none
        else some (.typeMismatch assignment.1 type assignment.2)

/-- The relation with a new tuple, and its `ID`, which is one more than the largest. -/
def insert (values : Tuple) : Except Error (Relation × ℕ+) :=
  let columns := relation.schema.dataColumns.entries
  if values.length ≠ columns.length then .error (.arityMismatch columns.length values.length)
  else match (columns.zip values).find? fun component => component.2.type ≠ component.1.2 with
    | some ((column, type), value) => .error (.typeMismatch column type value)
    | none =>
        let largest := relation.tuples.largestId
        if maxId < largest + 1 then .error (.noIdLeft (Int64.ofNat largest))
        else .ok (⟨relation.schema, relation.tuples.insert largest.succPNat values⟩,
          largest.succPNat)

/-- The tuples that satisfy a predicate, or all of them. -/
def select : Option Predicate → Tuples
  | none => relation.tuples
  | some predicate => relation.tuples.filter (relation.satisfies predicate)

/-- The relation with the satisfying tuples overwritten. -/
def update (set : SetClause) (predicate : Predicate) : Relation :=
  ⟨relation.schema, relation.tuples.map fun id tuple =>
    if relation.satisfies predicate id tuple then relation.overwrite set tuple else tuple⟩

/-- The relation without the satisfying tuples. -/
def delete (predicate : Predicate) : Relation :=
  ⟨relation.schema, relation.tuples.filter fun id tuple => !relation.satisfies predicate id tuple⟩

/-- The `ID`s of the tuples that satisfy a predicate, increasing. -/
def matching (predicate : Predicate) : List Int64 :=
  (relation.select (some predicate)).listed.map fun entry => idNumber entry.1

end Relation

/-- The tables of a database, in the order of their creation. -/
abbrev Database := OrderedMap String Relation

namespace Database

variable (database : Database)

/-- Go on with a table, if there is one of that name. -/
def withTable (table : String) (next : Relation → Database × Except Error Answer) :
    Database × Except Error Answer :=
  match database.get? table with
  | none => (database, .error (.tableNotFound table))
  | some relation => next relation

def createTable (table : String) (definitions : List String) : Database × Except Error Answer :=
  if database.contains table then (database, .error (.tableAlreadyExists table))
  else if !validTableName table then (database, .error (.invalidSyntax (.tableName table)))
  else match Schema.idOnly.define definitions with
    | .error error => (database, .error error)
    | .ok schema => (database.insert table ⟨schema, .empty⟩, .ok (.created table schema))

/-- Run a command: the database afterwards, and the answer or the error. -/
def perform : Command → Database × Except Error Answer
  | .createTable table definitions => database.createTable table definitions
  | .dropTable table =>
      database.withTable table fun _ => (database.erase table, .ok (.dropped table))
  | .listTables => (database, .ok (.tables database.keys))
  | .info table =>
      database.withTable table fun relation =>
        (database, .ok (.info table relation.schema relation.tuples.size))
  | .insert table values =>
      database.withTable table fun relation =>
        match relation.insert values with
        | .error error => (database, .error error)
        | .ok (extended, id) =>
            (database.insert table extended, .ok (.inserted table (idNumber id)))
  | .select table predicate =>
      database.withTable table fun relation =>
        (database, .ok (.rows table relation.schema
          ((relation.select predicate).listed.map relation.record)))
  | .update table set predicate =>
      database.withTable table fun relation =>
        match set.assignments.entries.findSome? (relation.objection? table) with
        | some error => (database, .error error)
        | none =>
            (database.insert table (relation.update set predicate),
              .ok (.updated table (relation.matching predicate)))
  | .delete table predicate =>
      database.withTable table fun relation =>
        (database.insert table (relation.delete predicate),
          .ok (.deleted table (relation.matching predicate)))
  | .help => (database, .ok .help)
  | .exit => (database, .ok .exit)

/-- Take an input. A line that is no command is refused. -/
def take (input : Input) : Database × Except Error Answer :=
  match input.read with
  | .error error => (database, .error error)
  | .ok command => database.perform command

/-- Take inputs one after the other: the database at the end, and all answers. -/
def run (database : Database) : List Input → Database × List (Except Error Answer)
  | [] => (database, [])
  | input :: rest =>
      let (next, answer) := database.take input
      let (last, answers) := next.run rest
      (last, answer :: answers)

end Database

/-! ## Listing finite maps -/

namespace Tuples

variable {tuples : Tuples} {id : ℕ+} {tuple : Tuple}

theorem mem_listed : (id, tuple) ∈ tuples.listed ↔ tuples.get? id = some tuple := by
  simp only [listed, List.mem_filterMap, Finset.mem_sort, Option.map_eq_some_iff, Prod.mk.injEq]
  constructor
  · rintro ⟨other, -, found, held, rfl, rfl⟩
    exact held
  · intro held
    refine ⟨id, ?_, tuple, held, rfl, rfl⟩
    rw [tuples.mem_ids, held]
    rfl

theorem map_fst_listed (tuples : Tuples) : tuples.listed.map Prod.fst = tuples.ids.sort := by
  have present : ∀ id ∈ tuples.ids.sort, (tuples.get? id).isSome := by
    intro id id_mem
    rwa [← tuples.mem_ids, ← Finset.mem_sort (· ≤ ·)]
  rw [listed]
  generalize tuples.ids.sort = ids at present
  induction ids with
  | nil => rfl
  | cons id rest ih =>
      rcases Option.isSome_iff_exists.mp (present id List.mem_cons_self) with ⟨tuple, held⟩
      rw [List.filterMap_cons_some (by rw [held]; rfl), List.map_cons,
        ih fun other other_mem => present other (List.mem_cons_of_mem id other_mem)]

theorem pairwise_listed (tuples : Tuples) :
    tuples.listed.Pairwise fun left right => left.1 < right.1 := by
  have increasing := tuples.ids.sortedLT_sort.pairwise
  rwa [← map_fst_listed, List.pairwise_map] at increasing

theorem length_listed (tuples : Tuples) : tuples.listed.length = tuples.size := by
  rw [← List.length_map Prod.fst, map_fst_listed, Finset.length_sort, size]

/-- Only one list shows a finite map by increasing `ID`. -/
theorem listed_eq_of {entries : List (ℕ+ × Tuple)}
    (increasing : entries.Pairwise fun left right => left.1 < right.1)
    (shows : ∀ id tuple, (id, tuple) ∈ entries ↔ tuples.get? id = some tuple) :
    tuples.listed = entries := by
  have distinct : ∀ {list : List (ℕ+ × Tuple)},
      list.Pairwise (fun left right => left.1 < right.1) → list.Nodup := by
    intro list ordered
    refine ordered.imp ?_
    rintro left right less rfl
    exact lt_irrefl _ less
  have sameEntries : tuples.listed.Perm entries := by
    rw [List.perm_ext_iff_of_nodup (distinct tuples.pairwise_listed) (distinct increasing)]
    rintro ⟨id, tuple⟩
    rw [mem_listed, shows]
  refine sameEntries.eq_of_pairwise ?_ tuples.pairwise_listed increasing
  intro left right _ _ less greater
  exact absurd (less.trans greater) (lt_irrefl _)

theorem listed_empty : empty.listed = [] := by
  simp [listed, empty]

theorem listed_insert (above : ∀ other ∈ tuples.ids, other < id) :
    (tuples.insert id tuple).listed = tuples.listed ++ [(id, tuple)] := by
  apply listed_eq_of
  · rw [List.pairwise_append]
    refine ⟨tuples.pairwise_listed, List.pairwise_singleton _ _, ?_⟩
    rintro ⟨other, held⟩ other_mem _ last_mem
    rw [List.mem_singleton.mp last_mem]
    apply above
    rw [tuples.mem_ids, mem_listed.mp other_mem]
    rfl
  · intro other held
    have fresh : id ∉ tuples.ids := fun id_mem => lt_irrefl _ (above id id_mem)
    rw [List.mem_append, mem_listed, List.mem_singleton, Prod.mk.injEq, insert]
    by_cases same : other = id
    · subst same
      rw [tuples.mem_ids, Option.not_isSome_iff_eq_none] at fresh
      simp [fresh, eq_comm]
    · simp [same]

theorem listed_map (change : ℕ+ → Tuple → Tuple) (tuples : Tuples) :
    (tuples.map change).listed =
      tuples.listed.map fun entry => (entry.1, change entry.1 entry.2) := by
  apply listed_eq_of
  · rw [List.pairwise_map]
    exact tuples.pairwise_listed
  · intro id tuple
    simp only [List.mem_map, Prod.mk.injEq, map, Option.map_eq_some_iff]
    constructor
    · rintro ⟨⟨other, old⟩, old_mem, rfl, rfl⟩
      exact ⟨old, mem_listed.mp old_mem, rfl⟩
    · rintro ⟨old, held, rfl⟩
      exact ⟨(id, old), mem_listed.mpr held, rfl, rfl⟩

theorem listed_filter (keep : ℕ+ → Tuple → Bool) (tuples : Tuples) :
    (tuples.filter keep).listed = tuples.listed.filter fun entry => keep entry.1 entry.2 := by
  apply listed_eq_of
  · exact tuples.pairwise_listed.filter _
  · intro id tuple
    rw [List.mem_filter, mem_listed, filter, Option.filter_eq_some_iff]

/-! ## The largest `ID` -/

theorem le_largestId (id_mem : id ∈ tuples.ids) : (id : ℕ) ≤ tuples.largestId :=
  Finset.le_sup (f := fun id : ℕ+ => (id : ℕ)) id_mem

theorem exists_largestId (some_mem : tuples.ids.Nonempty) :
    ∃ id ∈ tuples.ids, tuples.largestId = id := by
  rcases Finset.exists_mem_eq_sup tuples.ids some_mem fun id : ℕ+ => (id : ℕ) with
    ⟨id, id_mem, largest⟩
  exact ⟨id, id_mem, largest⟩

end Tuples

end Tabula
