import Mathlib.Data.List.Perm.Subperm
import Tabula.Engine

/-!
# Records that fit a schema

A record is accepted by counting its columns and looking each of them up in the schema. Since
neither side repeats a column, this decides whether both have the same columns. A set clause that
a table allows keeps a record's columns, its `ID` and its fit; a record made from as many values
as there are data columns, each of the type of its column, fits.
-/

namespace Tabula

namespace Record

variable {record : Record} {schema : Schema}

theorem conforms_iff :
    record.conforms schema = true ↔ record.keys.Perm schema.names ∧
      ∀ entry ∈ record.entries, schema.columnType? entry.1 = some entry.2.type := by
  simp only [conforms, Bool.and_eq_true, beq_iff_eq, List.all_eq_true]
  constructor
  · rintro ⟨sameSize, typed⟩
    refine ⟨?_, typed⟩
    have included : record.keys ⊆ schema.names := by
      intro column column_mem
      rcases List.mem_map.mp column_mem with ⟨entry, entry_mem, rfl⟩
      exact OrderedMap.mem_keys_iff.mpr ⟨_, typed entry entry_mem⟩
    apply (List.subperm_of_subset record.nodup included).perm_of_length_le
    simp only [Schema.names, OrderedMap.keys, List.length_map]
    exact Nat.le_of_eq sameSize.symm
  · rintro ⟨sameColumns, typed⟩
    refine ⟨?_, typed⟩
    have sameLength := sameColumns.length_eq
    simpa [Schema.names, OrderedMap.keys, OrderedMap.size] using sameLength

theorem keys_perm_of_conforms (conforms : record.conforms schema = true) :
    record.keys.Perm schema.names :=
  (conforms_iff.mp conforms).1

theorem type_of_conforms (conforms : record.conforms schema = true) {column : String}
    {value : Value} (held : record.get? column = some value) :
    schema.columnType? column = some value.type :=
  (conforms_iff.mp conforms).2 (column, value) (OrderedMap.get?_eq_some_iff.mp held)

/-- A record that fits holds a value of the right type in each of the schema's columns. -/
theorem get?_of_conforms (conforms : record.conforms schema = true) {column : String}
    {type : ColumnType} (known : schema.columnType? column = some type) :
    ∃ value, record.get? column = some value ∧ value.type = type := by
  have column_mem : column ∈ schema.names := OrderedMap.mem_keys_iff.mpr ⟨type, known⟩
  have held := (keys_perm_of_conforms conforms).mem_iff.mpr column_mem
  rcases OrderedMap.mem_keys_iff.mp held with ⟨value, held⟩
  refine ⟨value, held, ?_⟩
  have typed := type_of_conforms conforms held
  rw [known, Option.some.injEq] at typed
  exact typed.symm

theorem exists_id_of_conforms (conforms : record.conforms schema = true) :
    ∃ id, record.id? = some id := by
  have known : schema.columnType? idColumn = some .int := by
    simp [Schema.columnType?, Schema.columns, OrderedMap.get?, OrderedMap.lookup]
  rcases get?_of_conforms conforms known with ⟨value, held, typed⟩
  cases value with
  | int number => exact ⟨number, by simp [id?, held, Value.int?]⟩
  | str text => simp [Value.type] at typed
  | bool truth => simp [Value.type] at typed

end Record

theorem assignmentError?_eq_none_iff {table : String} {schema : Schema}
    {assignments : List (String × Value)} :
    assignmentError? table schema assignments = none ↔
      ∀ assignment ∈ assignments, assignment.1 ≠ idColumn ∧
        schema.columnType? assignment.1 = some assignment.2.type := by
  induction assignments with
  | nil => simp [assignmentError?]
  | cons assignment rest ih =>
      obtain ⟨column, value⟩ := assignment
      rw [List.forall_mem_cons, ← ih, assignmentError?]
      by_cases id : column = idColumn
      · simp [id]
      · rw [if_neg id]
        cases known : schema.columnType? column with
        | none => simp
        | some type =>
            by_cases typed : value.type = type
            · simp [typed, id]
            · simp [typed, Ne.symm typed]

namespace SetClause

variable {set : SetClause} {record : Record} {schema : Schema} {table : String}

theorem check_eq_ok_iff :
    set.check table schema = .ok () ↔
      ∀ assignment ∈ set.assignments.entries, assignment.1 ≠ idColumn ∧
        schema.columnType? assignment.1 = some assignment.2.type := by
  rw [← @assignmentError?_eq_none_iff table, check]
  cases assignmentError? table schema set.assignments.entries <;> simp

theorem get?_apply (set : SetClause) (record : Record) (column : String) :
    (set.apply record).get? column = (set.assignments.get? column).or (record.get? column) :=
  record.get?_foldl_insert set.assignments.nodup column

theorem id?_apply (readOnly : set.assignments.get? idColumn = none) :
    (set.apply record).id? = record.id? := by
  simp [Record.id?, get?_apply, readOnly]

/-- A set clause that a table allows does not assign `ID`. -/
theorem get?_idColumn_of_check (allowed : set.check table schema = .ok ()) :
    set.assignments.get? idColumn = none := by
  rw [OrderedMap.get?_eq_none_iff]
  intro id_mem
  rcases List.mem_map.mp id_mem with ⟨assignment, assignment_mem, equal⟩
  exact (check_eq_ok_iff.mp allowed assignment assignment_mem).1 equal

theorem id?_apply_of_check (allowed : set.check table schema = .ok ()) :
    (set.apply record).id? = record.id? :=
  id?_apply (get?_idColumn_of_check allowed)

/-- A set clause that a table allows keeps the columns of a record that fits. -/
theorem keys_apply (allowed : set.check table schema = .ok ())
    (conforms : record.conforms schema = true) : (set.apply record).keys = record.keys := by
  apply record.keys_foldl_insert_of_mem
  intro assignment assignment_mem
  have known := (check_eq_ok_iff.mp allowed assignment assignment_mem).2
  rcases Record.get?_of_conforms conforms known with ⟨value, held, -⟩
  exact OrderedMap.mem_keys_iff.mpr ⟨value, held⟩

theorem conforms_apply (allowed : set.check table schema = .ok ())
    (conforms : record.conforms schema = true) : (set.apply record).conforms schema = true := by
  rw [Record.conforms_iff, keys_apply allowed conforms]
  refine ⟨Record.keys_perm_of_conforms conforms, ?_⟩
  rintro ⟨column, value⟩ entry_mem
  have held := OrderedMap.get?_eq_some_iff.mpr entry_mem
  rw [get?_apply] at held
  cases assigned : set.assignments.get? column with
  | none =>
      rw [assigned, Option.none_or] at held
      exact Record.type_of_conforms conforms held
  | some newValue =>
      rw [assigned, Option.some_or, Option.some.injEq] at held
      subst held
      exact (check_eq_ok_iff.mp allowed _ (OrderedMap.get?_eq_some_iff.mp assigned)).2

end SetClause

namespace Store

theorem firstMismatch?_eq_none_iff {columns : List (String × ColumnType)} {values : List Value}
    (sameLength : values.length = columns.length) :
    firstMismatch? columns values = none ↔ values.map Value.type = columns.map Prod.snd := by
  induction columns generalizing values with
  | nil =>
      rw [List.length_nil, List.length_eq_zero_iff] at sameLength
      simp [sameLength, firstMismatch?]
  | cons column rest ih =>
      obtain ⟨name, type⟩ := column
      cases values with
      | nil => simp at sameLength
      | cons value values =>
          have restLength : values.length = rest.length := by simpa using sameLength
          by_cases typed : value.type = type
          · simp [firstMismatch?, typed, ih restLength]
          · simp [firstMismatch?, typed]

variable {schema : Schema} {id : Int64} {values : List Value}

/-- A new record lists its `ID` and then the data columns in the schema's order. -/
theorem entries_newRecord (enough : values.length = schema.dataColumns.size) :
    (newRecord schema id values).entries =
      (idColumn, .int id) :: schema.dataColumns.keys.zip values := by
  apply OrderedMap.entries_ofList
  have columns : (schema.dataColumns.keys.zip values).map Prod.fst = schema.dataColumns.keys := by
    apply List.map_fst_zip
    simp [OrderedMap.keys, enough, OrderedMap.size]
  rw [List.map_cons, columns, List.nodup_cons]
  exact ⟨schema.id_not_mem, schema.dataColumns.nodup⟩

/-- A new record has the columns of the schema. -/
theorem keys_newRecord (enough : values.length = schema.dataColumns.size) :
    (newRecord schema id values).keys = schema.names := by
  have keys_length : schema.dataColumns.keys.length ≤ values.length := by
    simp [OrderedMap.keys, enough, OrderedMap.size]
  rw [OrderedMap.keys, entries_newRecord enough, List.map_cons, List.map_fst_zip keys_length]
  rfl

theorem id?_newRecord (enough : values.length = schema.dataColumns.size) :
    (newRecord schema id values).id? = some id := by
  simp [Record.id?, OrderedMap.get?, entries_newRecord enough, OrderedMap.lookup, Value.int?]

theorem conforms_newRecord (enough : values.length = schema.dataColumns.size)
    (typed : values.map Value.type = schema.dataColumns.entries.map Prod.snd) :
    (newRecord schema id values).conforms schema = true := by
  rw [Record.conforms_iff]
  constructor
  · rw [keys_newRecord enough]
  · rw [entries_newRecord enough, List.forall_mem_cons]
    refine ⟨by simp [Schema.columnType?, Schema.columns, OrderedMap.get?, OrderedMap.lookup,
      Value.type], ?_⟩
    rintro ⟨column, value⟩ entry_mem
    -- The pair stands at one place in the names, the values and hence the types.
    rcases List.mem_iff_getElem.mp entry_mem with ⟨place, inside, equal⟩
    have place_lt : place < schema.dataColumns.entries.length := by
      simpa [OrderedMap.keys] using (List.lt_length_left_of_zip inside)
    have value_lt : place < values.length := List.lt_length_right_of_zip inside
    have sameType : values[place].type = schema.dataColumns.entries[place].2 := by
      have atPlace := congrArg (fun types => types[place]?) typed
      simpa [value_lt, place_lt] using atPlace
    simp only [List.getElem_zip, OrderedMap.keys, List.getElem_map, Prod.mk.injEq] at equal
    rw [← equal.1, ← equal.2, sameType]
    apply OrderedMap.get?_eq_some_iff.mpr
    exact List.mem_cons_of_mem _ (List.getElem_mem place_lt)

end Store

end Tabula
