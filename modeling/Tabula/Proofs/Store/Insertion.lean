import Tabula.Proofs.OrderedMap
import Tabula.Proofs.Store

/-!
# Inserting

An insert needs a value for every data column, each of the type of its column, and an `ID` after the
largest one present. If it has all three it adds one record behind the others, with that `ID` and
those values. Otherwise it is refused for the first of them that it lacks, and the store stays as it
was.
-/

namespace Tabula

/-- The record has an `ID` and values in the columns of a schema, in the schema's order. -/
structure Record.Lists (record : Record) (schema : Schema) (id : Int64) (values : List Value) :
    Prop where
  columns : record.keys = schema.names
  values : record.project schema = some (.int id) :: values.map some

namespace Store

variable {store extended : Store} {schema : Schema} {values : List Value} {id : Int64}
  {error : Error}

/-- What an insert needs. -/
structure Accepts (store : Store) (schema : Schema) (values : List Value) : Prop where
  count : values.length = schema.dataColumns.size
  typed : values.map Value.type = schema.dataColumns.entries.map Prod.snd
  room : ∀ largest, store.Largest largest → largest < Int64.maxValue

/-- What an insert adds. -/
structure Added (store : Store) (schema : Schema) (values : List Value) (extended : Store)
    (id : Int64) : Prop where
  /-- The `ID` is one more than the largest present, or 1 if there is none. -/
  next : (store.ids = [] ∧ id = 1) ∨
    ∃ largest, store.Largest largest ∧ id.toInt = largest.toInt + 1
  above : ∀ other ∈ store.ids, other < id
  /-- Behind the old records stands one more, which fits the schema. -/
  record : ∃ record : Record, extended.records = store.records ++ [record] ∧
    record.Lists schema id values ∧ record.id? = some id ∧ record.conforms schema = true
  valid : ∀ table, store.validate table schema = .ok () → extended.validate table schema = .ok ()

/-- Why an insert is refused: the first thing that it lacks. -/
inductive Refuses (store : Store) (schema : Schema) (values : List Value) : Error → Prop
  | arity (miscounted : values.length ≠ schema.dataColumns.size) :
      Refuses store schema values (.arityMismatch schema.dataColumns.size values.length)
  /-- The first value that is not of its column's type. -/
  | mistyped {name : String} {type : ColumnType} {value : Value}
      {before after : List (String × ColumnType)} {fitting rest : List Value}
      (count : values.length = schema.dataColumns.size)
      (columns : schema.dataColumns.entries = before ++ (name, type) :: after)
      (given : values = fitting ++ value :: rest)
      (fits : fitting.map Value.type = before.map Prod.snd) (differs : value.type ≠ type) :
      Refuses store schema values (.typeMismatch name type value)
  | full (count : values.length = schema.dataColumns.size)
      (typed : values.map Value.type = schema.dataColumns.entries.map Prod.snd)
      (largest : store.Largest Int64.maxValue) :
      Refuses store schema values (.noIdLeft Int64.maxValue)

/-- The store after an insert into it. -/
def afterInsert (store : Store) (schema : Schema) (values : List Value) : Store :=
  (store.attemptInsert schema values).1

/-! ## The record added -/

theorem lists_newRecord (count : values.length = schema.dataColumns.size) :
    (newRecord schema id values).Lists schema id values := by
  have columns : (newRecord schema id values).keys = schema.names := keys_newRecord count
  have values_length : values.length ≤ schema.dataColumns.keys.length := by
    simp [OrderedMap.keys, count, OrderedMap.size]
  refine ⟨columns, ?_⟩
  rw [Record.project, ← columns, OrderedMap.map_get?_keys, entries_newRecord count, List.map_cons]
  congr 1
  calc
    (schema.dataColumns.keys.zip values).map (fun binding => some binding.2) =
        ((schema.dataColumns.keys.zip values).map Prod.snd).map some := by
      rw [List.map_map]
      rfl
    _ = values.map some := by rw [List.map_snd_zip values_length]

/-! ## The first mismatch -/

theorem parts_of_firstMismatch? {columns : List (String × ColumnType)} {name : String}
    {type : ColumnType} {value : Value}
    (found : firstMismatch? columns values = some (name, type, value)) :
    ∃ before after fitting rest, columns = before ++ (name, type) :: after ∧
      values = fitting ++ value :: rest ∧ fitting.map Value.type = before.map Prod.snd ∧
        value.type ≠ type := by
  induction columns generalizing values with
  | nil => cases found
  | cons column columns ih =>
      obtain ⟨first, expected⟩ := column
      cases values with
      | nil => cases found
      | cons given values =>
          rw [firstMismatch?] at found
          split at found
          · rename_i fits
            rcases ih found with ⟨before, after, fitting, rest, rfl, rfl, sameTypes, differs⟩
            refine ⟨(first, expected) :: before, after, given :: fitting, rest, rfl, rfl, ?_,
              differs⟩
            rw [List.map_cons, List.map_cons, fits, sameTypes]
          · rename_i differs
            cases found
            exact ⟨[], columns, [], values, rfl, rfl, rfl, differs⟩

/-! ## What an insert does -/

theorem accepts_iff :
    store.Accepts schema values ↔
      ∃ extended id, store.insert schema values = .ok (extended, id) := by
  constructor
  · rintro ⟨count, typed, room⟩
    rcases nextId_cases with ⟨-, next⟩ | ⟨largest, -, -, next⟩ | ⟨full, -⟩
    · exact ⟨_, _, insert_eq_ok_iff.mpr ⟨count, typed, next, rfl⟩⟩
    · exact ⟨_, _, insert_eq_ok_iff.mpr ⟨count, typed, next, rfl⟩⟩
    · exact absurd (room _ full) Int64.lt_irrefl
  · rintro ⟨extended, id, inserted⟩
    rcases insert_eq_ok_iff.mp inserted with ⟨count, typed, next, -⟩
    refine ⟨count, typed, fun largest found => ?_⟩
    rcases nextId_cases with ⟨none, -⟩ | ⟨other, foundToo, below, -⟩ | ⟨-, failed⟩
    · exact absurd found (not_largest_of_ids_eq_nil none)
    · rwa [found.unique foundToo] at below
    · cases next.symm.trans failed

theorem added_of_insert (inserted : store.insert schema values = .ok (extended, id)) :
    store.Added schema values extended id := by
  rcases insert_eq_ok_iff.mp inserted with ⟨count, typed, next, rfl⟩
  have validated : ∀ table, store.validate table schema = .ok () →
      (Store.mk (store.records ++ [newRecord schema id values])).validate table schema = .ok () :=
    fun _ accepted => validate_eq_ok_iff.mpr ((validate_eq_ok_iff.mp accepted).insert inserted)
  have record : ∃ record : Record,
      store.records ++ [newRecord schema id values] = store.records ++ [record] ∧
        record.Lists schema id values ∧ record.id? = some id ∧ record.conforms schema = true :=
    ⟨_, rfl, lists_newRecord count, id?_newRecord count, conforms_newRecord count typed⟩
  rcases nextId_cases with ⟨none, first⟩ | ⟨largest, found, below, follows⟩ | ⟨-, failed⟩
  · cases next.symm.trans first
    exact ⟨.inl ⟨none, rfl⟩, by simp [none], record, validated⟩
  · cases next.symm.trans follows
    exact ⟨.inr ⟨largest, found, toInt_add_one_of_lt below⟩, found.lt_add_one below, record,
      validated⟩
  · cases next.symm.trans failed

/-- An attempt that fails leaves the store as it was. -/
theorem refuses_of_attemptInsert {left : Store}
    (failed : store.attemptInsert schema values = (left, .error error)) :
    store.Refuses schema values error ∧ left = store := by
  rw [attemptInsert] at failed
  split at failed
  · rename_i miscounted
    cases failed
    exact ⟨.arity miscounted, rfl⟩
  · rename_i counted
    have count : values.length = schema.dataColumns.size := Decidable.not_not.mp counted
    split at failed
    · rename_i column expected value found
      cases failed
      rcases parts_of_firstMismatch? found with
        ⟨before, after, fitting, rest, columns, given, fits, differs⟩
      exact ⟨.mistyped count columns given fits differs, rfl⟩
    · rename_i fitting
      have typed := (firstMismatch?_eq_none_iff count).mp fitting
      rcases nextId_cases with ⟨-, next⟩ | ⟨largest, -, -, next⟩ | ⟨full, next⟩
      · rw [next] at failed
        cases failed
      · rw [next] at failed
        cases failed
      · rw [next] at failed
        cases failed
        exact ⟨.full count typed full, rfl⟩

/-- An insert succeeds exactly if it has what it needs. Then it adds one record and nothing else;
otherwise it says what it lacks, and the store stays as it was. -/
theorem insert_adds_or_refuses (store : Store) (schema : Schema) (values : List Value) :
    ((∃ extended id, store.insert schema values = .ok (extended, id)) ↔
        store.Accepts schema values) ∧
      (∀ extended id, store.insert schema values = .ok (extended, id) →
        store.Added schema values extended id) ∧
      ∀ error, store.insert schema values = .error error →
        store.Refuses schema values error ∧ store.afterInsert schema values = store := by
  refine ⟨accepts_iff.symm, fun extended id => added_of_insert, fun error failed => ?_⟩
  have answered := completed_eq_error_iff.mp failed
  exact refuses_of_attemptInsert (Prod.ext rfl answered)

end Store

end Tabula
