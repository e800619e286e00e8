import Mathlib.Data.List.Forall2
import Tabula.Proofs.Engine
import Tabula.Proofs.OrderedMap
import Tabula.Proofs.Text.Blank

/-!
# Creating tables

A table is created if its name is new and can name a file, if every definition is a name and a type
with one colon between them, and if no two definitions other than those of `ID` share a name. The
table then stands behind the others, with `ID` and the columns defined in their order. Otherwise the
first of these requirements that is not met is reported, and among the definitions the first that is
at fault.
-/

namespace Tabula

namespace Text

variable {isBreak : Char → Bool} {text left right : List Char}

theorem eq_of_pieces_eq_singleton (single : pieces isBreak text = [left]) :
    text = left ∧ ∀ c ∈ left, isBreak c = false := by
  have counted := length_pieces isBreak text
  rw [single, List.length_singleton] at counted
  have unbroken : ∀ c ∈ text, isBreak c = false := by
    have zero : text.countP isBreak = 0 := by omega
    simpa using zero
  rw [pieces_of_no_break unbroken, List.cons.injEq] at single
  rw [← single.1]
  exact ⟨rfl, unbroken⟩

theorem pieces_eq_pair_iff :
    pieces isBreak text = [left, right] ↔
      (∃ c, isBreak c = true ∧ text = left ++ c :: right) ∧
        (∀ c ∈ left, isBreak c = false) ∧ ∀ c ∈ right, isBreak c = false := by
  constructor
  · intro pair
    induction text generalizing left with
    | nil => simp [pieces] at pair
    | cons first rest ih =>
        rw [pieces] at pair
        split at pair
        · rename_i breaks
          simp only [List.cons.injEq] at pair
          rcases eq_of_pieces_eq_singleton pair.2 with ⟨rfl, unbroken⟩
          rw [← pair.1]
          exact ⟨⟨first, breaks, rfl⟩, by simp, unbroken⟩
        · rename_i unbroken
          split at pair
          · simp at pair
          · rename_i next more found
            simp only [List.cons.injEq] at pair
            rcases pair with ⟨rfl, rfl⟩
            rcases ih found with ⟨⟨c, breaks, rfl⟩, unbrokenNext, unbrokenRight⟩
            refine ⟨⟨c, breaks, rfl⟩, ?_, unbrokenRight⟩
            simpa [unbroken] using unbrokenNext
  · rintro ⟨⟨c, breaks, rfl⟩, unbrokenLeft, unbrokenRight⟩
    rw [pieces_append_break unbrokenLeft breaks, pieces_of_no_break unbrokenRight]

end Text

/-- The definition has one colon, between a name and the name of a type. -/
structure Splits (definition name typeName : String) : Prop where
  text : definition = name ++ ":" ++ typeName
  oneColon : ':' ∉ name.toList ∧ ':' ∉ typeName.toList
  nonempty : name ≠ "" ∧ typeName ≠ ""

def Defines (definition : String) (column : String × ColumnType) : Prop :=
  Splits definition column.1 column.2.name

/-- What is wrong with a definition that follows others, which have taken names. -/
inductive Faulty (taken : List String) (definition : String) : Error → Prop
  | malformed (unsplit : ∀ name typeName, ¬Splits definition name typeName) :
      Faulty taken definition (.invalidSyntax (.columnDefinition definition))
  | unknownType {name typeName : String} (splits : Splits definition name typeName)
      (unknown : ∀ type : ColumnType, typeName ≠ type.name) :
      Faulty taken definition (.unknownType typeName)
  | duplicate {column : String × ColumnType} (defines : Defines definition column)
      (data : column.1 ≠ idColumn) (repeats : column.1 ∈ taken) :
      Faulty taken definition (.duplicateColumn column.1)

/-- The columns other than `ID`. -/
def dataOf (columns : List (String × ColumnType)) : List (String × ColumnType) :=
  columns.filter fun column => column.1 ≠ idColumn

/-- Each definition defines a column, and only `ID` is defined more than once. -/
structure DefineAll (definitions : List String) (columns : List (String × ColumnType)) : Prop where
  each : List.Forall₂ Defines definitions columns
  distinct : ((dataOf columns).map Prod.fst).Nodup

def PlainName (name : String) : Prop :=
  name ≠ "" ∧ '/' ∉ name.toList ∧ '\\' ∉ name.toList ∧ '\x00' ∉ name.toList

theorem validTableName_iff {name : String} : validTableName name = true ↔ PlainName name := by
  refine ⟨mem_of_validTableName, ?_⟩
  rintro ⟨nonempty, slash, backslash, nul⟩
  simp only [validTableName, Bool.and_eq_true, bne_iff_ne, List.all_eq_true]
  refine ⟨nonempty, fun c c_mem => ⟨⟨?_, ?_⟩, ?_⟩⟩
  · exact ne_of_mem_of_not_mem c_mem slash
  · exact ne_of_mem_of_not_mem c_mem backslash
  · exact ne_of_mem_of_not_mem c_mem nul

/-! ## One definition -/

section Definition

variable {definition name typeName : String} {column : String × ColumnType} {taken : List String}
  {error : Error}

theorem splits_iff :
    Splits definition name typeName ↔
      (Text.pieces (· == ':') definition.toList).map String.ofList = [name, typeName] ∧
        name ≠ "" ∧ typeName ≠ "" := by
  have asPieces : (Text.pieces (· == ':') definition.toList).map String.ofList = [name, typeName] ↔
      Text.pieces (· == ':') definition.toList = [name.toList, typeName.toList] := by
    have injective : Function.Injective String.ofList := fun _ _ => String.ofList_injective
    rw [← (List.map_injective_iff.mpr injective).eq_iff]
    simp
  have unbroken : ∀ text : List Char, (∀ c ∈ text, (c == ':') = false) ↔ ':' ∉ text := by
    intro text
    simp only [beq_eq_false_iff_ne]
    exact ⟨fun none colon => none ':' colon rfl,
      fun none c c_mem => ne_of_mem_of_not_mem c_mem none⟩
  have joined : (∃ c, (c == ':') = true ∧
        definition.toList = name.toList ++ c :: typeName.toList) ↔
      definition = name ++ ":" ++ typeName := by
    simp [← String.toList_inj]
  rw [asPieces, Text.pieces_eq_pair_iff, unbroken, unbroken, joined]
  constructor
  · rintro ⟨text, oneColon, nonempty⟩
    exact ⟨⟨text, oneColon⟩, nonempty⟩
  · rintro ⟨⟨text, oneColon⟩, nonempty⟩
    exact ⟨text, oneColon, nonempty⟩

theorem Splits.unique {otherName otherTypeName : String} (splits : Splits definition name typeName)
    (again : Splits definition otherName otherTypeName) :
    name = otherName ∧ typeName = otherTypeName := by
  have same := (splits_iff.mp splits).1.symm.trans (splits_iff.mp again).1
  simpa using same

theorem Defines.unique {other : String × ColumnType} (defines : Defines definition column)
    (again : Defines definition other) : column = other := by
  have same := Splits.unique defines again
  have sameType := congrArg ColumnType.ofName? same.2
  rw [ColumnType.ofName?_name, ColumnType.ofName?_name, Option.some.injEq] at sameType
  exact Prod.ext same.1 sameType

theorem columnDefinition_cases (taken : List String) (definition : String) :
    (∃ column, Defines definition column ∧ columnDefinition definition = .ok column) ∨
      ∃ error, Faulty taken definition error ∧ columnDefinition definition = .error error := by
  unfold columnDefinition
  split
  · rename_i name typeName pieces
    split
    · rename_i missing
      refine .inr ⟨_, .malformed ?_, rfl⟩
      intro otherName otherTypeName splits
      rw [splits_iff, pieces] at splits
      simp only [List.cons.injEq, and_true] at splits
      rcases splits with ⟨⟨rfl, rfl⟩, nonempty⟩
      exact (not_or.mpr nonempty) missing
    · rename_i present
      have splits : Splits definition name typeName := splits_iff.mpr ⟨pieces, not_or.mp present⟩
      cases named : ColumnType.ofName? typeName with
      | some type =>
          rw [ColumnType.name_of_ofName? named] at splits
          exact .inl ⟨(name, type), splits, rfl⟩
      | none =>
          refine .inr ⟨_, .unknownType splits ?_, rfl⟩
          rintro type rfl
          simp at named
  · rename_i unpaired
    refine .inr ⟨_, .malformed ?_, rfl⟩
    intro name typeName splits
    exact unpaired name typeName (splits_iff.mp splits).1

theorem Defines.not_faulty (defines : Defines definition column)
    (fresh : column.1 ≠ idColumn → column.1 ∉ taken) : ¬Faulty taken definition error := by
  intro faulty
  cases faulty with
  | malformed unsplit => exact unsplit _ _ defines
  | unknownType splits unknown => exact unknown column.2 (splits.unique defines).2
  | duplicate again data repeats =>
      cases defines.unique again
      exact fresh data repeats

end Definition

/-! ## All definitions -/

theorem dataOf_cons_id {type : ColumnType} {columns : List (String × ColumnType)} :
    dataOf ((idColumn, type) :: columns) = dataOf columns := by
  simp [dataOf]

theorem dataOf_cons_data {column : String × ColumnType} {columns : List (String × ColumnType)}
    (data : column.1 ≠ idColumn) : dataOf (column :: columns) = column :: dataOf columns := by
  simp [dataOf, data]

namespace Schema

variable {schema extended : Schema} {definition : String} {definitions : List String}
  {column : String × ColumnType} {error : Error}

theorem addColumn_cases (schema : Schema) (data : column.1 ≠ idColumn) :
    (column.1 ∉ schema.dataColumns.keys ∧ ∃ extended,
        schema.addColumn column.1 column.2 = .ok extended ∧
          extended.dataColumns.entries = schema.dataColumns.entries ++ [column]) ∨
      (column.1 ∈ schema.dataColumns.keys ∧
        schema.addColumn column.1 column.2 = .error (.duplicateColumn column.1)) := by
  have taken_iff : column.1 ∈ schema.names ↔ column.1 ∈ schema.dataColumns.keys := by
    simp [names, columns, OrderedMap.keys, data]
  by_cases taken : column.1 ∈ schema.names
  · refine .inr ⟨taken_iff.mp taken, ?_⟩
    simp [addColumn, addColumn?, taken]
  · have fresh := mt taken_iff.mpr taken
    refine .inl ⟨fresh, ?_⟩
    simp only [addColumn, addColumn?, taken, dite_false, Except.ok.injEq, exists_eq_left']
    exact OrderedMap.entries_insert_of_not_mem fresh

/-- What one definition does: `ID` adds nothing, a new name adds a column, and anything else is at
fault. -/
theorem define_cons_cases (schema : Schema) (definition : String) (definitions : List String) :
    (∃ type, Defines definition (idColumn, type) ∧
        schema.define (definition :: definitions) = schema.define definitions) ∨
      (∃ column, ∃ extended : Schema, Defines definition column ∧ column.1 ≠ idColumn ∧
        column.1 ∉ schema.dataColumns.keys ∧
        extended.dataColumns.entries = schema.dataColumns.entries ++ [column] ∧
        schema.define (definition :: definitions) = extended.define definitions) ∨
      ∃ error, Faulty schema.dataColumns.keys definition error ∧
        schema.define (definition :: definitions) = .error error := by
  rcases columnDefinition_cases schema.dataColumns.keys definition with
    ⟨column, defines, read⟩ | ⟨error, faulty, read⟩
  · by_cases id : column.1 = idColumn
    · refine .inl ⟨column.2, ?_, ?_⟩
      · rw [← id]
        exact defines
      · simp [define, read, id]
    · right
      rcases schema.addColumn_cases id with ⟨fresh, extended, added, entries⟩ | ⟨taken, refused⟩
      · refine .inl ⟨column, extended, defines, id, fresh, entries, ?_⟩
        simp [define, read, id, added]
      · refine .inr ⟨_, .duplicate defines id taken, ?_⟩
        simp [define, read, id, refused]
  · refine .inr (.inr ⟨error, faulty, ?_⟩)
    simp [define, read]

theorem exists_columns_of_define (defined : schema.define definitions = .ok extended) :
    ∃ columns, List.Forall₂ Defines definitions columns ∧
      extended.dataColumns.entries = schema.dataColumns.entries ++ dataOf columns := by
  induction definitions generalizing schema with
  | nil =>
      cases defined
      exact ⟨[], .nil, by simp [dataOf]⟩
  | cons definition rest ih =>
      rcases schema.define_cons_cases definition rest with
        ⟨type, defines, step⟩ | ⟨column, next, defines, data, -, entries, step⟩ | ⟨error, -, step⟩
      · rw [step] at defined
        rcases ih defined with ⟨columns, each, added⟩
        refine ⟨(idColumn, type) :: columns, .cons defines each, ?_⟩
        rw [dataOf_cons_id, added]
      · rw [step] at defined
        rcases ih defined with ⟨columns, each, added⟩
        refine ⟨column :: columns, .cons defines each, ?_⟩
        rw [dataOf_cons_data data, added, entries, List.append_assoc, List.singleton_append]
      · rw [step] at defined
        cases defined

theorem exists_defineAll_of_define (defined : idOnly.define definitions = .ok schema) :
    ∃ columns, DefineAll definitions columns ∧ schema.dataColumns.entries = dataOf columns := by
  rcases exists_columns_of_define defined with ⟨columns, each, entries⟩
  have distinct := schema.dataColumns.nodup
  rw [entries] at distinct
  exact ⟨columns, ⟨each, distinct⟩, entries⟩

theorem exists_define {columns : List (String × ColumnType)}
    (each : List.Forall₂ Defines definitions columns)
    (distinct : (schema.dataColumns.keys ++ (dataOf columns).map Prod.fst).Nodup) :
    ∃ extended, schema.define definitions = .ok extended := by
  induction each generalizing schema with
  | nil => exact ⟨schema, rfl⟩
  | @cons definition column rest columns defines _ ih =>
      rcases schema.define_cons_cases definition rest with
        ⟨type, again, step⟩ | ⟨other, next, again, data, -, entries, step⟩ | ⟨error, faulty, -⟩
      · cases defines.unique again
        rw [dataOf_cons_id] at distinct
        rw [step]
        exact ih distinct
      · cases defines.unique again
        rw [dataOf_cons_data data, List.map_cons, List.append_cons] at distinct
        rw [step]
        apply ih
        simpa [OrderedMap.keys, entries] using distinct
      · refine absurd faulty (defines.not_faulty ?_)
        intro data taken
        rw [dataOf_cons_data data, List.map_cons] at distinct
        exact (List.nodup_append.mp distinct).2.2 _ taken _ List.mem_cons_self rfl

theorem exists_fault_of_define (failed : schema.define definitions = .error error) :
    ∃ before definition after columns, definitions = before ++ definition :: after ∧
      List.Forall₂ Defines before columns ∧
        (schema.dataColumns.keys ++ (dataOf columns).map Prod.fst).Nodup ∧
          Faulty (schema.dataColumns.keys ++ (dataOf columns).map Prod.fst) definition error := by
  induction definitions generalizing schema with
  | nil => cases failed
  | cons definition rest ih =>
      rcases schema.define_cons_cases definition rest with
        ⟨type, defines, step⟩ | ⟨column, next, defines, data, -, entries, step⟩ |
          ⟨fault, faulty, step⟩
      · rw [step] at failed
        rcases ih failed with ⟨before, found, after, columns, rfl, each, distinct, faulty⟩
        rw [← @dataOf_cons_id type] at distinct faulty
        exact ⟨definition :: before, found, after, _, rfl, .cons defines each, distinct, faulty⟩
      · rw [step] at failed
        rcases ih failed with ⟨before, found, after, columns, rfl, each, distinct, faulty⟩
        have taken : next.dataColumns.keys ++ (dataOf columns).map Prod.fst =
            schema.dataColumns.keys ++ (dataOf (column :: columns)).map Prod.fst := by
          simp [OrderedMap.keys, entries, dataOf_cons_data data]
        rw [taken] at distinct faulty
        exact ⟨definition :: before, found, after, _, rfl, .cons defines each, distinct, faulty⟩
      · rw [step] at failed
        cases failed
        refine ⟨[], definition, rest, [], rfl, .nil, ?_, ?_⟩
        · simpa [dataOf] using schema.dataColumns.keys_nodup
        · simpa [dataOf] using faulty

end Schema

/-! ## Creating a table -/

namespace Catalog

variable {catalog extended : Catalog} {name : String} {definitions : List String} {schema : Schema}
  {error : Error}

/-- What the creation of a table needs. -/
structure Admits (catalog : Catalog) (name : String) (definitions : List String) : Prop where
  fresh : name ∉ catalog.keys
  plain : PlainName name
  defined : ∃ columns, DefineAll definitions columns

/-- What the creation of a table adds. -/
structure Appended (catalog : Catalog) (name : String) (definitions : List String)
    (extended : Catalog) (schema : Schema) : Prop where
  table : extended.entries = catalog.entries ++ [(name, schema)]
  columns : ∃ columns, DefineAll definitions columns ∧
    schema.columns.entries = (idColumn, .int) :: dataOf columns

/-- Why a table is not created: the first requirement that is not met. -/
inductive Refuses (catalog : Catalog) (name : String) (definitions : List String) : Error → Prop
  | taken (known : name ∈ catalog.keys) :
      Refuses catalog name definitions (.tableAlreadyExists name)
  | unnamed (fresh : name ∉ catalog.keys) (notPlain : ¬PlainName name) :
      Refuses catalog name definitions (.invalidSyntax (.tableName name))
  /-- The definition at fault comes after others that are not. -/
  | undefined {before after : List String} {definition : String}
      {columns : List (String × ColumnType)} {error : Error} (fresh : name ∉ catalog.keys)
      (plain : PlainName name) (first : definitions = before ++ definition :: after)
      (sound : DefineAll before columns)
      (faulty : Faulty ((dataOf columns).map Prod.fst) definition error) :
      Refuses catalog name definitions error

/-- The catalog after a table was to be created. -/
def afterCreate (catalog : Catalog) (name : String) (definitions : List String) : Catalog :=
  (catalog.attemptCreate name definitions).1

theorem admits_iff :
    catalog.Admits name definitions ↔
      ∃ extended schema, catalog.createTable name definitions = .ok (extended, schema) := by
  constructor
  · rintro ⟨fresh, plain, columns, each, distinct⟩
    rcases @Schema.exists_define .idOnly _ _ each distinct with ⟨schema, defined⟩
    exact ⟨_, schema, createTable_eq_ok_iff.mpr
      ⟨fresh, validTableName_iff.mpr plain, defined, rfl⟩⟩
  · rintro ⟨extended, schema, created⟩
    rcases createTable_eq_ok_iff.mp created with ⟨fresh, valid, defined, -⟩
    rcases Schema.exists_defineAll_of_define defined with ⟨columns, all, -⟩
    exact ⟨fresh, validTableName_iff.mp valid, columns, all⟩

theorem appended_of_createTable
    (created : catalog.createTable name definitions = .ok (extended, schema)) :
    catalog.Appended name definitions extended schema := by
  rcases createTable_eq_ok_iff.mp created with ⟨fresh, -, defined, rfl⟩
  rcases Schema.exists_defineAll_of_define defined with ⟨columns, all, entries⟩
  refine ⟨OrderedMap.entries_insert_of_not_mem fresh, columns, all, ?_⟩
  exact congrArg _ entries

/-- An attempt that fails leaves the catalog as it was. -/
theorem refuses_of_attemptCreate {left : Catalog}
    (failed : catalog.attemptCreate name definitions = (left, .error error)) :
    catalog.Refuses name definitions error ∧ left = catalog := by
  rw [attemptCreate] at failed
  split at failed
  · rename_i known
    cases failed
    exact ⟨.taken (OrderedMap.contains_iff.mp known), rfl⟩
  · rename_i unknown
    have fresh : name ∉ catalog.keys := mt OrderedMap.contains_iff.mpr unknown
    split at failed
    · rename_i invalid
      cases failed
      refine ⟨.unnamed fresh ?_, rfl⟩
      rw [← validTableName_iff]
      simpa using invalid
    · rename_i valid
      have plain : PlainName name := validTableName_iff.mp (by simpa using valid)
      split at failed
      · rename_i fault undefined
        cases failed
        rcases Schema.exists_fault_of_define undefined with
          ⟨before, definition, after, columns, first, each, distinct, faulty⟩
        exact ⟨.undefined fresh plain first ⟨each, distinct⟩ faulty, rfl⟩
      · cases failed

/-- A table is created exactly if all requirements are met. It then stands behind the others with
the columns defined; otherwise the first that is not met is reported, and the catalog stays as it
was. -/
theorem createTable_appends_or_refuses (catalog : Catalog) (name : String)
    (definitions : List String) :
    ((∃ extended schema, catalog.createTable name definitions = .ok (extended, schema)) ↔
        catalog.Admits name definitions) ∧
      (∀ extended schema, catalog.createTable name definitions = .ok (extended, schema) →
        catalog.Appended name definitions extended schema) ∧
      ∀ error, catalog.createTable name definitions = .error error →
        catalog.Refuses name definitions error ∧
          catalog.afterCreate name definitions = catalog := by
  refine ⟨admits_iff.symm, fun extended schema => appended_of_createTable, fun error failed => ?_⟩
  have answered := completed_eq_error_iff.mp failed
  exact refuses_of_attemptCreate (Prod.ext rfl answered)

end Catalog

end Tabula
