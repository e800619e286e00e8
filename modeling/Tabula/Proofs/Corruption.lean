import Tabula.Proofs.Engine

/-!
# Corrupt records

The records that a loader supplies may be anything. They are corrupt if one of them does not have
just the columns of its table, each with a value of its type, or has an `ID` that is not positive or
that another record has too. A command that reads corrupt records fails, so nothing of them is shown
or saved; and a command that succeeds shows records of a valid store, in their order, and hands out
a valid store to be saved.
-/

namespace Tabula

/-- The record has the columns of the schema and no others, with values of their types. -/
def Record.Fits (record : Record) (schema : Schema) : Prop :=
  ∀ column, (record.get? column).map Value.type = schema.columnType? column

theorem Record.conforms_iff_fits {record : Record} {schema : Schema} :
    record.conforms schema = true ↔ record.Fits schema := by
  constructor
  · intro conforms column
    cases held : record.get? column with
    | some value => exact (type_of_conforms conforms held).symm
    | none =>
        have absent : column ∉ schema.names := by
          rw [← (keys_perm_of_conforms conforms).mem_iff]
          exact OrderedMap.get?_eq_none_iff.mp held
        exact (OrderedMap.get?_eq_none_iff.mpr absent).symm
  · intro fits
    rw [conforms_iff]
    constructor
    · apply (List.perm_ext_iff_of_nodup record.nodup schema.columns.nodup).mpr
      intro column
      change column ∈ record.keys ↔ column ∈ schema.names
      rw [← not_iff_not, Schema.names, ← OrderedMap.get?_eq_none_iff,
        ← OrderedMap.get?_eq_none_iff]
      change _ ↔ schema.columnType? column = none
      simp [← fits column]
    · intro entry entry_mem
      have held : record.get? entry.1 = some entry.2 := OrderedMap.get?_eq_some_iff.mpr entry_mem
      rw [← fits entry.1, held]
      rfl

namespace Store

variable {schema : Schema} {store : Store}

/-- Records break the schema of their table, or an `ID` among them is not positive or is there
twice. -/
inductive Corrupted (schema : Schema) (store : Store) : Prop
  | misfit {record : Record} (record_mem : record ∈ store.records) (misfits : ¬record.Fits schema)
  | notPositive {record : Record} {id : Int64} (record_mem : record ∈ store.records)
      (identified : record.id? = some id) (below : id ≤ 0)
  | repeated {first second : Record} {id : Int64}
      (both : List.Sublist [first, second] store.records)
      (firstIdentified : first.id? = some id) (secondIdentified : second.id? = some id)

theorem nodup_ids_iff : store.ids.Nodup ↔ ∀ first second, [first, second].Sublist store.records →
    ∀ id, first.id? = some id → second.id? ≠ some id := by
  rw [ids, List.Nodup, List.pairwise_filterMap, List.pairwise_iff_forall_sublist]
  constructor
  · intro distinct first second both id identified again
    exact distinct both id identified id again rfl
  · intro distinct first second both id identified other again same
    subst same
    exact distinct first second both id identified again

theorem corrupted_iff : store.Corrupted schema ↔ ¬store.Valid schema := by
  constructor
  · intro corrupted valid
    cases corrupted with
    | misfit record_mem misfits =>
        exact misfits (Record.conforms_iff_fits.mp (valid.conforms _ record_mem))
    | notPositive record_mem identified below =>
        have id_mem := List.mem_filterMap.mpr ⟨_, record_mem, identified⟩
        exact Int64.not_lt.mpr below (valid.positive _ id_mem)
    | repeated both first second =>
        exact nodup_ids_iff.mp valid.distinct _ _ both _ first second
  · intro invalid
    by_contra sound
    apply invalid
    refine ⟨?_, ?_, ?_⟩
    · intro record record_mem
      by_contra misfits
      apply sound
      apply Corrupted.misfit record_mem
      rwa [← Record.conforms_iff_fits]
    · intro id id_mem
      rcases List.mem_filterMap.mp id_mem with ⟨record, record_mem, identified⟩
      by_contra notPositive
      apply sound
      exact .notPositive record_mem identified (Int64.not_lt.mp notPositive)
    · rw [nodup_ids_iff]
      intro first second both id identified again
      apply sound
      exact .repeated both identified again

end Store

/-- A command reads the records of a table. Information about it reads them if there are any. -/
inductive Command.Reads (loader : Loader) (table : String) : Command → Prop
  | info (present : loader.recordsExist table = true) : Reads loader table (.info table)
  | insert (values : List Value) : Reads loader table (.insert table values)
  | select (predicate : Option Predicate) : Reads loader table (.select table predicate)
  | update (set : SetClause) (predicate : Predicate) :
      Reads loader table (.update table set predicate)
  | delete (predicate : Predicate) : Reads loader table (.delete table predicate)

namespace Engine

variable {catalog : Catalog} {loader : Loader} {command : Command} {table : String}
  {schema : Schema} {store : Store} {error : Error} {outcome : Outcome}

/-- When records cannot be loaded, a command that reads them fails for that reason, unless it is an
update that is refused before. -/
theorem execute_of_loadValid_error (known : catalog.get? table = some schema)
    (reads : command.Reads loader table) (failed : loadValid loader table schema = .error error) :
    ∃ cause, execute catalog loader command = .error cause ∧ (cause = error ∨
      ∃ set predicate, command = .update table set predicate ∧
        set.check table schema = .error cause) := by
  rw [← Catalog.table_eq_ok_iff] at known
  cases reads with
  | info present => exact ⟨error, by simp [execute, info, known, present, failed], .inl rfl⟩
  | insert values => exact ⟨error, by simp [execute, insert, known, failed], .inl rfl⟩
  | select predicate => exact ⟨error, by simp [execute, select, known, failed], .inl rfl⟩
  | delete predicate => exact ⟨error, by simp [execute, delete, known, failed], .inl rfl⟩
  | update set predicate =>
      cases checked : set.check table schema with
      | ok allowed => exact ⟨error, by simp [execute, update, known, checked, failed], .inl rfl⟩
      | error refusal =>
          refine ⟨refusal, by simp [execute, update, known, checked], .inr ?_⟩
          exact ⟨set, predicate, rfl, checked⟩

theorem exists_store_of_execute (known : catalog.get? table = some schema)
    (reads : command.Reads loader table) (ran : execute catalog loader command = .ok outcome) :
    ∃ store, loadValid loader table schema = .ok store := by
  cases loaded : loadValid loader table schema with
  | ok store => exact ⟨store, rfl⟩
  | error error =>
      rcases execute_of_loadValid_error known reads loaded with ⟨cause, failed, -⟩
      simp [failed] at ran

theorem corrupt_of_load (loaded : loader.load table = .ok store)
    (corrupted : store.Corrupted schema) :
    ∃ corruption, loadValid loader table schema = .error (.corruptTable table corruption) := by
  have refused : store.validate table schema ≠ .ok () :=
    mt Store.validate_eq_ok_iff.mp (Store.corrupted_iff.mp corrupted)
  rw [Store.validate] at refused
  simp only [loadValid, loaded, Store.validate]
  cases found : Store.corruptionFrom? schema 0 [] store.records with
  | none => simp [found] at refused
  | some corruption => exact ⟨corruption, rfl⟩

/-- Only a select shows records: those that its predicate accepts, in their order. -/
theorem rows_sublist (known : catalog.get? table = some schema)
    (reads : command.Reads loader table) (accepted : loadValid loader table schema = .ok store)
    (ran : execute catalog loader command = .ok outcome) {name : String} {shown : Schema}
    {records : List Record} (shows : outcome.answer = .rows name shown records) :
    name = table ∧ shown = schema ∧ records.Sublist store.records := by
  rw [← Catalog.table_eq_ok_iff] at known
  cases reads with
  | info present =>
      simp only [execute, info, known, present, accepted, if_true, Except.ok.injEq] at ran
      simp [← ran] at shows
  | insert values =>
      simp only [execute, insert, known, accepted] at ran
      split at ran
      · simp at ran
      · simp only [Except.ok.injEq] at ran
        simp [← ran] at shows
  | select predicate =>
      simp only [execute, select, known, accepted, Except.ok.injEq] at ran
      simp only [← ran, Answer.rows.injEq] at shows
      rcases shows with ⟨rfl, rfl, rfl⟩
      refine ⟨rfl, rfl, ?_⟩
      cases predicate with
      | none => exact List.Sublist.refl _
      | some predicate => exact List.filter_sublist
  | update set predicate =>
      simp only [execute, update, known, accepted] at ran
      split at ran
      · simp at ran
      · simp only [Except.ok.injEq] at ran
        simp [← ran] at shows
  | delete predicate =>
      simp only [execute, delete, known, accepted, Except.ok.injEq] at ran
      simp [← ran] at shows

/-- What is saved is an edit of the records that were read, and of no others. -/
theorem saved_valid (known : catalog.get? table = some schema)
    (reads : command.Reads loader table)
    (ran : execute catalog loader command = .ok outcome) {name : String} {edited : Store}
    (saves : outcome.change = .save name edited) : name = table ∧ edited.Valid schema := by
  have named : command.table? = some table := by cases reads <;> rfl
  have effect := effect_of_execute ran
  rw [saves] at effect
  cases effect with
  | @save _ _ other _ _ sameName found loaded edit =>
      have same : table = name := by simpa [named] using sameName
      subst same
      have sameSchema : schema = other := by simpa [known] using found
      subst sameSchema
      exact ⟨rfl, edit.valid (loadValid_eq_ok_iff.mp loaded).2⟩

/-- A command that reads the records of a table fails if they are corrupt. If it succeeds, they are
valid, the records that it shows are among them and in their order, and what it hands out to be
saved is valid for the same schema. -/
theorem execute_corrupted_or_valid (catalog : Catalog) (loader : Loader) {command : Command}
    {table : String} {schema : Schema} (known : catalog.get? table = some schema)
    (reads : command.Reads loader table) :
    (∀ store, loader.load table = .ok store → store.Corrupted schema →
      ∃ error, execute catalog loader command = .error error ∧
        ((∃ corruption, error = .corruptTable table corruption) ∨
          ∃ set predicate, command = .update table set predicate ∧
            set.check table schema = .error error)) ∧
    ∀ outcome, execute catalog loader command = .ok outcome →
      ∃ store, loader.load table = .ok store ∧ store.validate table schema = .ok () ∧
        (∀ name shown records, outcome.answer = .rows name shown records →
          name = table ∧ shown = schema ∧ records.Sublist store.records) ∧
        ∀ name edited, outcome.change = .save name edited →
          name = table ∧ edited.validate table schema = .ok () := by
  constructor
  · intro store loaded corrupted
    rcases corrupt_of_load loaded corrupted with ⟨corruption, failed⟩
    rcases execute_of_loadValid_error known reads failed with ⟨error, refused, cause⟩
    exact ⟨error, refused, cause.imp_left fun same => ⟨corruption, same⟩⟩
  · intro outcome ran
    rcases exists_store_of_execute known reads ran with ⟨store, accepted⟩
    rcases loadValid_eq_ok_iff.mp accepted with ⟨loaded, valid⟩
    refine ⟨store, loaded, Store.validate_eq_ok_iff.mpr valid, ?_, ?_⟩
    · intro name shown records shows
      exact rows_sublist known reads accepted ran shows
    · intro name edited saves
      rcases saved_valid known reads ran saves with ⟨same, editedValid⟩
      exact ⟨same, Store.validate_eq_ok_iff.mpr editedValid⟩

/-- Two tables, the records of the first of which have the same `ID` twice. -/
def halfCorrupt : Loader where
  load table :=
    let record : Record := .single idColumn (.int 1)
    .ok ⟨if table = "t" then [record, record] else [record]⟩
  recordsExist _ := true

theorem execute_corrupted_or_valid_halfCorrupt :
    ∃ catalog : Catalog, ∃ corrupt edited : Store,
      (catalog.get? "t" = some .idOnly ∧ catalog.get? "u" = some .idOnly) ∧
      (Command.Reads halfCorrupt "t" (.delete "t" .always) ∧
        Command.Reads halfCorrupt "u" (.insert "u" [])) ∧
      halfCorrupt.load "t" = .ok corrupt ∧ corrupt.Corrupted .idOnly ∧
      (∃ error, execute catalog halfCorrupt (.delete "t" .always) = .error error) ∧
      execute catalog halfCorrupt (.insert "u" []) =
        .ok ⟨.inserted "u" 2, .save "u" edited⟩ ∧
      edited.validate "u" .idOnly = .ok () := by
  let catalog : Catalog := .ofList [("t", .idOnly), ("u", .idOnly)]
  have first : catalog.get? "t" = some .idOnly := rfl
  have second : catalog.get? "u" = some .idOnly := rfl
  have corrupted : Store.Corrupted .idOnly
      ⟨[.single idColumn (.int 1), .single idColumn (.int 1)]⟩ :=
    .repeated (List.Sublist.refl _) rfl rfl
  rcases (execute_corrupted_or_valid catalog halfCorrupt first (.delete .always)).1 _ rfl
    corrupted with ⟨error, failed, -⟩
  have ran : execute catalog halfCorrupt (.insert "u" []) = .ok ⟨.inserted "u" 2,
      .save "u" ⟨[.single idColumn (.int 1), .single idColumn (.int 2)]⟩⟩ := by
    decide +kernel
  rcases (execute_corrupted_or_valid catalog halfCorrupt second (.insert [])).2 _ ran with
    ⟨store, -, -, -, saves⟩
  exact ⟨catalog, _, _, ⟨first, second⟩, ⟨.delete .always, .insert []⟩, rfl, corrupted,
    ⟨error, failed⟩, ran, (saves _ _ rfl).2⟩

end Engine

end Tabula
