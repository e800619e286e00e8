import Tabula.Proofs.Record

/-!
# Valid stores

A store is valid for a schema when its records fit the schema and their `ID`s are positive and
distinct; `validate` accepts exactly those. Stores that grow by inserts alone also list their `ID`s
in increasing order, since the `ID` of an insert exceeds all others, and updates and deletes keep
that order.
-/

namespace Tabula.Store

variable {schema : Schema} {table : String} {store : Store}

/-- The records fit the schema, and their `ID`s are positive and distinct. -/
structure Valid (schema : Schema) (store : Store) : Prop where
  conforms : ∀ record ∈ store.records, record.conforms schema = true
  positive : ∀ id ∈ store.ids, 0 < id
  distinct : store.ids.Nodup

/-- The `ID`s increase from each record to the next. -/
def Increasing (store : Store) : Prop :=
  store.ids.Pairwise (· < ·)

theorem corruptionFrom?_eq_none_iff {place : Nat} {seen : List Int64} {records : List Record} :
    corruptionFrom? schema place seen records = none ↔
      (∀ record ∈ records, record.conforms schema = true) ∧
        (∀ id ∈ records.filterMap Record.id?, 0 < id ∧ id ∉ seen) ∧
        (records.filterMap Record.id?).Nodup := by
  induction records generalizing place seen with
  | nil => simp [corruptionFrom?]
  | cons record rest ih =>
      by_cases conforms : record.conforms schema = true
      · rcases Record.exists_id_of_conforms conforms with ⟨id, present⟩
        rw [List.filterMap_cons_some present, List.forall_mem_cons, List.forall_mem_cons,
          List.nodup_cons]
        simp only [corruptionFrom?, conforms, present, Bool.not_true, Bool.false_eq_true,
          if_false, true_and]
        by_cases positive : 0 < id
        · rw [if_neg (by rwa [Int64.not_le])]
          by_cases known : id ∈ seen
          · simp [known]
          · rw [if_neg known, ih]
            simp only [List.mem_cons, not_or, positive, known, not_false_eq_true, true_and]
            constructor
            · rintro ⟨fit, fresh, distinct⟩
              refine ⟨fit, fun other other_mem => ?_, fun again => ?_, distinct⟩
              · exact ⟨(fresh other other_mem).1, (fresh other other_mem).2.2⟩
              · exact (fresh id again).2.1 rfl
            · rintro ⟨fit, fresh, new, distinct⟩
              refine ⟨fit, fun other other_mem => ⟨(fresh other other_mem).1, ?_, ?_⟩, distinct⟩
              · intro same
                exact new (same ▸ other_mem)
              · exact (fresh other other_mem).2
        · rw [if_pos (by rwa [← Int64.not_lt])]
          simp [positive]
      · simp [corruptionFrom?, conforms]

/-- Exactly the valid stores are accepted. -/
theorem validate_eq_ok_iff : store.validate table schema = .ok () ↔ store.Valid schema := by
  have accepted : store.validate table schema = .ok () ↔
      corruptionFrom? schema 0 [] store.records = none := by
    rw [validate]
    cases corruptionFrom? schema 0 [] store.records <;> simp
  rw [accepted, corruptionFrom?_eq_none_iff]
  constructor
  · rintro ⟨conforms, fresh, distinct⟩
    exact ⟨conforms, fun id id_mem => (fresh id id_mem).1, distinct⟩
  · rintro ⟨conforms, positive, distinct⟩
    exact ⟨conforms, fun id id_mem => ⟨positive id id_mem, List.not_mem_nil⟩, distinct⟩

theorem valid_empty : Store.empty.Valid schema :=
  ⟨by simp [empty], by simp [empty, ids], by simp [empty, ids]⟩

/-- In a valid store every record has an `ID`. -/
theorem Valid.map_id? (valid : store.Valid schema) :
    store.records.map Record.id? = store.ids.map some := by
  have present : ∀ record ∈ store.records, ∃ id, record.id? = some id :=
    fun record record_mem => Record.exists_id_of_conforms (valid.conforms record record_mem)
  rw [ids]
  generalize store.records = records at present
  induction records with
  | nil => rfl
  | cons record rest ih =>
      rcases present record List.mem_cons_self with ⟨id, found⟩
      rw [List.filterMap_cons_some found, List.map_cons, List.map_cons, found,
        ih fun other other_mem => present other (List.mem_cons_of_mem _ other_mem)]

/-! ## The next `ID` -/

theorem le_largestFrom (start : Int64) (numbers : List Int64) :
    start ≤ largestFrom start numbers ∧ ∀ number ∈ numbers, number ≤ largestFrom start numbers := by
  induction numbers generalizing start with
  | nil => simp [largestFrom]
  | cons number rest ih =>
      rw [largestFrom, List.foldl_cons]
      have above := ih (if start < number then number else start)
      rw [largestFrom] at above
      by_cases less : start < number
      · rw [if_pos less] at above ⊢
        refine ⟨Int64.le_trans (Int64.le_of_lt less) above.1, ?_⟩
        exact List.forall_mem_cons.mpr above
      · rw [if_neg less] at above ⊢
        refine ⟨above.1, List.forall_mem_cons.mpr ⟨?_, above.2⟩⟩
        exact Int64.le_trans (Int64.not_lt.mp less) above.1

theorem largestFrom_mem (start : Int64) (numbers : List Int64) :
    largestFrom start numbers ∈ start :: numbers := by
  induction numbers generalizing start with
  | nil => simp [largestFrom]
  | cons number rest ih =>
      rw [largestFrom, List.foldl_cons]
      have found := ih (if start < number then number else start)
      rw [largestFrom] at found
      by_cases less : start < number
      · rw [if_pos less] at found ⊢
        exact List.mem_cons_of_mem _ found
      · rw [if_neg less] at found ⊢
        rcases List.mem_cons.mp found with same | later
        · rw [same]
          exact List.mem_cons_self
        · exact List.mem_cons_of_mem _ (List.mem_cons_of_mem _ later)

/-- The largest `ID` present. -/
structure Largest (store : Store) (id : Int64) : Prop where
  present : id ∈ store.ids
  upper : ∀ other ∈ store.ids, other ≤ id

section NextId

variable {id : Int64}

theorem Largest.unique {other : Int64} (largest : store.Largest id)
    (again : store.Largest other) : other = id :=
  Int64.le_antisymm (largest.upper other again.present) (again.upper id largest.present)

theorem not_largest_of_ids_eq_nil (none : store.ids = []) : ¬store.Largest id := by
  intro largest
  have present := largest.present
  rw [none] at present
  cases present

theorem largestId?_cases :
    (store.ids = [] ∧ store.largestId? = none) ∨
      ∃ largest, store.Largest largest ∧ store.largestId? = some largest := by
  rw [largestId?]
  cases present : store.ids with
  | nil => exact .inl ⟨rfl, rfl⟩
  | cons first rest =>
      have bound := le_largestFrom first rest
      refine .inr ⟨largestFrom first rest, ⟨?_, ?_⟩, rfl⟩
      · rw [present]
        exact largestFrom_mem first rest
      · rw [present, List.forall_mem_cons]
        exact bound

theorem toInt_add_one_of_lt (below : id < Int64.maxValue) :
    (id + 1).toInt = id.toInt + 1 := by
  have bounded := id.le_toInt
  rw [Int64.lt_iff_toInt_lt, Int64.toInt_maxValue] at below
  rw [Int64.toInt_add, Int64.toInt_one]
  apply Int.bmod_eq_of_le <;> omega

theorem Largest.lt_add_one (largest : store.Largest id) (below : id < Int64.maxValue) :
    ∀ other ∈ store.ids, other < id + 1 := by
  intro other other_mem
  have upper := largest.upper other other_mem
  rw [Int64.le_iff_toInt_le] at upper
  rw [Int64.lt_iff_toInt_lt, toInt_add_one_of_lt below]
  omega

/-- There is a next `ID` unless the largest present is the largest there is. -/
theorem nextId_cases :
    (store.ids = [] ∧ store.nextId = .ok 1) ∨
      (∃ largest, store.Largest largest ∧ largest < Int64.maxValue ∧
        store.nextId = .ok (largest + 1)) ∨
      (store.Largest Int64.maxValue ∧ store.nextId = .error (.noIdLeft Int64.maxValue)) := by
  rcases largestId?_cases with ⟨none, known⟩ | ⟨largest, found, known⟩
  · exact .inl ⟨none, by rw [nextId, known]⟩
  · have next : store.nextId =
        if largest = Int64.maxValue then .error (.noIdLeft largest) else .ok (largest + 1) := by
      rw [nextId, known]
    by_cases last : largest = Int64.maxValue
    · subst last
      exact .inr (.inr ⟨found, next.trans (if_pos rfl)⟩)
    · have below := Int64.lt_of_le_of_ne (Int64.le_maxValue largest) last
      exact .inr (.inl ⟨largest, found, below, next.trans (if_neg last)⟩)

/-- The next `ID` is positive and exceeds every `ID` present, when those are positive. -/
theorem lt_nextId (next : store.nextId = .ok id) (positive : ∀ other ∈ store.ids, 0 < other) :
    0 < id ∧ ∀ other ∈ store.ids, other < id := by
  rcases nextId_cases with ⟨none, first⟩ | ⟨largest, found, below, follows⟩ | ⟨-, failed⟩
  · cases next.symm.trans first
    exact ⟨by decide, by simp [none]⟩
  · cases next.symm.trans follows
    have above := found.lt_add_one below
    have present := found.present
    exact ⟨Int64.lt_trans (positive largest present) (above largest present), above⟩
  · cases next.symm.trans failed

end NextId

/-! ## What inserts, updates and deletes keep -/

theorem attemptInsert_eq_ok_iff {values : List Value} {extended : Store} {id : Int64} :
    store.attemptInsert schema values = (extended, .ok id) ↔
      values.length = schema.dataColumns.size ∧
        values.map Value.type = schema.dataColumns.entries.map Prod.snd ∧
          store.nextId = .ok id ∧
            extended = ⟨store.records ++ [newRecord schema id values]⟩ := by
  rw [attemptInsert]
  by_cases enough : values.length = schema.dataColumns.size
  · rw [if_neg (not_not_intro enough), ← firstMismatch?_eq_none_iff enough]
    cases firstMismatch? schema.dataColumns.entries values with
    | some mismatch => simp
    | none =>
        cases store.nextId with
        | error error => simp
        | ok next =>
            simp only [Except.ok.injEq, Prod.mk.injEq, enough, true_and]
            constructor
            · rintro ⟨rfl, rfl⟩
              exact ⟨rfl, rfl⟩
            · rintro ⟨rfl, rfl⟩
              exact ⟨rfl, rfl⟩
  · simp [enough]

theorem insert_eq_ok_iff {values : List Value} {extended : Store} {id : Int64} :
    store.insert schema values = .ok (extended, id) ↔
      values.length = schema.dataColumns.size ∧
        values.map Value.type = schema.dataColumns.entries.map Prod.snd ∧
          store.nextId = .ok id ∧
            extended = ⟨store.records ++ [newRecord schema id values]⟩ :=
  completed_eq_ok_iff.trans attemptInsert_eq_ok_iff

theorem isEmpty_iff : store.isEmpty = true ↔ store = empty := by
  rw [isEmpty, List.isEmpty_iff, Store.ext_iff, empty]

/-- A store into which something was inserted is not empty. -/
theorem isEmpty_insert {values : List Value} {extended : Store} {id : Int64}
    (inserted : store.insert schema values = .ok (extended, id)) : extended.isEmpty = false := by
  rcases insert_eq_ok_iff.mp inserted with ⟨-, -, -, rfl⟩
  simp [isEmpty]

/-- One way to alter the records of a table that its schema allows. -/
inductive Edit (table : String) (schema : Schema) (store : Store) : Store → Prop
  | insert {values : List Value} {extended : Store} {id : Int64}
      (inserted : store.insert schema values = .ok (extended, id)) : Edit table schema store extended
  | update {set : SetClause} {predicate : Predicate} (allowed : set.check table schema = .ok ()) :
      Edit table schema store (store.update set predicate).1
  | delete {predicate : Predicate} : Edit table schema store (store.delete predicate).1

theorem ids_insert {values : List Value} {extended : Store} {id : Int64}
    (inserted : store.insert schema values = .ok (extended, id)) :
    extended.ids = store.ids ++ [id] := by
  rcases insert_eq_ok_iff.mp inserted with ⟨enough, -, -, rfl⟩
  simp [ids, id?_newRecord enough]

theorem ids_update {set : SetClause} (allowed : set.check table schema = .ok ())
    (predicate : Predicate) : (store.update set predicate).1.ids = store.ids := by
  simp only [ids, update, List.filterMap_map]
  apply List.filterMap_congr
  intro record _
  by_cases accepted : predicate.accepts record = true
  · simp [accepted, SetClause.id?_apply_of_check allowed]
  · simp [accepted]

theorem ids_delete_sublist (predicate : Predicate) :
    (store.delete predicate).1.ids.Sublist store.ids :=
  List.Sublist.filterMap Record.id? List.filter_sublist

theorem Valid.insert (valid : store.Valid schema) {values : List Value} {extended : Store}
    {id : Int64} (inserted : store.insert schema values = .ok (extended, id)) :
    extended.Valid schema := by
  have sameIds := ids_insert inserted
  rcases insert_eq_ok_iff.mp inserted with ⟨enough, typed, next, rfl⟩
  have above := lt_nextId next valid.positive
  refine ⟨?_, ?_, ?_⟩
  · rw [List.forall_mem_append, List.forall_mem_singleton]
    exact ⟨valid.conforms, conforms_newRecord enough typed⟩
  · rw [sameIds, List.forall_mem_append, List.forall_mem_singleton]
    exact ⟨valid.positive, above.1⟩
  · rw [sameIds, List.nodup_append]
    refine ⟨valid.distinct, by simp, ?_⟩
    intro old old_mem new new_mem same
    rw [List.mem_singleton] at new_mem
    subst same new_mem
    exact Int64.lt_irrefl (above.2 old old_mem)

theorem Valid.update (valid : store.Valid schema) {set : SetClause}
    (allowed : set.check table schema = .ok ()) (predicate : Predicate) :
    (store.update set predicate).1.Valid schema := by
  have sameIds : (store.update set predicate).1.ids = store.ids := ids_update allowed predicate
  refine ⟨?_, sameIds ▸ valid.positive, sameIds ▸ valid.distinct⟩
  intro record record_mem
  rcases List.mem_map.mp record_mem with ⟨old, old_mem, rfl⟩
  have conforms := valid.conforms old old_mem
  by_cases accepted : predicate.accepts old = true
  · rw [if_pos accepted]
    exact SetClause.conforms_apply allowed conforms
  · rw [if_neg accepted]
    exact conforms

theorem Valid.delete (valid : store.Valid schema) (predicate : Predicate) :
    (store.delete predicate).1.Valid schema where
  conforms record record_mem := valid.conforms record (List.mem_of_mem_filter record_mem)
  positive id id_mem := valid.positive id ((ids_delete_sublist predicate).subset id_mem)
  distinct := (ids_delete_sublist predicate).nodup valid.distinct

theorem Edit.valid {edited : Store} (edit : Edit table schema store edited)
    (valid : store.Valid schema) : edited.Valid schema := by
  cases edit with
  | insert inserted => exact valid.insert inserted
  | update allowed => exact valid.update allowed _
  | delete => exact valid.delete _

theorem Edit.increasing {edited : Store} (edit : Edit table schema store edited)
    (valid : store.Valid schema) (increasing : store.Increasing) : edited.Increasing := by
  cases edit with
  | insert inserted =>
      have sameIds := ids_insert inserted
      have above := lt_nextId (insert_eq_ok_iff.mp inserted).2.2.1 valid.positive
      rw [Increasing, sameIds, List.pairwise_append]
      refine ⟨increasing, by simp, ?_⟩
      intro old old_mem new new_mem
      rw [List.mem_singleton.mp new_mem]
      exact above.2 old old_mem
  | update allowed =>
      rw [Increasing, ids_update allowed]
      exact increasing
  | delete => exact List.Pairwise.sublist (ids_delete_sublist _) increasing

end Tabula.Store
