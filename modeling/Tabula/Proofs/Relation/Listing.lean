import Tabula.Proofs.OrderedMap
import Tabula.Proofs.Relation

/-!
# Stores that list relations

A store lists a relation when its records are the relation's tuples by increasing `ID`, each with
its columns in the schema's order. Inserting, selecting, updating and deleting do to the store what
they do to the relation, and refuse for the same reasons.
-/

namespace Tabula

theorem zip_map_zip {α β γ : Type} (change : α × β → γ) (left : List α) (right : List β) :
    left.zip ((left.zip right).map change) =
      (left.zip right).map fun pair => (pair.1, change pair) := by
  induction left generalizing right with
  | nil => rfl
  | cons first left ih =>
      cases right with
      | nil => rfl
      | cons second right => simp [ih]

/-! ## `ID`s as integers -/

theorem toInt_idNumber {id : ℕ+} (inRange : (id : ℕ) ≤ maxId) :
    (idNumber id).toInt = (id : ℕ) := by
  rw [maxId] at inRange
  rw [idNumber, Int64.toInt_ofNat_of_lt]
  omega

theorem toInt_maxValue_eq : Int64.maxValue.toInt = (maxId : ℤ) := by
  decide

/-! ## One record -/

namespace Relation

variable {relation : Relation} {id : ℕ+} {tuple : Tuple}

theorem entries_record (full : tuple.length = relation.schema.dataColumns.size) :
    (relation.record (id, tuple)).entries =
      (idColumn, .int (idNumber id)) :: relation.schema.dataColumns.keys.zip tuple :=
  Store.entries_newRecord full

theorem get?_record (full : tuple.length = relation.schema.dataColumns.size) (column : String) :
    (relation.record (id, tuple)).get? column = relation.value? id tuple column := by
  rw [OrderedMap.get?, entries_record full, OrderedMap.lookup, value?]
  by_cases same : idColumn = column
  · rw [if_pos same, if_pos same.symm]
  · rw [if_neg same, if_neg (Ne.symm same)]

/-- A record is accepted if and only if its tuple satisfies the predicate. -/
theorem accepts_record (full : tuple.length = relation.schema.dataColumns.size)
    (predicate : Predicate) :
    predicate.accepts (relation.record (id, tuple)) = relation.satisfies predicate id tuple := by
  rw [Predicate.accepts, satisfies]
  congr 1
  funext condition
  rw [get?_record full, Bool.beq_eq_decide_eq]

theorem id?_record (full : tuple.length = relation.schema.dataColumns.size) :
    (relation.record (id, tuple)).id? = some (idNumber id) :=
  Store.id?_newRecord full

theorem length_overwrite (full : tuple.length = relation.schema.dataColumns.size)
    (set : SetClause) :
    (relation.overwrite set tuple).length = relation.schema.dataColumns.size := by
  simp [overwrite, OrderedMap.keys, OrderedMap.size, full]

/-- Overwriting columns of a record overwrites the components of its tuple. -/
theorem apply_record (full : tuple.length = relation.schema.dataColumns.size) {set : SetClause}
    {table : String} (allowed : set.check table relation.schema = .ok ())
    (conforms : (relation.record (id, tuple)).conforms relation.schema = true) :
    set.apply (relation.record (id, tuple)) =
      relation.record (id, relation.overwrite set tuple) := by
  have fullAfter := length_overwrite full set
  have sameKeys := SetClause.keys_apply allowed conforms
  refine OrderedMap.ext_of_get? ?_ ?_
  · rw [sameKeys, OrderedMap.keys, OrderedMap.keys, entries_record full, entries_record fullAfter,
      overwrite, zip_map_zip, List.map_cons, List.map_cons, List.map_map]
    rfl
  · intro column column_mem
    rw [sameKeys] at column_mem
    rcases OrderedMap.mem_keys_iff.mp column_mem with ⟨value, held⟩
    rw [SetClause.get?_apply, held, get?_record fullAfter]
    rw [get?_record full, value?] at held
    rw [value?]
    by_cases same : column = idColumn
    · rw [if_pos same] at held ⊢
      rw [same, SetClause.get?_idColumn_of_check allowed, Option.none_or, held]
    · rw [if_neg same] at held ⊢
      rw [overwrite, zip_map_zip, OrderedMap.lookup_map fun column value =>
        (set.assignments.get? column).getD value, held]
      cases set.assignments.get? column <;> rfl

theorem filterMap_id?_records {entries : List (ℕ+ × Tuple)}
    (full : ∀ entry ∈ entries, entry.2.length = relation.schema.dataColumns.size) :
    (entries.map relation.record).filterMap Record.id? =
      entries.map fun entry => idNumber entry.1 := by
  rw [List.filterMap_map, ← List.filterMap_eq_map]
  apply List.filterMap_congr
  intro entry entry_mem
  exact id?_record (full entry entry_mem)

theorem filter_accepts_records {entries : List (ℕ+ × Tuple)}
    (full : ∀ entry ∈ entries, entry.2.length = relation.schema.dataColumns.size)
    (predicate : Predicate) :
    (entries.map relation.record).filter predicate.accepts =
      (entries.filter fun entry => relation.satisfies predicate entry.1 entry.2).map
        relation.record := by
  rw [List.filter_map]
  congr 1
  apply List.filter_congr
  intro entry entry_mem
  exact accepts_record (full entry entry_mem) predicate

/-- The first objection to a set clause is the error for which it is refused. -/
theorem check_eq (set : SetClause) (table : String) :
    set.check table relation.schema =
      match set.assignments.entries.findSome? (relation.objection? table) with
      | none => .ok ()
      | some error => .error error := by
  have sameObjection : ∀ assignments, assignmentError? table relation.schema assignments =
      assignments.findSome? (relation.objection? table) := by
    intro assignments
    induction assignments with
    | nil => rfl
    | cons assignment rest ih =>
        rw [assignmentError?, List.findSome?_cons, objection?, ih]
        by_cases id : assignment.1 = idColumn
        · rw [if_pos id, if_pos id]
        · rw [if_neg id, if_neg id]
          cases relation.schema.columnType? assignment.1 with
          | none => rfl
          | some type =>
              by_cases typed : assignment.2.type = type
              · simp only [if_pos typed]
              · simp only [if_neg typed]
  rw [← sameObjection]
  rfl

end Relation

/-! ## Whole stores -/

/-- The records of a store are the tuples of a relation, by increasing `ID`. -/
structure Store.Lists (store : Store) (relation : Relation) : Prop where
  records : store.records = relation.tuples.listed.map relation.record
  full : ∀ entry ∈ relation.tuples.listed, entry.2.length = relation.schema.dataColumns.size
  inRange : ∀ id ∈ relation.tuples.ids, (id : ℕ) ≤ maxId

namespace Store.Lists

variable {store : Store} {relation : Relation} {table : String}

theorem empty (schema : Schema) : Store.empty.Lists ⟨schema, .empty⟩ where
  records := by rw [Tuples.listed_empty]; rfl
  full := by simp [Tuples.listed_empty]
  inRange := by simp [Tuples.empty]

theorem size_eq (lists : store.Lists relation) : store.size = relation.tuples.size := by
  rw [size, lists.records, List.length_map, Tuples.length_listed]

theorem ids_eq (lists : store.Lists relation) :
    store.ids = relation.tuples.listed.map fun entry => idNumber entry.1 := by
  rw [ids, lists.records, Relation.filterMap_id?_records lists.full]

theorem select_eq (lists : store.Lists relation) (predicate : Option Predicate) :
    store.select predicate = (relation.select predicate).listed.map relation.record := by
  cases predicate with
  | none => exact lists.records
  | some predicate =>
      rw [Store.select, lists.records, Relation.filter_accepts_records lists.full,
        Relation.select, Tuples.listed_filter]

theorem ids_accepted (lists : store.Lists relation) (predicate : Predicate) :
    (store.records.filter predicate.accepts).filterMap Record.id? =
      relation.matching predicate := by
  have selected := lists.select_eq (some predicate)
  rw [Store.select] at selected
  rw [selected, Relation.matching, Relation.filterMap_id?_records]
  intro entry entry_mem
  rw [Relation.select, Tuples.listed_filter] at entry_mem
  exact lists.full entry (List.mem_of_mem_filter entry_mem)

theorem delete (lists : store.Lists relation) (predicate : Predicate) :
    (store.delete predicate).2 = relation.matching predicate ∧
      (store.delete predicate).1.Lists (relation.delete predicate) := by
  refine ⟨lists.ids_accepted predicate, ?_, ?_, ?_⟩
  · have kept : (store.delete predicate).1.records =
        store.records.filter fun record => !predicate.accepts record := rfl
    rw [kept, lists.records, List.filter_map, Relation.delete, Tuples.listed_filter]
    refine congrArg (List.map relation.record) (List.filter_congr ?_)
    intro entry entry_mem
    exact congrArg not (Relation.accepts_record (lists.full entry entry_mem) predicate)
  · intro entry entry_mem
    rw [Relation.delete, Tuples.listed_filter] at entry_mem
    exact lists.full entry (List.mem_of_mem_filter entry_mem)
  · intro id id_mem
    exact lists.inRange id (Finset.mem_of_mem_filter id id_mem)

theorem update (lists : store.Lists relation) (valid : store.Valid relation.schema)
    {set : SetClause} (allowed : set.check table relation.schema = .ok ())
    (predicate : Predicate) :
    (store.update set predicate).2 = relation.matching predicate ∧
      (store.update set predicate).1.Lists (relation.update set predicate) := by
  refine ⟨?_, ?_, ?_, ?_⟩
  · rw [Store.update, List.filterMap_map, ← lists.ids_accepted predicate]
    apply List.filterMap_congr
    intro record _
    exact SetClause.id?_apply_of_check allowed
  · rw [Store.update, Relation.update, Tuples.listed_map, lists.records, List.map_map,
      List.map_map]
    apply List.map_congr_left
    intro entry entry_mem
    have full := lists.full entry entry_mem
    have conforms : (relation.record entry).conforms relation.schema = true := by
      apply valid.conforms
      rw [lists.records]
      exact List.mem_map_of_mem entry_mem
    simp only [Function.comp_apply, Relation.accepts_record full predicate]
    split
    · exact Relation.apply_record full allowed conforms
    · rfl
  · intro entry entry_mem
    rw [Relation.update, Tuples.listed_map, List.mem_map] at entry_mem
    rcases entry_mem with ⟨old, old_mem, rfl⟩
    dsimp only
    split
    · exact Relation.length_overwrite (lists.full old old_mem) set
    · exact lists.full old old_mem
  · exact lists.inRange

/-! ### Inserting -/

theorem mem_ids_iff (lists : store.Lists relation) {number : Int64} :
    number ∈ store.ids ↔ ∃ id ∈ relation.tuples.ids, idNumber id = number := by
  have numbers : store.ids = (relation.tuples.listed.map Prod.fst).map idNumber := by
    rw [lists.ids_eq, List.map_map]
    rfl
  rw [numbers, Tuples.map_fst_listed, List.mem_map]
  simp only [Finset.mem_sort]

/-- The largest integer in a column of `ID`s stands for the largest `ID`. -/
theorem toInt_of_largest (lists : store.Lists relation) {number : Int64}
    (largest : store.Largest number) : number.toInt = relation.tuples.largestId := by
  rcases lists.mem_ids_iff.mp largest.present with ⟨id, id_mem, same⟩
  rcases relation.tuples.exists_largestId ⟨id, id_mem⟩ with ⟨top, top_mem, top_eq⟩
  have below := largest.upper _ (lists.mem_ids_iff.mpr ⟨top, top_mem, rfl⟩)
  have above := Tuples.le_largestId id_mem
  rw [Int64.le_iff_toInt_le, toInt_idNumber (lists.inRange top top_mem)] at below
  rw [← same, toInt_idNumber (lists.inRange id id_mem)] at below ⊢
  omega

theorem largestId_eq_zero (lists : store.Lists relation) (none : store.ids = []) :
    relation.tuples.largestId = 0 := by
  have none_mem : relation.tuples.ids = ∅ := by
    rw [Finset.eq_empty_iff_forall_notMem]
    intro id id_mem
    have listed := lists.mem_ids_iff.mpr ⟨id, id_mem, rfl⟩
    rw [none] at listed
    cases listed
  rw [Tuples.largestId, none_mem]
  rfl

theorem nextId_eq (lists : store.Lists relation) :
    store.nextId =
      if maxId < relation.tuples.largestId + 1 then
        .error (.noIdLeft (Int64.ofNat relation.tuples.largestId))
      else .ok (idNumber relation.tuples.largestId.succPNat) := by
  rcases @nextId_cases store with ⟨none, first⟩ | ⟨largest, found, below, follows⟩ | ⟨full, failed⟩
  · rw [first, lists.largestId_eq_zero none, if_neg (by decide)]
    rfl
  · have same := lists.toInt_of_largest found
    have room : ¬maxId < relation.tuples.largestId + 1 := by
      rw [Int64.lt_iff_toInt_lt, toInt_maxValue_eq] at below
      omega
    have next : ((relation.tuples.largestId.succPNat : ℕ+) : ℕ) =
        relation.tuples.largestId + 1 := Nat.succPNat_coe _
    rw [follows, if_neg room, Except.ok.injEq, ← Int64.toInt_inj, toInt_add_one_of_lt below, same,
      toInt_idNumber (by omega), next]
    rfl
  · have same := lists.toInt_of_largest full
    have last : relation.tuples.largestId = maxId := by
      rw [toInt_maxValue_eq] at same
      omega
    rw [failed, last, if_pos (Nat.lt_succ_self maxId)]
    rfl

theorem firstMismatch?_eq (columns : List (String × ColumnType)) (values : List Value) :
    firstMismatch? columns values =
      ((columns.zip values).find? fun component => component.2.type ≠ component.1.2).map
        fun component => (component.1.1, component.1.2, component.2) := by
  induction columns generalizing values with
  | nil => rfl
  | cons column rest ih =>
      cases values with
      | nil => rfl
      | cons value values =>
          by_cases typed : value.type = column.2
          · simp [firstMismatch?, typed, ih]
          · simp [firstMismatch?, typed]

/-- An insert is refused for the same reason, or gives the same `ID` and a record of its tuple. -/
theorem insert_eq (lists : store.Lists relation) (values : Tuple) :
    store.insert relation.schema values =
      (relation.insert values).map fun inserted =>
        (⟨store.records ++ [relation.record (inserted.2, values)]⟩, idNumber inserted.2) := by
  rw [Store.insert, Store.attemptInsert, Relation.insert, OrderedMap.size, firstMismatch?_eq,
    lists.nextId_eq]
  by_cases arity : values.length ≠ relation.schema.dataColumns.entries.length
  · rw [if_pos arity, if_pos arity]
    rfl
  · rw [if_neg arity, if_neg arity]
    cases (relation.schema.dataColumns.entries.zip values).find? fun component =>
        component.2.type ≠ component.1.2 with
    | some component => rfl
    | none =>
        dsimp only [Option.map_none]
        by_cases full : maxId < relation.tuples.largestId + 1
        · rw [if_pos full, if_pos full]
          rfl
        · rw [if_neg full, if_neg full]
          rfl

theorem insert (lists : store.Lists relation) {values : Tuple} {extended : Relation} {id : ℕ+}
    (inserted : relation.insert values = .ok (extended, id)) :
    extended.schema = relation.schema ∧
      Lists ⟨store.records ++ [relation.record (id, values)]⟩ extended := by
  rw [Relation.insert] at inserted
  dsimp only at inserted
  split at inserted
  · cases inserted
  · rename_i arity
    split at inserted
    · cases inserted
    · split at inserted
      · cases inserted
      · rename_i room
        cases inserted
        have next : ((relation.tuples.largestId.succPNat : ℕ+) : ℕ) =
            relation.tuples.largestId + 1 := Nat.succPNat_coe _
        have above : ∀ other ∈ relation.tuples.ids, other < relation.tuples.largestId.succPNat := by
          intro other other_mem
          rw [← PNat.coe_lt_coe, next]
          exact Nat.lt_succ_of_le (Tuples.le_largestId other_mem)
        refine ⟨rfl, ?_, ?_, ?_⟩
        · rw [Tuples.listed_insert above, List.map_append, lists.records]
          rfl
        · rw [Tuples.listed_insert above, List.forall_mem_append, List.forall_mem_singleton]
          exact ⟨lists.full, not_not.mp arity⟩
        · intro other other_mem
          rcases Finset.mem_insert.mp other_mem with rfl | old
          · omega
          · exact lists.inRange other old

/-! ### Changing nothing -/

theorem filter_accepts_eq_nil (lists : store.Lists relation) {predicate : Predicate}
    (unmatched : relation.matching predicate = []) :
    store.records.filter predicate.accepts = [] := by
  have selected := lists.select_eq (some predicate)
  rw [Relation.matching, List.map_eq_nil_iff] at unmatched
  rwa [unmatched, List.map_nil] at selected

theorem update_eq_self (lists : store.Lists relation) (set : SetClause) {predicate : Predicate}
    (unmatched : relation.matching predicate = []) : (store.update set predicate).1 = store := by
  have none := List.filter_eq_nil_iff.mp (lists.filter_accepts_eq_nil unmatched)
  refine Store.ext ?_
  rw [Store.update]
  dsimp only
  conv_rhs => rw [← List.map_id store.records]
  apply List.map_congr_left
  intro record record_mem
  rw [if_neg (none record record_mem), id]

theorem delete_eq_self (lists : store.Lists relation) {predicate : Predicate}
    (unmatched : relation.matching predicate = []) : (store.delete predicate).1 = store := by
  have none := List.filter_eq_nil_iff.mp (lists.filter_accepts_eq_nil unmatched)
  refine Store.ext ?_
  rw [Store.delete]
  dsimp only
  rw [List.filter_eq_self]
  intro record record_mem
  rw [Bool.not_eq_true', Bool.eq_false_iff]
  exact none record record_mem

end Store.Lists

end Tabula
