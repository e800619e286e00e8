import Tabula.Proofs.Store

/-!
# Deleting

A delete divides a store into the records that its predicate accepts and the others, and keeps the
others. What is asked of the store afterwards is what would have been asked before, without the
records deleted, so that deletes can be made in any order and again without effect. The next `ID`
follows the largest that is left: it only ever falls back, and only if the largest was deleted.
-/

namespace Tabula

/-- The last list is made of the other two, each in its own order. -/
inductive Interleave {Item : Type} : List Item → List Item → List Item → Prop
  | nil : Interleave [] [] []
  | left {item : Item} {first second whole : List Item} (rest : Interleave first second whole) :
      Interleave (item :: first) second (item :: whole)
  | right {item : Item} {first second whole : List Item} (rest : Interleave first second whole) :
      Interleave first (item :: second) (item :: whole)

theorem interleave_filter {Item : Type} (test : Item → Bool) (items : List Item) :
    Interleave (items.filter fun item => !test item) (items.filter test) items := by
  induction items with
  | nil => exact .nil
  | cons item rest ih =>
      cases passed : test item with
      | true =>
          simp only [List.filter_cons, passed, Bool.not_true, Bool.false_eq_true, if_false, if_true]
          exact .right ih
      | false =>
          simp only [List.filter_cons, passed, Bool.not_false, Bool.false_eq_true, if_false,
            if_true]
          exact .left ih

namespace Store

variable {store : Store} {predicate : Predicate} {id : Int64}

/-- What a delete does. -/
structure Deleted (store : Store) (predicate : Predicate) (after : Store) (ids : List Int64) :
    Prop where
  parts : Interleave after.records (store.select (some predicate)) store.records
  kept : ∀ record ∈ after.records, predicate.accepts record = false
  accepted : ∀ record ∈ store.select (some predicate), predicate.accepts record = true
  selected : ids = (store.select (some predicate)).filterMap Record.id?
  again : after.delete predicate = (after, [])
  inAnyOrder : ∀ other, (after.delete other).1 = ((store.delete other).1.delete predicate).1
  asked : ∀ question, after.select question =
    (store.select question).filter fun record => !predicate.accepts record
  valid : ∀ table schema, store.validate table schema = .ok () →
    after.validate table schema = .ok ()
  /-- The next `ID` does not rise. -/
  next_le : ∀ table schema before later, store.validate table schema = .ok () →
    store.nextId = .ok before → after.nextId = .ok later → later ≤ before
  /-- The next `ID` stays unless a record with the largest `ID` was deleted. -/
  next_eq : (∀ record ∈ store.records, ∀ largest, store.Largest largest →
    record.id? = some largest → predicate.accepts record = false) → after.nextId = store.nextId

/-! ## The records left -/

theorem mem_delete_iff {record : Record} :
    record ∈ (store.delete predicate).1.records ↔
      record ∈ store.records ∧ predicate.accepts record = false := by
  simp [delete]

theorem delete_delete :
    (store.delete predicate).1.delete predicate = ((store.delete predicate).1, []) := by
  simp [delete, List.filter_filter]

theorem delete_comm (first second : Predicate) :
    ((store.delete first).1.delete second).1 = ((store.delete second).1.delete first).1 := by
  apply Store.ext
  simp only [delete]
  apply List.filter_comm

theorem select_delete (question : Option Predicate) :
    (store.delete predicate).1.select question =
      (store.select question).filter fun record => !predicate.accepts record := by
  cases question with
  | none => rfl
  | some other =>
      simp only [select, delete]
      apply List.filter_comm

/-! ## The next `ID` -/

theorem nextId_congr {other : Store} (sameLargest : other.largestId? = store.largestId?) :
    other.nextId = store.nextId := by
  rw [nextId, nextId, sameLargest]

theorem largestId?_of_largest (largest : store.Largest id) : store.largestId? = some id := by
  rcases largestId?_cases with ⟨none, -⟩ | ⟨other, found, known⟩
  · exact absurd largest (not_largest_of_ids_eq_nil none)
  · rw [known, largest.unique found]

theorem largestId?_of_ids_eq_nil (none : store.ids = []) : store.largestId? = Option.none := by
  rw [largestId?, none]

theorem largest_delete (largest : store.Largest id)
    (spared : ∀ record ∈ store.records, record.id? = some id → predicate.accepts record = false) :
    (store.delete predicate).1.Largest id := by
  constructor
  · rcases List.mem_filterMap.mp largest.present with ⟨record, record_mem, identified⟩
    apply List.mem_filterMap.mpr
    exact ⟨record, mem_delete_iff.mpr ⟨record_mem, spared record record_mem identified⟩, identified⟩
  · intro other other_mem
    exact largest.upper other ((ids_delete_sublist predicate).subset other_mem)

theorem nextId_delete_of_spared (spared : ∀ record ∈ store.records, ∀ largest,
      store.Largest largest → record.id? = some largest → predicate.accepts record = false) :
    (store.delete predicate).1.nextId = store.nextId := by
  apply nextId_congr
  rcases @largestId?_cases store with ⟨none, known⟩ | ⟨largest, found, known⟩
  · have noneLeft : (store.delete predicate).1.ids = [] := by
      apply List.sublist_nil.mp
      rw [← none]
      exact ids_delete_sublist predicate
    rw [known, largestId?_of_ids_eq_nil noneLeft]
  · have left := largest_delete found fun record record_mem =>
      spared record record_mem largest found
    rw [known, largestId?_of_largest left]

/-- The next `ID` is the least that is positive and exceeds every `ID` present. -/
theorem nextId_le {bound : Int64} (next : store.nextId = .ok id) (positive : 0 < bound)
    (above : ∀ other ∈ store.ids, other < bound) : id ≤ bound := by
  rcases nextId_cases with ⟨-, first⟩ | ⟨largest, found, below, follows⟩ | ⟨-, failed⟩
  · cases next.symm.trans first
    rw [Int64.lt_iff_toInt_lt, Int64.toInt_zero] at positive
    rw [Int64.le_iff_toInt_le, Int64.toInt_one]
    omega
  · cases next.symm.trans follows
    have exceeded := above largest found.present
    rw [Int64.lt_iff_toInt_lt] at exceeded
    rw [Int64.le_iff_toInt_le, toInt_add_one_of_lt below]
    omega
  · cases next.symm.trans failed

theorem nextId_delete_le {before later : Int64} (positive : ∀ other ∈ store.ids, 0 < other)
    (next : store.nextId = .ok before)
    (nextLater : (store.delete predicate).1.nextId = .ok later) : later ≤ before := by
  have bound := lt_nextId next positive
  apply nextId_le nextLater bound.1
  intro other other_mem
  exact bound.2 other ((ids_delete_sublist predicate).subset other_mem)

/-! ## What a delete does -/

theorem delete_deleted (store : Store) (predicate : Predicate) :
    store.Deleted predicate (store.delete predicate).1 (store.delete predicate).2 where
  parts := interleave_filter predicate.accepts store.records
  kept _ record_mem := (mem_delete_iff.mp record_mem).2
  accepted _ record_mem := (List.mem_filter.mp record_mem).2
  selected := rfl
  again := delete_delete
  inAnyOrder other := delete_comm predicate other
  asked := select_delete
  valid _ _ accepted :=
    validate_eq_ok_iff.mpr ((validate_eq_ok_iff.mp accepted).delete predicate)
  next_le _ _ _ _ accepted next nextLater :=
    nextId_delete_le (validate_eq_ok_iff.mp accepted).positive next nextLater
  next_eq := nextId_delete_of_spared

end Store

end Tabula
