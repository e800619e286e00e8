import Mathlib.Data.Finset.Card
import Mathlib.Data.List.Forall2
import Mathlib.Data.List.Induction
import Tabula.Proofs.OrderedMap
import Tabula.Proofs.Value.Literal
import Tabula.SelectCache

/-!
# The log of a select cache

What is kept in a cache can be told from the log of what was done to it: under each selection, the
records of the last insertion that neither a clearing nor an invalidation of the selection's table
follows. The size of the cache is the number of selections with such an insertion. Selections are
the same only if nothing in them differs: the table, whether there is a predicate, and what it asks
for, in its order.
-/

namespace Tabula

/-! ## Selections -/

namespace Selection

/-- What a selection asks for, in order. -/
def conditions (selection : Selection) : List (String × Value) :=
  match selection.predicate with
  | none => []
  | some predicate => predicate.conditions.entries

/-- Two selections agree in all that they show. -/
structure Alike (left right : Selection) : Prop where
  sameTable : left.table = right.table
  /-- A predicate without conditions is still a predicate. -/
  samePresence : left.predicate.isSome = right.predicate.isSome
  /-- One by one, the conditions ask for values of the same type and text in the same column. -/
  sameConditions : List.Forall₂
    (fun first second => first.1 = second.1 ∧ first.2.type = second.2.type ∧
      first.2.display = second.2.display) left.conditions right.conditions

theorem eq_iff_alike {left right : Selection} : left = right ↔ left.Alike right := by
  constructor
  · rintro rfl
    exact ⟨rfl, rfl, List.forall₂_same.mpr fun _ _ => ⟨rfl, rfl, rfl⟩⟩
  · rintro ⟨sameTable, samePresence, sameConditions⟩
    have same : left.conditions = right.conditions := by
      rw [← List.forall₂_eq_eq_eq]
      refine sameConditions.imp ?_
      intro first second ⟨sameColumn, sameType, sameText⟩
      exact Prod.ext sameColumn (Value.eq_of_display sameType sameText)
    rcases left with ⟨table, _ | predicate⟩ <;> rcases right with ⟨other, _ | asked⟩
    · cases sameTable
      rfl
    · cases samePresence
    · cases samePresence
    · cases sameTable
      have samePredicate : predicate = asked := Predicate.ext (OrderedMap.ext same)
      rw [samePredicate]

end Selection

namespace SelectCache

inductive Operation
  | insert (selection : Selection) (records : List Record)
  | invalidate (table : String)
  | clear

/-- The operations on which it depends what is kept under a selection. -/
inductive Operation.Concerns (selection : Selection) : Operation → Prop
  | insert (records : List Record) : Concerns selection (.insert selection records)
  | invalidate : Concerns selection (.invalidate selection.table)
  | clear : Concerns selection .clear

def apply (cache : SelectCache) : Operation → SelectCache
  | .insert selection records => cache.insert selection records
  | .invalidate table => cache.invalidate table
  | .clear => cache.clear

/-- The cache after the operations of a log, oldest first. -/
def replay (log : List Operation) : SelectCache :=
  log.foldl apply empty

/-- The last insertion under a selection is of these records, and neither a clearing nor an
invalidation of the selection's table follows it. -/
def LastInserted (log : List Operation) (selection : Selection) (records : List Record) : Prop :=
  ∃ before after, log = before ++ .insert selection records :: after ∧
    ∀ operation ∈ after, ¬operation.Concerns selection

/-- A cache holds what its log tells, and counts it. -/
structure TrueTo (log : List Operation) (cache : SelectCache) : Prop where
  kept : ∀ selection records,
    cache.get? selection = some records ↔ LastInserted log selection records
  notKept : ∀ selection,
    cache.get? selection = none ↔ ∀ records, ¬LastInserted log selection records
  counted : ∃ selections : Finset Selection, selections.card = cache.size ∧
    ∀ selection, selection ∈ selections ↔ (cache.get? selection).isSome = true
  empty_iff_size : cache.isEmpty = true ↔ cache.size = 0
  empty_iff : cache.isEmpty = true ↔ ∀ selection, cache.get? selection = none

/-! ## One operation -/

section

variable {cache : SelectCache} {log : List Operation} {operation : Operation}
  {selection : Selection} {records : List Record}

theorem get?_insert (cache : SelectCache) (selection other : Selection) (records : List Record) :
    (cache.insert selection records).get? other =
      if selection = other then some records else cache.get? other :=
  cache.entries.get?_insert selection other records

theorem get?_invalidate (cache : SelectCache) (table : String) (selection : Selection) :
    (cache.invalidate table).get? selection =
      if selection.table = table then none else cache.get? selection := by
  rw [get?, invalidate, OrderedMap.get?_filter]
  by_cases same : selection.table = table
  · simp [same]
  · cases remembered : cache.entries.get? selection <;> simp [same, get?, remembered]

@[simp]
theorem concerns_insert_iff {other : Selection} :
    (Operation.insert other records).Concerns selection ↔ other = selection := by
  constructor
  · rintro ⟨⟩
    rfl
  · rintro rfl
    exact .insert records

@[simp]
theorem concerns_invalidate_iff {table : String} :
    (Operation.invalidate table).Concerns selection ↔ selection.table = table := by
  constructor
  · rintro ⟨⟩
    rfl
  · rintro rfl
    exact .invalidate

@[simp]
theorem concerns_clear : Operation.clear.Concerns selection :=
  .clear

/-- What is kept after an operation was inserted by it, or was kept before and is not concerned. -/
theorem get?_apply_eq_some_iff :
    (cache.apply operation).get? selection = some records ↔
      operation = .insert selection records ∨
        ¬operation.Concerns selection ∧ cache.get? selection = some records := by
  cases operation with
  | insert other inserted =>
      rw [apply, get?_insert]
      by_cases same : other = selection <;> simp [same]
  | invalidate table =>
      rw [apply, get?_invalidate]
      by_cases same : selection.table = table <;> simp [same]
  | clear => simp [apply, clear, empty, get?]

theorem lastInserted_concat_iff :
    LastInserted (log ++ [operation]) selection records ↔
      operation = .insert selection records ∨
        ¬operation.Concerns selection ∧ LastInserted log selection records := by
  constructor
  · rintro ⟨before, after, whole, unconcerned⟩
    rcases List.eq_nil_or_concat after with rfl | ⟨between, last, rfl⟩
    · rw [List.append_singleton_inj] at whole
      exact .inl whole.2
    · rw [List.concat_eq_append] at whole unconcerned
      rw [← List.cons_append, ← List.append_assoc, List.append_singleton_inj] at whole
      rcases whole with ⟨rfl, rfl⟩
      rw [List.forall_mem_append, List.forall_mem_singleton] at unconcerned
      exact .inr ⟨unconcerned.2, before, between, rfl, unconcerned.1⟩
  · rintro (rfl | ⟨unconcerned, before, after, rfl, others⟩)
    · exact ⟨log, [], rfl, by simp⟩
    · refine ⟨before, after ++ [operation], by simp, ?_⟩
      rw [List.forall_mem_append, List.forall_mem_singleton]
      exact ⟨others, unconcerned⟩

end

/-! ## Logs -/

/-- What is kept is what was inserted last and is not forgotten, by induction on the log from its
end. -/
theorem get?_replay_eq_some_iff {log : List Operation} {selection : Selection}
    {records : List Record} :
    (replay log).get? selection = some records ↔ LastInserted log selection records := by
  induction log using List.reverseRecOn with
  | nil => simp [replay, empty, get?, LastInserted]
  | append_singleton log operation ih =>
      rw [replay, List.foldl_append, List.foldl_cons, List.foldl_nil, ← replay,
        get?_apply_eq_some_iff, ih, lastInserted_concat_iff]

theorem isEmpty_iff_size_eq_zero {cache : SelectCache} :
    cache.isEmpty = true ↔ cache.size = 0 := by
  rw [isEmpty, OrderedMap.isEmpty, List.isEmpty_iff, size, OrderedMap.size, List.length_eq_zero_iff]

theorem isEmpty_iff_get? {cache : SelectCache} :
    cache.isEmpty = true ↔ ∀ selection, cache.get? selection = none := by
  have nothing : cache.isEmpty = true ↔ cache.entries.keys = [] := by
    rw [isEmpty, OrderedMap.isEmpty, List.isEmpty_iff, OrderedMap.keys, List.map_eq_nil_iff]
  rw [nothing, List.eq_nil_iff_forall_not_mem]
  exact forall_congr' fun _ => OrderedMap.get?_eq_none_iff.symm

/-- A cache has as many entries as there are selections under which something is kept. -/
theorem exists_card_eq_size (cache : SelectCache) :
    ∃ selections : Finset Selection, selections.card = cache.size ∧
      ∀ selection, selection ∈ selections ↔ (cache.get? selection).isSome = true := by
  refine ⟨cache.entries.keys.toFinset, ?_, ?_⟩
  · rw [List.toFinset_card_of_nodup cache.entries.keys_nodup, OrderedMap.keys, List.length_map]
    rfl
  · intro selection
    rw [List.mem_toFinset]
    exact OrderedMap.contains_iff.symm

theorem trueTo_replay (log : List Operation) : TrueTo log (replay log) where
  kept _ _ := get?_replay_eq_some_iff
  notKept selection := by
    simp only [Option.eq_none_iff_forall_ne_some, ne_eq, get?_replay_eq_some_iff]
  counted := exists_card_eq_size (replay log)
  empty_iff_size := isEmpty_iff_size_eq_zero
  empty_iff := isEmpty_iff_get?

/-- Whatever was done to an empty cache, its log tells what is kept under each selection and how
many selections there are under which something is kept; and no two selections that differ in
anything they show are the same to it. -/
theorem replay_tellsLog :
    (∀ log, TrueTo log (replay log)) ∧
      ∀ left right : Selection, left = right ↔ left.Alike right :=
  ⟨trueTo_replay, fun _ _ => Selection.eq_iff_alike⟩

/-- What was kept for an integer is not found for the text that is shown like it. -/
example :
    (replay [.insert ⟨"t", some (.ofCondition ⟨"a", .int 1⟩)⟩ []]).get?
      ⟨"t", some (.ofCondition ⟨"a", .str "1"⟩)⟩ = none := by
  decide

end SelectCache

end Tabula
