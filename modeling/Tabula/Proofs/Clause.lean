import Mathlib.Data.List.Induction
import Tabula.Proofs.Store.Overwriting

/-!
# Clauses made from pairs

A set clause and a predicate can be made from pairs of columns and values, one after the other, and
a column can be given again. The set clause then does to a record what setting the pairs one by one
does, although it sets every column only once. The predicate asks of every column the value that was
given for it last, so only the order of the pairs with the same column counts.
-/

namespace Tabula

/-- The last value given with a key. -/
def LastGiven {Key Val : Type} (pairs : List (Key × Val)) (key : Key) (value : Val) : Prop :=
  ∃ before after, pairs = before ++ (key, value) :: after ∧ key ∉ after.map Prod.fst

/-- The set clause of pairs, assigned one by one. -/
def SetClause.ofPairs (pairs : List (String × Value)) : SetClause :=
  pairs.foldl (fun clause pair => clause.assign pair.1 pair.2) .nothing

/-- The predicate of pairs, asked for one by one. -/
def Predicate.ofPairs (pairs : List (String × Value)) : Predicate :=
  pairs.foldl (fun predicate pair => predicate.and pair.1 pair.2) .always

/-- The record after pairs are set one by one. -/
def Record.setAll (record : Record) (pairs : List (String × Value)) : Record :=
  pairs.foldl (fun record pair => record.insert pair.1 pair.2) record

/-- How the clauses made from pairs depend on the pairs. -/
structure PairLaws (pairs : List (String × Value)) : Prop where
  /-- Also the order of the columns is the same. -/
  assigns : ∀ record, (SetClause.ofPairs pairs).apply record = Record.setAll record pairs
  again : ∀ record, (SetClause.ofPairs pairs).apply ((SetClause.ofPairs pairs).apply record) =
    (SetClause.ofPairs pairs).apply record
  /-- Each column is tested once, in the order in which the columns come first. -/
  columns : (Predicate.ofPairs pairs).conditions.keys.Nodup ∧
    (Predicate.ofPairs pairs).conditions.keys = (pairs.map Prod.fst).eraseDups
  accepts : ∀ record, (Predicate.ofPairs pairs).accepts record = true ↔
    ∀ column value, LastGiven pairs column value → record.get? column = some value
  /-- The pairs can be reordered as long as those with the same column keep their order. -/
  reordered : ∀ others : List (String × Value),
    (∀ column, others.filter (fun pair => pair.1 = column) =
      pairs.filter fun pair => pair.1 = column) →
    ∀ record, (Predicate.ofPairs others).accepts record = (Predicate.ofPairs pairs).accepts record
  narrowed : ∀ column value, column ∉ pairs.map Prod.fst → ∀ store : Store,
    store.select (some ((Predicate.ofPairs pairs).and column value)) =
      (store.select (some (Predicate.ofPairs pairs))).filter fun record =>
        record.get? column = some value

/-! ## The last value given -/

namespace OrderedMap

variable {Key Val : Type} [DecidableEq Key] {pairs : List (Key × Val)} {key : Key} {value : Val}

theorem lastGiven_iff_getLast? :
    LastGiven pairs key value ↔
      (pairs.filter fun pair => pair.1 = key).getLast? = some (key, value) := by
  rw [List.getLast?_eq_some_iff]
  constructor
  · rintro ⟨before, after, rfl, last⟩
    have others : after.filter (fun pair => pair.1 = key) = [] := by
      rw [List.filter_eq_nil_iff]
      intro pair pair_mem same
      exact last (of_decide_eq_true same ▸ List.mem_map_of_mem pair_mem)
    refine ⟨before.filter fun pair => pair.1 = key, ?_⟩
    rw [List.filter_append, List.filter_cons_of_pos (by simp), others]
  · rintro ⟨front, found⟩
    rcases List.filter_eq_append_iff.mp found with ⟨before, rest, rfl, -, ending⟩
    rcases List.filter_eq_cons_iff.mp ending with ⟨between, after, rfl, -, -, others⟩
    refine ⟨before ++ between, after, by rw [List.append_assoc], ?_⟩
    intro key_mem
    rcases List.mem_map.mp key_mem with ⟨pair, pair_mem, same⟩
    exact List.filter_eq_nil_iff.mp others pair pair_mem (decide_eq_true same)

theorem ofList_concat (pairs : List (Key × Val)) (pair : Key × Val) :
    ofList (pairs ++ [pair]) = (ofList pairs).insert pair.1 pair.2 :=
  List.foldl_append

theorem get?_ofList (pairs : List (Key × Val)) (key : Key) :
    (ofList pairs).get? key =
      ((pairs.filter fun pair => pair.1 = key).getLast?).map Prod.snd := by
  induction pairs using List.reverseRecOn with
  | nil => rfl
  | append_singleton pairs pair ih =>
      rw [ofList_concat, get?_insert, List.filter_append]
      by_cases same : pair.1 = key
      · rw [if_pos same, List.filter_cons_of_pos (by simpa using same), List.filter_nil,
          List.getLast?_concat, Option.map_some]
      · rw [if_neg same, List.filter_cons_of_neg (by simpa using same), List.filter_nil,
          List.append_nil, ih]

theorem get?_ofList_eq_some_iff :
    (ofList pairs).get? key = some value ↔ LastGiven pairs key value := by
  rw [get?_ofList, lastGiven_iff_getLast?, Option.map_eq_some_iff]
  constructor
  · rintro ⟨⟨other, given⟩, found, rfl⟩
    have same : other = key := of_decide_eq_true (List.mem_filter.mp (List.mem_of_getLast? found)).2
    rw [found, same]
  · intro found
    exact ⟨_, found, rfl⟩

theorem keys_ofList (pairs : List (Key × Val)) :
    (ofList pairs).keys = (pairs.map Prod.fst).eraseDups := by
  induction pairs using List.reverseRecOn with
  | nil => rfl
  | append_singleton pairs pair ih =>
      have bound_iff : pair.1 ∈ (ofList pairs).keys ↔ pair.1 ∈ pairs.map Prod.fst := by
        rw [ih, List.mem_eraseDups]
      rw [ofList_concat, List.map_append, List.eraseDups_append, ← ih, List.map_singleton,
        List.cons_removeAll, List.nil_removeAll]
      by_cases bound : pair.1 ∈ (ofList pairs).keys
      · rw [keys_insert_of_mem bound, if_neg (by simpa using bound_iff.mp bound),
          List.eraseDups_nil, List.append_nil]
      · rw [keys_insert_of_not_mem bound, if_pos (by simpa using mt bound_iff.mpr bound)]
        rfl

end OrderedMap

/-! ## Set clauses -/

theorem Record.setAll_concat (record : Record) (pairs : List (String × Value))
    (pair : String × Value) :
    record.setAll (pairs ++ [pair]) = OrderedMap.insert (record.setAll pairs) pair.1 pair.2 :=
  List.foldl_append

namespace SetClause

theorem ofPairs_concat (pairs : List (String × Value)) (pair : String × Value) :
    ofPairs (pairs ++ [pair]) = (ofPairs pairs).assign pair.1 pair.2 :=
  List.foldl_append

theorem columns_apply (set : SetClause) (record : Record) :
    (set.apply record).keys =
      record.keys ++ set.assignments.keys.filter (· ∉ record.keys) :=
  record.keys_foldl_insert set.assignments.nodup

/-- A column assigned last is set last, also where it was assigned before. -/
theorem apply_assign (set : SetClause) (column : String) (value : Value) (record : Record) :
    (set.assign column value).apply record = (set.apply record).insert column value := by
  by_cases assigned : column ∈ set.assignments.keys
  · have sameColumns : (set.assign column value).assignments.keys = set.assignments.keys :=
      OrderedMap.keys_insert_of_mem assigned
    have column_mem : column ∈ (set.apply record).keys := by
      rw [columns_apply, List.mem_append, List.mem_filter]
      by_cases old : column ∈ record.keys
      · exact .inl old
      · exact .inr ⟨assigned, by simpa using old⟩
    apply OrderedMap.ext_of_get?
    · rw [OrderedMap.keys_insert_of_mem column_mem, columns_apply, columns_apply, sameColumns]
    · intro other _
      rw [get?_apply, OrderedMap.get?_insert, get?_apply, assign, OrderedMap.get?_insert]
      split
      · rfl
      · rfl
  · rw [apply, assign, OrderedMap.entries_insert_of_not_mem assigned, List.foldl_append]
    rfl

theorem apply_ofPairs (pairs : List (String × Value)) (record : Record) :
    (ofPairs pairs).apply record = Record.setAll record pairs := by
  induction pairs using List.reverseRecOn with
  | nil => rfl
  | append_singleton pairs pair ih =>
      rw [ofPairs_concat, apply_assign, ih, Record.setAll_concat]

end SetClause

/-! ## Predicates -/

namespace Predicate

variable {predicate : Predicate} {column : String}

theorem ofPairs_concat (pairs : List (String × Value)) (pair : String × Value) :
    ofPairs (pairs ++ [pair]) = (ofPairs pairs).and pair.1 pair.2 :=
  List.foldl_append

theorem conditions_ofPairs (pairs : List (String × Value)) :
    (ofPairs pairs).conditions = OrderedMap.ofList pairs := by
  induction pairs using List.reverseRecOn with
  | nil => rfl
  | append_singleton pairs pair ih =>
      rw [ofPairs_concat, OrderedMap.ofList_concat, ← ih]
      rfl

theorem accepts_ofPairs_iff {pairs : List (String × Value)} {record : Record} :
    (ofPairs pairs).accepts record = true ↔
      ∀ column value, LastGiven pairs column value → record.get? column = some value := by
  simp only [accepts_iff, conditions_ofPairs, OrderedMap.get?_ofList_eq_some_iff]

theorem accepts_and (untested : column ∉ predicate.conditions.keys) (value : Value)
    (record : Record) :
    (predicate.and column value).accepts record =
      (predicate.accepts record && record.get? column == some value) := by
  rw [accepts, Predicate.and, OrderedMap.entries_insert_of_not_mem untested, List.all_append,
    ← accepts]
  simp

theorem select_and (untested : column ∉ predicate.conditions.keys) (value : Value)
    (store : Store) :
    store.select (some (predicate.and column value)) =
      (store.select (some predicate)).filter fun record => record.get? column = some value := by
  rw [Store.select, Store.select, List.filter_filter]
  apply List.filter_congr
  intro record _
  rw [accepts_and untested, Bool.and_comm, beq_eq_decide]

end Predicate

theorem pairLaws (pairs : List (String × Value)) : PairLaws pairs where
  assigns := SetClause.apply_ofPairs pairs
  again := SetClause.apply_apply (SetClause.ofPairs pairs)
  columns := by
    refine ⟨(Predicate.ofPairs pairs).conditions.keys_nodup, ?_⟩
    rw [Predicate.conditions_ofPairs, OrderedMap.keys_ofList]
  accepts _ := Predicate.accepts_ofPairs_iff
  reordered others sameOrder record := by
    rw [Bool.eq_iff_iff, Predicate.accepts_ofPairs_iff, Predicate.accepts_ofPairs_iff]
    simp only [OrderedMap.lastGiven_iff_getLast?, sameOrder]
  narrowed column value untested store := by
    apply Predicate.select_and
    rwa [Predicate.conditions_ofPairs, OrderedMap.keys_ofList, List.mem_eraseDups]

end Tabula
