import Tabula.Proofs.OrderedMap
import Tabula.Proofs.Store

/-!
# Overwriting

An update overwrites the assigned columns of the records that its predicate accepts and leaves all
else as it was. What happens when it is run again depends on the columns that are both assigned and
tested: if they are given the values asked for, the overwritten records are accepted again and
nothing changes; if one of them is not, no record is accepted any more.
-/

namespace Tabula

/-- The new record is the old one with the assigned columns overwritten. Columns that the old one
lacks come after its own, in the order of the clause. -/
structure SetClause.Overwrites (set : SetClause) (old new : Record) : Prop where
  values : ∀ column, new.get? column = (set.assignments.get? column).or (old.get? column)
  columns : new.keys = old.keys ++ set.assignments.keys.filter (· ∉ old.keys)
  id : new.id? = old.id?

/-- Columns that are both assigned and tested are given the values asked for. -/
def SetClause.Agrees (set : SetClause) (predicate : Predicate) : Prop :=
  ∀ column value asked, set.assignments.get? column = some value →
    predicate.conditions.get? column = some asked → value = asked

namespace SetClause

variable {set : SetClause} {predicate : Predicate} {record : Record}

theorem overwrites_apply (readOnly : idColumn ∉ set.assignments.keys) (record : Record) :
    set.Overwrites record (set.apply record) where
  values := get?_apply set record
  columns := record.keys_foldl_insert set.assignments.nodup
  id := id?_apply (OrderedMap.get?_eq_none_iff.mpr readOnly)

theorem apply_apply (set : SetClause) (record : Record) :
    set.apply (set.apply record) = set.apply record := by
  have known : ∀ binding ∈ set.assignments.entries, binding.1 ∈ (set.apply record).keys := by
    intro binding binding_mem
    have assigned := OrderedMap.get?_eq_some_iff.mpr binding_mem
    rw [OrderedMap.mem_keys_iff]
    exact ⟨binding.2, by rw [get?_apply, assigned, Option.some_or]⟩
  refine OrderedMap.ext_of_get? (OrderedMap.keys_foldl_insert_of_mem _ known) ?_
  intro column _
  rw [get?_apply, get?_apply, ← Option.or_assoc, Option.or_self]

end SetClause

namespace Predicate

variable {set : SetClause} {predicate : Predicate} {record : Record}

theorem accepts_iff : predicate.accepts record = true ↔ ∀ column asked,
    predicate.conditions.get? column = some asked → record.get? column = some asked := by
  simp only [accepts, List.all_eq_true, beq_iff_eq, OrderedMap.get?_eq_some_iff, Prod.forall]

/-- A record that has been overwritten by a clause that agrees is still accepted. -/
theorem accepts_apply_of_agrees (agrees : set.Agrees predicate)
    (accepted : predicate.accepts record = true) : predicate.accepts (set.apply record) = true := by
  rw [accepts_iff] at accepted ⊢
  intro column asked tested
  rw [SetClause.get?_apply]
  cases assigned : set.assignments.get? column with
  | none => exact accepted column asked tested
  | some value => rw [agrees column value asked assigned tested, Option.some_or]

theorem not_accepts_apply (disagrees : ¬set.Agrees predicate) :
    predicate.accepts (set.apply record) = false := by
  rw [Bool.eq_false_iff]
  intro accepted
  apply disagrees
  intro column value asked assigned tested
  have held := accepts_iff.mp accepted column asked tested
  rw [SetClause.get?_apply, assigned, Option.some_or] at held
  exact Option.some.inj held

end Predicate

namespace Store

variable {store : Store} {set : SetClause} {predicate : Predicate}

/-- What an update does. -/
structure Updated (store : Store) (set : SetClause) (predicate : Predicate) (after : Store)
    (ids : List Int64) : Prop where
  /-- Record by record: those accepted are overwritten, and the others stay as they were. -/
  records : List.Forall₂ (fun old new => (predicate.accepts old = true → set.Overwrites old new) ∧
    (predicate.accepts old = false → new = old)) store.records after.records
  selected : ids = (store.select (some predicate)).filterMap Record.id?
  again : set.Agrees predicate → after.update set predicate = (after, ids)
  noneAgain : ¬set.Agrees predicate →
    after.select (some predicate) = [] ∧ after.update set predicate = (after, [])
  valid : ∀ table schema, set.check table schema = .ok () →
    store.validate table schema = .ok () → after.validate table schema = .ok ()

/-- What an update makes of a record. -/
def revise (set : SetClause) (predicate : Predicate) (record : Record) : Record :=
  if predicate.accepts record then set.apply record else record

theorem revise_of_accepts {record : Record} (accepted : predicate.accepts record = true) :
    revise set predicate record = set.apply record := by
  rw [revise, if_pos accepted]

theorem revise_of_not_accepts {record : Record} (rejected : predicate.accepts record = false) :
    revise set predicate record = record := by
  rw [revise, rejected]
  rfl

theorem accepts_revise (agrees : set.Agrees predicate) (record : Record) :
    predicate.accepts (revise set predicate record) = predicate.accepts record := by
  cases accepted : predicate.accepts record with
  | true => rw [revise_of_accepts accepted, Predicate.accepts_apply_of_agrees agrees accepted]
  | false => rw [revise_of_not_accepts accepted, accepted]

theorem revise_revise (agrees : set.Agrees predicate) (record : Record) :
    revise set predicate (revise set predicate record) = revise set predicate record := by
  cases accepted : predicate.accepts record with
  | true =>
      have again := Predicate.accepts_apply_of_agrees agrees accepted
      rw [revise_of_accepts accepted, revise_of_accepts again, SetClause.apply_apply]
  | false => rw [revise_of_not_accepts accepted, revise_of_not_accepts accepted]

theorem not_accepts_revise (disagrees : ¬set.Agrees predicate) (record : Record) :
    predicate.accepts (revise set predicate record) = false := by
  cases accepted : predicate.accepts record with
  | true => rw [revise_of_accepts accepted, Predicate.not_accepts_apply disagrees]
  | false => rw [revise_of_not_accepts accepted, accepted]

theorem update_eq : store.update set predicate =
    (⟨store.records.map (revise set predicate)⟩,
      ((store.records.filter predicate.accepts).map (revise set predicate)).filterMap
        Record.id?) := by
  have applied : (store.records.filter predicate.accepts).map set.apply =
      (store.records.filter predicate.accepts).map (revise set predicate) := by
    apply List.map_congr_left
    intro record record_mem
    exact (revise_of_accepts (List.mem_filter.mp record_mem).2).symm
  rw [update, applied]
  rfl

theorem update_ids (readOnly : idColumn ∉ set.assignments.keys) :
    (store.update set predicate).2 = (store.select (some predicate)).filterMap Record.id? := by
  rw [update, select, List.filterMap_map]
  apply List.filterMap_congr
  intro record _
  exact (SetClause.overwrites_apply readOnly record).id

/-- Where no record is accepted, an update does nothing. -/
theorem update_of_select_eq_nil (none : store.select (some predicate) = []) :
    store.update set predicate = (store, []) := by
  have rejected := List.filter_eq_nil_iff.mp none
  have kept : store.records.map (revise set predicate) = store.records := by
    conv_rhs => rw [← List.map_id store.records]
    apply List.map_congr_left
    intro record record_mem
    exact revise_of_not_accepts (Bool.eq_false_iff.mpr (rejected record record_mem))
  rw [select] at none
  rw [update_eq, kept, none, List.map_nil, List.filterMap_nil]

theorem update_of_agrees (agrees : set.Agrees predicate) :
    (store.update set predicate).1.update set predicate = store.update set predicate := by
  -- The same records are accepted again, and there is nothing left to overwrite in them.
  have sameAccepted : predicate.accepts ∘ revise set predicate = predicate.accepts :=
    funext (accepts_revise agrees)
  have sameRevised : revise set predicate ∘ revise set predicate = revise set predicate :=
    funext (revise_revise agrees)
  rw [update_eq, update_eq, List.filter_map, sameAccepted, List.map_map, List.map_map, sameRevised]

theorem select_update_of_not_agrees (disagrees : ¬set.Agrees predicate) :
    (store.update set predicate).1.select (some predicate) = [] := by
  rw [select, update_eq, List.filter_eq_nil_iff, List.forall_mem_map]
  intro record _
  rw [Bool.not_eq_true]
  exact not_accepts_revise disagrees record

/-- An update whose clause does not assign `ID` overwrites the records that its predicate accepts,
and says which. Run again it does the same to them, or finds none. -/
theorem update_updated (store : Store) {set : SetClause} (predicate : Predicate)
    (readOnly : idColumn ∉ set.assignments.keys) :
    store.Updated set predicate (store.update set predicate).1 (store.update set predicate).2 where
  records := by
    rw [update_eq, List.forall₂_map_right_iff, List.forall₂_same]
    intro record _
    refine ⟨fun accepted => ?_, revise_of_not_accepts⟩
    rw [revise_of_accepts accepted]
    exact SetClause.overwrites_apply readOnly record
  selected := update_ids readOnly
  again := update_of_agrees
  noneAgain disagrees :=
    ⟨select_update_of_not_agrees disagrees,
      update_of_select_eq_nil (select_update_of_not_agrees disagrees)⟩
  valid table schema allowed accepted :=
    validate_eq_ok_iff.mpr ((validate_eq_ok_iff.mp accepted).update allowed predicate)

/-- Two records, of which the second lacks a column that is assigned. -/
def twoRecords : Store :=
  ⟨[.ofList [("ID", .int 1), ("a", .int 5), ("b", .bool true)],
    .ofList [("a", .int 7), ("ID", .int 2)]]⟩

/-- The tested column is overwritten, so that the record is not found again. -/
theorem update_updated_twoRecords :
    idColumn ∉ (SetClause.nothing.assign "a" (.int 8) |>.assign "b" (.str "x")).assignments.keys ∧
      twoRecords.Updated (SetClause.nothing.assign "a" (.int 8) |>.assign "b" (.str "x"))
        (Predicate.always.and "a" (.int 7))
        ⟨[.ofList [("ID", .int 1), ("a", .int 5), ("b", .bool true)],
          .ofList [("a", .int 8), ("ID", .int 2), ("b", .str "x")]]⟩ [2] := by
  have readOnly : idColumn ∉
      (SetClause.nothing.assign "a" (.int 8) |>.assign "b" (.str "x")).assignments.keys := by
    decide
  exact ⟨readOnly, update_updated twoRecords (Predicate.always.and "a" (.int 7)) readOnly⟩

end Store

end Tabula
