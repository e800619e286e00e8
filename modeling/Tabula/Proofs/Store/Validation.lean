import Tabula.Proofs.Corruption

/-!
# What validation finds

Records obey a schema if each of them fits it and their `ID`s are at least 1 and distinct.
Validation walks over the records in their order and remembers the `ID`s behind it. It accepts
exactly the records that obey the schema. Of others it reports the first record up to which they do
not, and of several things wrong with that record the first in a fixed order: its columns, the sign
of its `ID`, an earlier record with the same `ID`.
-/

namespace Tabula.Store

variable {schema : Schema}

/-- The records of a table are what its schema says: each has just the columns of the schema with
values of their types, and their `ID`s are at least 1 and distinct. -/
structure Obeys (schema : Schema) (records : List Record) : Prop where
  fits : ∀ record ∈ records, record.Fits schema
  positive : ∀ record ∈ records, ∀ id, record.id? = some id → 1 ≤ id
  distinct : records.Pairwise fun first second =>
    ∀ id, first.id? = some id → second.id? ≠ some id

/-- What is wrong with a record behind others. -/
inductive FaultBehind (schema : Schema) (before : List Record) (record : Record) :
    Corruption → Prop
  | misfit (misfits : ¬record.Fits schema) :
      FaultBehind schema before record (.mismatch (before.length + 1) schema)
  | notPositive {id : Int64} (fits : record.Fits schema) (identified : record.id? = some id)
      (below : id < 1) : FaultBehind schema before record (.notPositive id)
  | repeated {id : Int64} {other : Record} (fits : record.Fits schema)
      (identified : record.id? = some id) (positive : 1 ≤ id) (other_mem : other ∈ before)
      (known : other.id? = some id) : FaultBehind schema before record (.repeated id)

/-- What is wrong with the first record up to which records do not obey a schema. -/
inductive FirstFault (schema : Schema) (records : List Record) (corruption : Corruption) : Prop
  | intro {before : List Record} {record : Record} {after : List Record}
      (cut : records = before ++ record :: after) (upTo : Obeys schema before)
      (broken : ¬Obeys schema (before ++ [record]))
      (fault : FaultBehind schema before record corruption)

theorem obeys_nil : Obeys schema [] :=
  ⟨by simp, by simp, List.Pairwise.nil⟩

theorem Obeys.of_append {before after : List Record} (obeys : Obeys schema (before ++ after)) :
    Obeys schema before where
  fits record record_mem := obeys.fits record (List.mem_append_left after record_mem)
  positive record record_mem := obeys.positive record (List.mem_append_left after record_mem)
  distinct := (List.pairwise_append.mp obeys.distinct).1

theorem obeys_concat_iff {before : List Record} {record : Record} :
    Obeys schema (before ++ [record]) ↔ Obeys schema before ∧ record.Fits schema ∧
      ∀ id, record.id? = some id → 1 ≤ id ∧ ∀ other ∈ before, other.id? ≠ some id := by
  constructor
  · intro obeys
    have record_mem : record ∈ before ++ [record] := by simp
    refine ⟨obeys.of_append, obeys.fits record record_mem, fun id identified => ?_⟩
    refine ⟨obeys.positive record record_mem id identified, fun other other_mem known => ?_⟩
    have apart := (List.pairwise_append.mp obeys.distinct).2.2
    exact apart other other_mem record List.mem_cons_self id known identified
  · rintro ⟨obeys, fits, fresh⟩
    refine ⟨?_, ?_, ?_⟩
    · rw [List.forall_mem_append, List.forall_mem_singleton]
      exact ⟨obeys.fits, fits⟩
    · rw [List.forall_mem_append, List.forall_mem_singleton]
      exact ⟨obeys.positive, fun id identified => (fresh id identified).1⟩
    · rw [List.pairwise_append]
      refine ⟨obeys.distinct, List.pairwise_singleton _ _, ?_⟩
      intro other other_mem last last_mem id known identified
      rw [List.mem_singleton.mp last_mem] at identified
      exact (fresh id identified).2 other other_mem known

theorem FaultBehind.unique {before : List Record} {record : Record} {left right : Corruption}
    (first : FaultBehind schema before record left)
    (second : FaultBehind schema before record right) : left = right := by
  cases first with
  | misfit misfits =>
      cases second with
      | misfit => rfl
      | notPositive fits | repeated fits => exact absurd fits misfits
  | @notPositive id fits identified below =>
      cases second with
      | misfit misfits => exact absurd fits misfits
      | notPositive _ again =>
          cases identified.symm.trans again
          rfl
      | repeated _ again positive =>
          cases identified.symm.trans again
          exact absurd below (Int64.not_lt.mpr positive)
  | @repeated id _ fits identified positive =>
      cases second with
      | misfit misfits => exact absurd fits misfits
      | notPositive _ again below =>
          cases identified.symm.trans again
          exact absurd below (Int64.not_lt.mpr positive)
      | repeated _ again =>
          cases identified.symm.trans again
          rfl

/-- There is one first record up to which records do not obey a schema. -/
theorem FirstFault.unique {records : List Record} {left right : Corruption}
    (first : FirstFault schema records left) (second : FirstFault schema records right) :
    left = right := by
  rcases first with ⟨cut, upTo, broken, fault⟩
  rcases second with ⟨again, upToSecond, brokenSecond, faultSecond⟩
  rcases List.append_eq_append_iff.mp (cut.symm.trans again) with
    ⟨middle, longer, rest⟩ | ⟨middle, longer, rest⟩
  · cases middle with
    | nil =>
        rw [List.append_nil] at longer
        cases rest
        rw [longer] at faultSecond
        exact fault.unique faultSecond
    | cons next middle =>
        cases rest
        rw [longer, List.append_cons] at upToSecond
        exact absurd upToSecond.of_append broken
  · cases middle with
    | nil =>
        rw [List.append_nil] at longer
        cases rest
        rw [longer] at fault
        exact fault.unique faultSecond
    | cons next middle =>
        cases rest
        rw [longer, List.append_cons] at upTo
        exact absurd upTo.of_append brokenSecond

/-! ## One record -/

theorem lt_one_iff_le_zero {id : Int64} : id < 1 ↔ id ≤ 0 := by
  rw [Int64.lt_iff_toInt_lt, Int64.le_iff_toInt_le, Int64.toInt_one, Int64.toInt_zero]
  omega

section

variable {before : List Record} {seen : List Int64}

/-- The walk goes on behind a record with which the records still obey the schema, and stops with
what is wrong at any other. -/
theorem corruptionFrom?_cons_cases (record : Record) (rest : List Record)
    (obeys : Obeys schema before)
    (remembers : ∀ id, id ∈ seen ↔ ∃ other ∈ before, other.id? = some id) :
    (∃ id, record.id? = some id ∧ Obeys schema (before ++ [record]) ∧
        corruptionFrom? schema before.length seen (record :: rest) =
          corruptionFrom? schema (before.length + 1) (id :: seen) rest) ∨
      (∃ corruption, ¬Obeys schema (before ++ [record]) ∧
        FaultBehind schema before record corruption ∧
        corruptionFrom? schema before.length seen (record :: rest) = some corruption) := by
  rw [obeys_concat_iff]
  by_cases conforms : record.conforms schema = true
  · have fits := Record.conforms_iff_fits.mp conforms
    rcases Record.exists_id_of_conforms conforms with ⟨id, identified⟩
    by_cases below : id < 1
    · have stops : corruptionFrom? schema before.length seen (record :: rest) =
          some (.notPositive id) := by
        simp [corruptionFrom?, conforms, identified, lt_one_iff_le_zero.mp below]
      refine .inr ⟨_, ?_, .notPositive fits identified below, stops⟩
      rintro ⟨-, -, fresh⟩
      exact Int64.not_lt.mpr (fresh id identified).1 below
    · have above : ¬id ≤ 0 := mt lt_one_iff_le_zero.mpr below
      by_cases known : id ∈ seen
      · have stops : corruptionFrom? schema before.length seen (record :: rest) =
            some (.repeated id) := by
          simp [corruptionFrom?, conforms, identified, above, known]
        rcases (remembers id).mp known with ⟨other, other_mem, same⟩
        refine .inr ⟨_, ?_, .repeated fits identified (Int64.not_lt.mp below) other_mem same, stops⟩
        rintro ⟨-, -, fresh⟩
        exact (fresh id identified).2 other other_mem same
      · refine .inl ⟨id, identified, ⟨obeys, fits, ?_⟩, ?_⟩
        · intro again sameId
          cases identified.symm.trans sameId
          refine ⟨Int64.not_lt.mp below, fun other other_mem same => known ?_⟩
          exact (remembers id).mpr ⟨other, other_mem, same⟩
        · simp [corruptionFrom?, conforms, identified, above, known]
  · have misfits := mt Record.conforms_iff_fits.mpr conforms
    have stops : corruptionFrom? schema before.length seen (record :: rest) =
        some (.mismatch (before.length + 1) schema) := by
      simp [corruptionFrom?, conforms]
    refine .inr ⟨_, ?_, .misfit misfits, stops⟩
    rintro ⟨-, fits, -⟩
    exact misfits fits

/-! ## All records -/

/-- From records that obey the schema on, the walk either ends with all of them obeying it or stops
at the first record up to which they do not. -/
theorem corruptionFrom?_cases (records : List Record) (obeys : Obeys schema before)
    (remembers : ∀ id, id ∈ seen ↔ ∃ other ∈ before, other.id? = some id) :
    (Obeys schema (before ++ records) ∧
        corruptionFrom? schema before.length seen records = none) ∨
      (∃ corruption, FirstFault schema (before ++ records) corruption ∧
        corruptionFrom? schema before.length seen records = some corruption) := by
  induction records generalizing before seen with
  | nil =>
      rw [List.append_nil]
      exact .inl ⟨obeys, rfl⟩
  | cons record rest ih =>
      rcases corruptionFrom?_cons_cases record rest obeys remembers with
        ⟨id, identified, further, goesOn⟩ | ⟨corruption, broken, fault, stops⟩
      · have remembersMore : ∀ other, other ∈ id :: seen ↔
            ∃ earlier ∈ before ++ [record], earlier.id? = some other := by
          intro other
          rw [List.mem_cons, remembers]
          simp only [List.mem_append, List.mem_singleton, or_and_right, exists_or, exists_eq_left,
            identified, Option.some.injEq]
          rw [or_comm, eq_comm]
        have next := ih further remembersMore
        rwa [List.length_append, List.length_singleton, ← goesOn, ← List.append_cons] at next
      · exact .inr ⟨corruption, ⟨rfl, obeys, broken, fault⟩, stops⟩

end

/-! ## Validation -/

theorem FirstFault.not_obeys {records : List Record} {corruption : Corruption}
    (first : FirstFault schema records corruption) : ¬Obeys schema records := by
  rintro obeys
  rcases first with ⟨rfl, -, broken, -⟩
  rw [List.append_cons] at obeys
  exact broken obeys.of_append

/-- Exactly the records that obey the schema are accepted. Otherwise the error names what is wrong
with the first record up to which the records do not obey it: that it does not fit, else that its
`ID` is not positive, else that an earlier record has its `ID`. No record is said to lack an `ID`. -/
theorem validate_exact (store : Store) (table : String) (schema : Schema) :
    (store.validate table schema = .ok () ↔ Obeys schema store.records) ∧
      (∀ error, store.validate table schema = .error error ↔
        ∃ corruption, FirstFault schema store.records corruption ∧
          error = .corruptTable table corruption) ∧
      ∀ place, store.validate table schema ≠ .error (.corruptTable table (.missingId place)) := by
  have nothing : ∀ id : Int64, id ∈ [] ↔ ∃ other ∈ ([] : List Record), other.id? = some id := by
    simp
  have walked := corruptionFrom?_cases store.records (@obeys_nil schema) nothing
  rw [List.nil_append, List.length_nil] at walked
  rw [validate]
  rcases walked with ⟨obeys, ends⟩ | ⟨found, first, stops⟩
  · rw [ends]
    refine ⟨iff_of_true rfl obeys, fun error => iff_of_false ?_ ?_, ?_⟩
    · rintro ⟨⟩
    · rintro ⟨corruption, first, -⟩
      exact first.not_obeys obeys
    · rintro place ⟨⟩
  · rw [stops]
    refine ⟨iff_of_false ?_ first.not_obeys, fun error => ⟨?_, ?_⟩, ?_⟩
    · rintro ⟨⟩
    · rintro ⟨⟩
      exact ⟨found, first, rfl⟩
    · rintro ⟨corruption, again, rfl⟩
      rw [first.unique again]
    · rintro place ⟨⟩
      rcases first with ⟨-, -, -, fault⟩
      cases fault

end Tabula.Store
