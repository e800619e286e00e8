import Mathlib.Data.List.Induction
import Tabula.Proofs.Catalog

/-!
# The history of a catalog

What a catalog holds can be told from what was done to it: it holds the tables whose last event is
their creation, each with the schema of that creation, and lists them in the order of these
creations. A request that is refused is no event. So a table that is dropped and created again goes
to the end, and one that is dropped right after its creation leaves no trace.
-/

namespace Tabula.Catalog

inductive Request
  | create (name : String) (definitions : List String)
  | drop (name : String)

/-- A request that was carried out. -/
inductive Event
  | created (name : String) (schema : Schema)
  | dropped (name : String)

/-- The table that an event is about. -/
def Event.name : Event → String
  | .created name _ => name
  | .dropped name => name

/-- The tables whose last event is their creation, in the order of these creations. -/
def standing : List Event → List (String × Schema)
  | [] => []
  | .created name schema :: later =>
      if name ∈ later.map Event.name then standing later else (name, schema) :: standing later
  | .dropped _ :: later => standing later

/-- The last event of a table is its creation with a schema. -/
def LastCreated (events : List Event) (name : String) (schema : Schema) : Prop :=
  ∃ before after, events = before ++ .created name schema :: after ∧ name ∉ after.map Event.name

/-- A catalog with what was done to it, oldest first. -/
structure History where
  catalog : Catalog
  events : List Event

namespace History

def start : History :=
  ⟨∅, []⟩

/-- The history after a request. The catalog is what the attempt leaves, and a request that is
refused adds no event. -/
def step (history : History) : Request → History
  | .create name definitions =>
      let (catalog, answer) := history.catalog.attemptCreate name definitions
      ⟨catalog, history.events ++ (answer.toOption.map (.created name)).toList⟩
  | .drop name =>
      let (catalog, answer) := history.catalog.attemptDrop name
      ⟨catalog, history.events ++ (answer.toOption.map fun _ => .dropped name).toList⟩

def run (requests : List Request) : History :=
  requests.foldl step start

/-- What the events tell of the catalog. -/
structure Told (history : History) : Prop where
  listed : history.catalog.keys = (standing history.events).map Prod.fst
  found : ∀ name schema,
    history.catalog.table name = .ok schema ↔ LastCreated history.events name schema
  notFound : ∀ name, (∀ schema, ¬LastCreated history.events name schema) →
    history.catalog.table name = .error (.tableNotFound name)
  /-- The tables that are left keep their order. -/
  droppable : ∀ name schema rest,
    history.catalog.dropTable name = .ok (rest, schema) ↔
      LastCreated history.events name schema ∧
        rest.entries = (standing history.events).filter fun table => table.1 ≠ name
  notDroppable : ∀ name, (∀ schema, ¬LastCreated history.events name schema) →
    history.catalog.dropTable name = .error (.tableNotFound name)
  undone : ∀ name definitions extended schema,
    history.catalog.createTable name definitions = .ok (extended, schema) →
      extended.dropTable name = .ok (history.catalog, schema)

end History

/-! ## Standing tables -/

section Standing

variable {events : List Event} {name : String} {schema : Schema}

theorem mem_standing_cons_iff {event : Event} :
    (name, schema) ∈ standing (event :: events) ↔
      (event = .created name schema ∧ name ∉ events.map Event.name) ∨
        (name, schema) ∈ standing events := by
  cases event with
  | dropped other => simp [standing]
  | created other defined =>
      rw [standing]
      split
      · rename_i later
        constructor
        · exact .inr
        · rintro (⟨⟨⟩, last⟩ | found)
          · exact absurd later last
          · exact found
      · rename_i last
        rw [List.mem_cons]
        constructor
        · rintro (same | found)
          · cases same
            exact .inl ⟨rfl, last⟩
          · exact .inr found
        · rintro (⟨⟨⟩, -⟩ | found)
          · exact .inl rfl
          · exact .inr found

theorem mem_standing_iff : (name, schema) ∈ standing events ↔ LastCreated events name schema := by
  induction events with
  | nil => simp [standing, LastCreated]
  | cons event later ih =>
      rw [mem_standing_cons_iff, ih]
      constructor
      · rintro (⟨rfl, last⟩ | ⟨before, after, rfl, last⟩)
        · exact ⟨[], later, rfl, last⟩
        · exact ⟨event :: before, after, rfl, last⟩
      · rintro ⟨before, after, whole, last⟩
        cases before with
        | nil =>
            cases whole
            exact .inl ⟨rfl, last⟩
        | cons first before =>
            cases whole
            exact .inr ⟨before, after, rfl, last⟩

/-- A new event takes its table from where it stands, and a creation puts it at the end. -/
theorem standing_append (events : List Event) (event : Event) :
    standing (events ++ [event]) =
      (standing events).filter (fun table => table.1 ≠ event.name) ++ standing [event] := by
  induction events with
  | nil => rfl
  | cons first later ih =>
      cases first with
      | dropped other => exact ih
      | created other defined =>
          have about : other ∈ (later ++ [event]).map Event.name ↔
              other ∈ later.map Event.name ∨ other = event.name := by
            simp
          rw [List.cons_append, standing, standing, ih]
          by_cases again : other ∈ later.map Event.name
          · rw [if_pos (about.mpr (.inl again)), if_pos again]
          · rw [if_neg again]
            by_cases same : other = event.name
            · rw [if_pos (about.mpr (.inr same)), List.filter_cons_of_neg (by simp [same])]
            · rw [if_neg (mt about.mp (not_or.mpr ⟨again, same⟩)),
                List.filter_cons_of_pos (by simp [same]), List.cons_append]

end Standing

/-! ## Runs -/

namespace History

variable {history : History}

/-- The catalog lists the standing tables. -/
def Faithful (history : History) : Prop :=
  history.catalog.entries = standing history.events

theorem Faithful.step (faithful : history.Faithful) (request : Request) :
    (history.step request).Faithful := by
  cases request with
  | create name definitions =>
      rw [History.step]
      rcases attempted : history.catalog.attemptCreate name definitions with
        ⟨extended, error | schema⟩
      · rw [(refuses_of_attemptCreate attempted).2]
        exact faithful.trans (congrArg standing (List.append_nil _).symm)
      · rcases attemptCreate_eq_ok_iff.mp attempted with ⟨fresh, -, -, rfl⟩
        have kept := OrderedMap.filter_entries_of_not_mem fresh
        rw [faithful] at kept
        dsimp only [Except.toOption, Option.map_some, Option.toList_some]
        rw [Faithful, OrderedMap.entries_insert_of_not_mem fresh, standing_append, Event.name, kept,
          faithful]
        rfl
  | drop name =>
      rw [History.step]
      cases found : history.catalog.get? name with
      | none =>
          rw [attemptDrop_of_none found]
          exact faithful.trans (congrArg standing (List.append_nil _).symm)
      | some schema =>
          rw [attemptDrop_eq_ok_iff.mpr ⟨found, rfl⟩]
          dsimp only [Except.toOption, Option.map_some, Option.toList_some]
          rw [Faithful, OrderedMap.entries_erase, standing_append, Event.name, faithful]
          exact (List.append_nil _).symm

theorem faithful_run (requests : List Request) : (run requests).Faithful := by
  induction requests using List.reverseRecOn with
  | nil => rfl
  | append_singleton requests request ih =>
      rw [run, List.foldl_append]
      exact ih.step request

theorem Faithful.get?_eq_some_iff {name : String} {schema : Schema} (faithful : history.Faithful) :
    history.catalog.get? name = some schema ↔ LastCreated history.events name schema := by
  rw [OrderedMap.get?_eq_some_iff, faithful, mem_standing_iff]

theorem Faithful.get?_eq_none {name : String} (faithful : history.Faithful)
    (gone : ∀ schema, ¬LastCreated history.events name schema) :
    history.catalog.get? name = none := by
  rw [Option.eq_none_iff_forall_ne_some]
  intro schema found
  exact gone schema (faithful.get?_eq_some_iff.mp found)

theorem Faithful.told (faithful : history.Faithful) : history.Told where
  listed := by
    rw [OrderedMap.keys, faithful]
  found name schema := by
    rw [table_eq_ok_iff, faithful.get?_eq_some_iff]
  notFound name gone := by
    rw [table, faithful.get?_eq_none gone]
  droppable name schema rest := by
    rw [dropTable_eq_ok_iff, faithful.get?_eq_some_iff, OrderedMap.ext_iff,
      OrderedMap.entries_erase, faithful]
  notDroppable name gone := by
    rw [dropTable, attemptDrop_of_none (faithful.get?_eq_none gone)]
    rfl
  undone name definitions extended schema created := by
    rcases createTable_eq_ok_iff.mp created with ⟨fresh, -, -, rfl⟩
    rw [dropTable_eq_ok_iff, OrderedMap.get?_insert, if_pos rfl,
      OrderedMap.erase_insert_of_not_mem schema fresh]
    exact ⟨rfl, rfl⟩

/-- Whatever was asked of an empty catalog, its events tell which tables it holds, with which
schemas and in which order, and so what is found in it and what can be dropped. -/
theorem run_told (requests : List Request) : (run requests).Told :=
  (faithful_run requests).told

/-- A table that is created again goes to the end. -/
example : (run [.create "a" [], .create "b" [], .drop "a", .create "a" []]).catalog.keys =
    ["b", "a"] := by
  decide

end History

end Tabula.Catalog
