import Tabula.Proofs.Run
import Tabula.Proofs.SelectCache

/-!
# Sessions that stand for memories

A storage represents memories when its states load what a memory holds and its writes keep them
standing for the memory that is written to. A session over such a storage answers as the memory
does and goes on standing for it, whether it remembers selects or not, because everything that it
remembers is what a select would answer now.
-/

namespace Tabula

/-! ## Remembered selects -/

namespace SelectCache

variable {cache : SelectCache} {memory : Memory}

/-- The cache after a change. -/
def after (cache : SelectCache) (change : Change) : SelectCache :=
  match change.table? with
  | none => cache
  | some table => cache.invalidate table

/-- Everything remembered is what a select would answer now. -/
def Coherent (cache : SelectCache) (memory : Memory) : Prop :=
  ∀ selection records, cache.get? selection = some records →
    ∃ schema, memory.catalog.get? selection.table = some schema ∧
      (memory.store selection.table).Valid schema ∧
        records = (memory.store selection.table).select selection.predicate

theorem coherent_empty (memory : Memory) : empty.Coherent memory := by
  intro selection records remembered
  cases remembered

/-- What is still remembered after a change concerns another table than the change. -/
theorem get?_after {change : Change} {selection : Selection} {records : List Record}
    (remembered : (cache.after change).get? selection = some records) :
    change.table? ≠ some selection.table ∧ cache.get? selection = some records := by
  rw [after] at remembered
  cases concerned : change.table? with
  | none =>
      rw [concerned] at remembered
      exact ⟨by simp, remembered⟩
  | some table =>
      rw [concerned] at remembered
      simp only [get?_invalidate] at remembered
      split at remembered
      · cases remembered
      · rename_i differs
        refine ⟨fun same => differs ?_, remembered⟩
        exact (Option.some.inj same).symm

/-- A change leaves a cache coherent that forgets the table concerned. -/
theorem Coherent.after (coherent : cache.Coherent memory) {command : Command} {change : Change}
    (effect : memory.Effect command change) :
    (cache.after change).Coherent (memory.apply change) := by
  intro selection records remembered
  rcases get?_after remembered with ⟨differs, before⟩
  rcases coherent selection records before with ⟨schema, known, valid, same⟩
  refine ⟨schema, ?_, ?_, ?_⟩
  · rw [effect.get?_apply differs, known]
  · rwa [effect.store_apply differs]
  · rwa [effect.store_apply differs]

/-- Remembering what a select answers now keeps a cache coherent. -/
theorem Coherent.insert (coherent : cache.Coherent memory) {table : String} {schema : Schema}
    (known : memory.catalog.get? table = some schema) (valid : (memory.store table).Valid schema)
    (predicate : Option Predicate) :
    (cache.insert ⟨table, predicate⟩ ((memory.store table).select predicate)).Coherent memory := by
  intro selection records remembered
  rw [get?_insert] at remembered
  split at remembered
  · rename_i same
    subst same
    cases remembered
    exact ⟨schema, known, valid, rfl⟩
  · exact coherent selection records remembered

end SelectCache

/-! ## Storages that represent memories -/

/-- How the states of a storage stand for memories. -/
structure Representation (State : Type) [Storage State] where
  /-- The names under which tables can be kept. -/
  Admits : String → Prop
  /-- Whether a state stands for a memory. -/
  Holds : State → Memory → Prop
  admits {state : State} {memory : Memory} (holds : Holds state memory) :
    ∀ table ∈ memory.catalog.keys, Admits table
  loadCatalog {state : State} {memory : Memory} (holds : Holds state memory) :
    Storage.loadCatalog state = .ok memory.catalog
  load {state : State} {memory : Memory} (holds : Holds state memory) {table : String}
    (admitted : Admits table) : (Storage.loader state).load table = .ok (memory.store table)
  recordsExist {state : State} {memory : Memory} (holds : Holds state memory) {table : String}
    (admitted : Admits table) :
    (Storage.loader state).recordsExist table = memory.stores.contains table
  saveCatalog {state : State} {memory : Memory} (holds : Holds state memory) {catalog : Catalog}
    (admitted : ∀ table ∈ catalog.keys, Admits table) :
    ∃ saved, Storage.saveCatalog state catalog = (saved, .ok ()) ∧
      Holds saved { memory with catalog }
  saveTable {state : State} {memory : Memory} (holds : Holds state memory) {table : String}
    (admitted : Admits table) (store : Store) :
    ∃ saved, Storage.saveTable state table store = (saved, .ok ()) ∧
      Holds saved { memory with stores := memory.stores.insert table store }
  deleteTable {state : State} {memory : Memory} (holds : Holds state memory) {table : String}
    (admitted : Admits table) :
    ∃ saved, Storage.deleteTable state table = (saved, .ok ()) ∧
      Holds saved { memory with stores := memory.stores.erase table }

/-- A memory stands for itself. -/
def Memory.itself : Representation Memory where
  Admits _ := True
  Holds := Eq
  admits _ _ _ := trivial
  loadCatalog holds := by rw [holds]; rfl
  load holds _ _ := by rw [holds]; rfl
  recordsExist holds _ _ := by rw [holds]; rfl
  saveCatalog holds _ _ := ⟨_, rfl, by rw [holds]⟩
  saveTable holds _ _ _ := ⟨_, rfl, by rw [holds]⟩
  deleteTable holds _ _ := ⟨_, rfl, by rw [holds]⟩

namespace Session

variable {State : Type} [Storage State] {representation : Representation State}
  {session : Session State} {memory : Memory} {command : Command} {change : Change}

/-- A session whose storage stands for a memory and whose cache is coherent with it. -/
structure Follows (representation : Representation State) (session : Session State)
    (memory : Memory) : Prop where
  holds : representation.Holds session.storage memory
  coherent : session.cache.Coherent memory

/-- The engine cannot tell a storage from the memory it stands for. -/
theorem Follows.execute_eq (follows : session.Follows representation memory) (command : Command) :
    Engine.execute memory.catalog (Storage.loader session.storage) command =
      Engine.execute memory.catalog (Storage.loader memory) command := by
  apply Engine.execute_congr
  intro table table_mem
  have admitted := representation.admits follows.holds table table_mem
  exact ⟨representation.load follows.holds admitted,
    representation.recordsExist follows.holds admitted⟩

/-- What a command changes is persisted in full. -/
theorem Follows.persist (follows : session.Follows representation memory)
    (effect : memory.Effect command change)
    (admitted : ∀ table, command.table? = some table → validTableName table = true →
      representation.Admits table) :
    ∃ next, session.persist change = (next, .ok ()) ∧
      next.Follows representation (memory.apply change) := by
  have coherent := follows.coherent.after effect
  have known := representation.admits follows.holds
  cases effect with
  | nothing => exact ⟨session, rfl, follows⟩
  | @create table definitions extended schema created =>
      have extendedAdmitted : ∀ name ∈ extended.keys, representation.Admits name := by
        rcases Catalog.createTable_eq_ok_iff.mp created with ⟨-, valid, -, rfl⟩
        intro name name_mem
        rcases OrderedMap.mem_keys_insert.mp name_mem with rfl | old
        · exact admitted name rfl valid
        · exact known name old
      rcases representation.saveCatalog follows.holds extendedAdmitted with ⟨saved, save, holds⟩
      refine ⟨⟨saved, session.remembers, session.cache.after (.create extended table)⟩, ?_,
        holds, coherent⟩
      simp only [Session.persist, saveCatalog, save]
      rfl
  | @drop table schema found =>
      have reducedAdmitted : ∀ name ∈ (memory.catalog.erase table).keys,
          representation.Admits name := by
        intro name name_mem
        rw [OrderedMap.keys_erase] at name_mem
        exact known name (List.mem_of_mem_filter name_mem)
      have table_mem := OrderedMap.mem_keys_iff.mpr ⟨schema, found⟩
      rcases representation.saveCatalog follows.holds reducedAdmitted with ⟨saved, save, holds⟩
      rcases representation.deleteTable holds (known table table_mem) with ⟨deleted, delete, last⟩
      refine ⟨⟨deleted, session.remembers,
        session.cache.after (.drop (memory.catalog.erase table) table)⟩, ?_, last, coherent⟩
      simp only [Session.persist, saveCatalog, save, delete]
      rfl
  | @save command table schema store edited named found loaded edit =>
      have table_mem := OrderedMap.mem_keys_iff.mpr ⟨schema, found⟩
      rcases representation.saveTable follows.holds (known table table_mem) edited with
        ⟨saved, save, holds⟩
      refine ⟨⟨saved, session.remembers, session.cache.after (.save table edited)⟩, ?_, holds,
        coherent⟩
      simp only [Session.persist, save]
      rfl

theorem Follows.perform (follows : session.Follows representation memory)
    (admitted : ∀ table, command.table? = some table → validTableName table = true →
      representation.Admits table) :
    (session.perform memory.catalog command).2 = (memory.perform command).2 ∧
      (session.perform memory.catalog command).1.Follows representation
        (memory.perform command).1 := by
  rw [Session.perform, Memory.perform, follows.execute_eq]
  cases ran : Engine.execute memory.catalog (Storage.loader memory) command with
  | error error => exact ⟨rfl, follows⟩
  | ok outcome =>
      rcases follows.persist (Engine.effect_of_execute ran) admitted with ⟨next, saved, stays⟩
      simp only [saved]
      exact ⟨trivial, stays⟩

theorem Follows.selectRemembered (follows : session.Follows representation memory)
    (table : String) (predicate : Option Predicate) :
    (session.selectRemembered memory.catalog table predicate).2 =
        (memory.perform (.select table predicate)).2 ∧
      (session.selectRemembered memory.catalog table predicate).1.Follows representation
        (memory.perform (.select table predicate)).1 := by
  simp only [Session.selectRemembered, Memory.perform, Engine.execute, Engine.select]
  cases known : memory.catalog.table table with
  | error error => exact ⟨rfl, follows⟩
  | ok schema =>
      have found := Catalog.table_eq_ok_iff.mp known
      have admitted := representation.admits follows.holds table
        (OrderedMap.mem_keys_iff.mpr ⟨schema, found⟩)
      have sameLoad : Engine.loadValid (Storage.loader session.storage) table schema =
          Engine.loadValid (Storage.loader memory) table schema := by
        rw [Engine.loadValid, Engine.loadValid, representation.load follows.holds admitted]
        rfl
      dsimp only
      cases remembered : session.cache.get? ⟨table, predicate⟩ with
      | some records =>
          rcases follows.coherent _ records remembered with ⟨other, sameTable, valid, same⟩
          have sameSchema : other = schema := Option.some.inj (sameTable.symm.trans found)
          subst sameSchema
          have loaded := Memory.loadValid_eq_ok_iff.mpr ⟨rfl, valid⟩
          simp only [loaded, same]
          exact ⟨trivial, follows⟩
      | none =>
          simp only [sameLoad]
          cases loaded : Engine.loadValid (Storage.loader memory) table schema with
          | error error => exact ⟨rfl, follows⟩
          | ok store =>
              rcases Memory.loadValid_eq_ok_iff.mp loaded with ⟨rfl, valid⟩
              exact ⟨rfl, follows.holds, follows.coherent.insert found valid predicate⟩

/-- A command has the answer and the effect that it has on the memory. -/
theorem Follows.execute (follows : session.Follows representation memory)
    (admitted : ∀ table, command.table? = some table → validTableName table = true →
      representation.Admits table) :
    (session.execute command).2 = (memory.perform command).2 ∧
      (session.execute command).1.Follows representation (memory.perform command).1 := by
  have loaded := representation.loadCatalog follows.holds
  cases command with
  | help | exit => exact ⟨rfl, follows⟩
  | select table predicate =>
      simp only [Session.execute, withCatalog, loaded]
      split
      · exact follows.selectRemembered table predicate
      · exact follows.perform admitted
  | createTable | dropTable | listTables | info | insert | update | delete =>
      simp only [Session.execute, withCatalog, loaded]
      exact follows.perform admitted

theorem Follows.take (follows : session.Follows representation memory) {input : Input}
    (admitted : ∀ table, input.table? = some table → validTableName table = true →
      representation.Admits table) :
    (session.take input).2 = (memory.take input).2 ∧
      (session.take input).1.Follows representation (memory.take input).1 := by
  rw [Session.take, Memory.take]
  cases read : input.read with
  | error error => exact ⟨rfl, follows⟩
  | ok command =>
      apply follows.execute
      intro table named valid
      refine admitted table ?_ valid
      rw [Input.table?, read]
      exact named

/-- A session over a storage has the answers and the effect that its inputs have on the memory. -/
theorem Follows.run (follows : session.Follows representation memory) {inputs : List Input}
    (admitted : ∀ input ∈ inputs, ∀ table, input.table? = some table →
      validTableName table = true → representation.Admits table) :
    (session.run inputs).2 = (memory.run inputs).2 ∧
      (session.run inputs).1.Follows representation (memory.run inputs).1 := by
  induction inputs generalizing session memory with
  | nil => exact ⟨rfl, follows⟩
  | cons input rest ih =>
      rcases follows.take (admitted input List.mem_cons_self) with ⟨sameAnswer, next⟩
      rcases ih next fun other other_mem => admitted other (List.mem_cons_of_mem _ other_mem) with
        ⟨sameAnswers, last⟩
      simp only [Session.run, Memory.run, sameAnswer, sameAnswers]
      exact ⟨trivial, last⟩

/-- However often another session takes its place, the answers and the effect are those that the
inputs have on the memory. -/
theorem Follows.moves (follows : session.Follows representation memory) {moves : List Move}
    (admitted : ∀ input ∈ moves.filterMap Move.input?, ∀ table, input.table? = some table →
      validTableName table = true → representation.Admits table) :
    (session.moves moves).2 = (memory.run (moves.filterMap Move.input?)).2 ∧
      (session.moves moves).1.Follows representation
        (memory.run (moves.filterMap Move.input?)).1 := by
  induction moves generalizing session memory with
  | nil => exact ⟨rfl, follows⟩
  | cons move rest ih =>
      cases move with
      | give input =>
          have ahead := fun other other_mem => admitted other (List.mem_cons_of_mem _ other_mem)
          rcases follows.take (admitted input List.mem_cons_self) with ⟨sameAnswer, next⟩
          rcases ih next ahead with ⟨sameAnswers, last⟩
          have inputs : (Move.give input :: rest).filterMap Move.input? =
              input :: rest.filterMap Move.input? := rfl
          simp only [Session.moves, inputs, Memory.run, sameAnswer, sameAnswers]
          exact ⟨trivial, last⟩
      | reopen remembers =>
          have renewed : (Session.mk session.storage remembers .empty).Follows representation
              memory := ⟨follows.holds, SelectCache.coherent_empty memory⟩
          exact ih renewed admitted

/-- What is remembered cannot be told from what is selected anew: a session that remembers selects
and one that does not answer alike, whatever the memory holds, and leave the same memory. -/
theorem run_remembers_eq (memory : Memory) (inputs : List Input) :
    ((Session.mk memory true .empty).run inputs).2 =
        ((Session.mk memory false .empty).run inputs).2 ∧
      ((Session.mk memory true .empty).run inputs).1.storage =
        ((Session.mk memory false .empty).run inputs).1.storage := by
  have follows : ∀ remembers, (Session.mk memory remembers .empty).Follows Memory.itself memory :=
    fun remembers => ⟨rfl, SelectCache.coherent_empty memory⟩
  rcases (follows true).run fun _ _ _ _ _ => trivial with ⟨sameAnswers, last⟩
  rcases (follows false).run fun _ _ _ _ _ => trivial with ⟨otherAnswers, otherLast⟩
  refine ⟨sameAnswers.trans otherAnswers.symm, ?_⟩
  exact last.holds.trans otherLast.holds.symm

end Session

end Tabula
