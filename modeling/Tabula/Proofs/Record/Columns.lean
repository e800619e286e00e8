import Mathlib.Data.Finset.Dedup
import Tabula.Document.Records
import Tabula.Proofs.Clause

/-!
# The columns of a record

A record is made of pairs of columns and values that are listed, set one after the other, or read as
the members of an object. A column that is given again takes the new value in its old place, so in
every record each column stands once. That is why the test of a record against a schema, which
counts the record's columns and looks each of them up among the schema's, decides whether both have
the same columns; and why the values of a record that fits, laid out in the schema's order, are all
its values, each once.
-/

namespace Tabula

namespace Record

variable {given : List (String × Value)} {record : Record} {schema : Schema}

/-- What a record is made of, oldest first. A column may be given again. -/
inductive MadeOf : List (String × Value) → Record → Prop
  | pairs (given : List (String × Value)) : MadeOf given (.ofList given)
  | set {given : List (String × Value)} {record : Record} (made : MadeOf given record)
      (column : String) (value : Value) :
      MadeOf (given ++ [(column, value)]) (record.insert column value)
  /-- The object may stand anywhere in a text. -/
  | read {tokens rest : List Json.Token} {members : List (String × Value)} {record : Record}
      (object : Json.Reader.object (.keyed Value.reader) tokens = .ok (members, rest))
      (read : Record.reader tokens = .ok (record, rest)) : MadeOf members record

/-- How a record that was made of pairs is tested against a schema. -/
structure Tested (given : List (String × Value)) (record : Record) (schema : Schema) : Prop where
  /-- Each column stands once, in the order in which the columns were given first. -/
  columns : record.keys.Nodup ∧ record.keys = (given.map Prod.fst).eraseDups
  values : ∀ column value, record.get? column = some value ↔ LastGiven given column value
  fits_iff : record.conforms schema = true ↔
    record.keys.toFinset = schema.names.toFinset ∧
      ∀ column value, record.get? column = some value →
        schema.columnType? column = some value.type
  complete : record.conforms schema = true → none ∉ record.project schema
  /-- The values stand in the order of the schema's columns, each under its own. -/
  arranged : record.conforms schema = true →
    ∃ row : List (String × Value), row.Perm record.entries ∧ row.map Prod.fst = schema.names ∧
      record.project schema = row.map fun entry => some entry.2

/-- However a record was made, its columns were bound one after the other. -/
theorem MadeOf.eq_ofList (made : MadeOf given record) : record = .ofList given := by
  induction made with
  | pairs given => rfl
  | set made column value ih => rw [ih, OrderedMap.ofList_concat]
  | read object read =>
      rw [Record.reader, object] at read
      cases read
      rfl

theorem conforms_iff_toFinset :
    record.conforms schema = true ↔
      record.keys.toFinset = schema.names.toFinset ∧
        ∀ column value, record.get? column = some value →
          schema.columnType? column = some value.type := by
  -- Neither list repeats a column, so with the same set of columns they are permutations.
  have sameColumns : record.keys.Perm schema.names ↔
      record.keys.toFinset = schema.names.toFinset :=
    ⟨List.toFinset_eq_of_perm _ _,
      List.perm_of_nodup_nodup_toFinset_eq record.nodup schema.columns.nodup⟩
  rw [conforms_iff, sameColumns, Prod.forall]
  simp only [OrderedMap.get?_eq_some_iff]

/-- A record that fits is laid out as its own bindings in the schema's order. -/
theorem project_of_conforms (conforms : record.conforms schema = true) :
    ∃ row : List (String × Value), row.Perm record.entries ∧ row.map Prod.fst = schema.names ∧
      record.project schema = row.map fun entry => some entry.2 := by
  have sameColumns := keys_perm_of_conforms conforms
  have bound : ∀ column ∈ schema.names, column ∈ record.keys :=
    fun column => sameColumns.mem_iff.mpr
  exact ⟨record.bindings schema.names, OrderedMap.bindings_perm sameColumns.symm,
    OrderedMap.map_fst_bindings bound, OrderedMap.map_get?_eq_map_bindings bound⟩

/-- However a record is made, it passes the test against a schema if and only if it has the same
set of columns and values of their types; and then its values are laid out without a gap, each
once, in the order of the schema. -/
theorem tested_of_madeOf (made : MadeOf given record) (schema : Schema) :
    Tested given record schema where
  columns := by
    refine ⟨record.keys_nodup, ?_⟩
    rw [made.eq_ofList, OrderedMap.keys_ofList]
  values column value := by
    rw [made.eq_ofList, OrderedMap.get?_ofList_eq_some_iff]
  fits_iff := conforms_iff_toFinset
  complete conforms := by
    rcases project_of_conforms conforms with ⟨row, -, -, projected⟩
    rw [projected]
    simp
  arranged := project_of_conforms

/-- A record is read that has a column twice, out of the schema's order, and then its `ID` is set
anew. -/
theorem tested_of_madeOf_reread :
    MadeOf [("a", .str "x"), ("ID", .int 1), ("a", .bool true), ("ID", .int 7)]
        ⟨[("a", .bool true), ("ID", .int 7)], by decide⟩ ∧
      Tested [("a", .str "x"), ("ID", .int 1), ("a", .bool true), ("ID", .int 7)]
        ⟨[("a", .bool true), ("ID", .int 7)], by decide⟩ ⟨.single "a" .bool, by decide⟩ :=
  have object : Json.Reader.object (.keyed Value.reader)
      (Json.lex "\x7b\"a\": \"x\", \"ID\": 1, \"a\": true\x7d".toList) =
        .ok ([("a", .str "x"), ("ID", .int 1), ("a", .bool true)], []) := rfl
  have made := (MadeOf.read object rfl).set "ID" (.int 7)
  ⟨made, tested_of_madeOf made _⟩

end Record

end Tabula
