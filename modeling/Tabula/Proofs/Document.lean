import Tabula.Document.Catalog
import Tabula.Document.Records
import Tabula.Proofs.Json.Reading

/-!
# Documents read back

What is written as a document is read back from it, in either layout: every catalog and every store
of records, whatever names and texts they hold. So documents tell catalogs, and stores, apart.
-/

namespace Tabula

open Json (Layout Reader)

/-! ## The catalog -/

theorem ColumnType.reads_reader (type : ColumnType) :
    Reader.Reads ColumnType.reader (.string type.name) type := by
  intro rest
  simp [Json.tokens, ColumnType.reader]

namespace Schema

theorem reads_columnsReader (schema : Schema) :
    Reader.Reads columnsReader schema.columnsToJson schema.columns := by
  intro rest
  have read := Reader.reads_keyed_entries ColumnType.reads_reader schema.columns.entries rest
  rw [columnsReader, columnsToJson, read]
  simp only [OrderedMap.ofList_entries]

theorem reads_memberReader (schema : Schema) :
    Reader.Reads (memberReader (some "columns")) schema.columnsToJson (some schema.columns) := by
  intro rest
  rw [memberReader, if_pos rfl, reads_columnsReader schema]

theorem reads_partsReader (schema : Schema) :
    Reader.Reads partsReader schema.toJson schema.columns := by
  intro rest
  have reads : (Reader.object memberReader).Reads schema.toJson [some schema.columns] := by
    have read := @Reader.reads_object _ Unit memberReader (fun _ => "columns")
      (fun _ => schema.columnsToJson) (fun _ => some schema.columns) [()]
    refine read ?_
    intro _ _
    exact schema.reads_memberReader
  have read := reads rest
  rw [toJson, Json.tokens, List.cons_append] at read ⊢
  rw [partsReader, read]
  · rfl
  · nofun

theorem reads_reader (schema : Schema) : Reader.Reads reader schema.toJson schema := by
  intro rest
  rw [reader, reads_partsReader schema]
  simp only [ofColumns?_columns]

/-- A schema is read back from its document in either layout. -/
theorem ofDocument_write (schema : Schema) (layout : Layout) :
    ofDocument (schema.toJson.write layout) = .ok schema := by
  rw [ofDocument, Reader.readAll_write schema.reads_reader]
  rfl

end Schema

namespace Catalog

theorem reads_reader (catalog : Catalog) : Reader.Reads reader catalog.toJson catalog := by
  intro rest
  have read := Reader.reads_keyed_entries Schema.reads_reader catalog.entries rest
  rw [reader, toJson, read]
  simp only [OrderedMap.ofList_entries]

/-- A catalog is read back from its document in either layout. -/
theorem ofDocument_write (catalog : Catalog) (layout : Layout) :
    ofDocument (catalog.toJson.write layout) = .ok catalog := by
  rw [ofDocument, Reader.readAll_write catalog.reads_reader]
  rfl

theorem ofDocument_indented (catalog : Catalog) :
    ofDocument (String.ofList catalog.toJson.indented) = .ok catalog :=
  catalog.ofDocument_write .indented

end Catalog

/-! ## Records -/

theorem Value.reads_reader (value : Value) : Reader.Reads Value.reader value.toJson value := by
  intro rest
  cases value with
  | int number => rfl
  | str text => rfl
  | bool truth => rfl

theorem Record.reads_reader (record : Record) :
    Reader.Reads Record.reader record.toJson record := by
  intro rest
  have read := Reader.reads_keyed_entries Value.reads_reader record.entries rest
  rw [Record.reader, toJson, read]
  simp only [OrderedMap.ofList_entries]

namespace Store

theorem reads_reader (store : Store) : Reader.Reads reader store.toJson store := by
  intro rest
  have reads : (Reader.array Record.reader).Reads store.toJson store.records := by
    refine Reader.reads_array ?_
    intro record _
    exact record.reads_reader
  rw [reader, reads]

/-- The records of a table are read back from their document in either layout. -/
theorem ofDocument_write (store : Store) (layout : Layout) :
    ofDocument (store.toJson.write layout) = .ok store := by
  rw [ofDocument, Reader.readAll_write store.reads_reader]
  rfl

theorem ofDocument_indented (store : Store) :
    ofDocument (String.ofList store.toJson.indented) = .ok store :=
  store.ofDocument_write .indented

end Store

/-! ## What documents tell apart -/

/-- A text from which a value is read back, whichever layout it was written in, belongs to that
value alone. -/
theorem eq_of_write_eq {α : Type} {toJson : α → Json} {ofDocument : String → Except Error α}
    (readBack : ∀ value layout, ofDocument ((toJson value).write layout) = .ok value)
    {left right : α} {first second : Layout}
    (sameText : (toJson left).write first = (toJson right).write second) : left = right := by
  have read := readBack left first
  rw [sameText, readBack right second] at read
  exact (Except.ok.inj read).symm

/-- No text is read as a catalog and as records: the one is an object, the other an array. -/
theorem Store.ofDocument_of_catalog {text : String} {catalog : Catalog}
    (read : Catalog.ofDocument text = .ok catalog) :
    ofDocument text = .error (.document .malformed) := by
  have starts : ∃ rest, Json.lex text.toList = .openBrace :: rest := by
    rw [Catalog.ofDocument, Reader.readAll, Catalog.reader] at read
    cases tokens : Json.lex text.toList with
    | nil =>
        rw [tokens] at read
        cases read
    | cons token rest =>
        rw [tokens] at read
        cases token with
        | openBrace => exact ⟨rest, rfl⟩
        | _ => cases read
  rcases starts with ⟨rest, tokens⟩
  rw [ofDocument, Reader.readAll, tokens]
  rfl

theorem Catalog.ofDocument_store (store : Store) (catalog : Catalog) :
    ofDocument (String.ofList store.toJson.indented) ≠ .ok catalog := by
  intro read
  have unread := Store.ofDocument_of_catalog read
  rw [store.ofDocument_indented] at unread
  cases unread

/-- Every catalog and every store of records is read back from its document, in either layout, just
as it was; so two catalogs, or two stores, share a document only if they are the same. -/
theorem documents_readBack :
    (∀ (catalog : Catalog) (layout : Layout),
        Catalog.ofDocument (catalog.toJson.write layout) = .ok catalog) ∧
      (∀ (store : Store) (layout : Layout),
        Store.ofDocument (store.toJson.write layout) = .ok store) ∧
      (∀ (left right : Catalog) (first second : Layout),
        left.toJson.write first = right.toJson.write second → left = right) ∧
      ∀ (left right : Store) (first second : Layout),
        left.toJson.write first = right.toJson.write second → left = right :=
  ⟨Catalog.ofDocument_write, Store.ofDocument_write,
    fun _ _ _ _ => eq_of_write_eq Catalog.ofDocument_write,
    fun _ _ _ _ => eq_of_write_eq Store.ofDocument_write⟩

/-- A table with a column of each type. -/
def typedCatalog : Catalog :=
  .ofList [("t", ⟨.ofList [("n", .int), ("s", .str), ("b", .bool)], by decide⟩)]

/-- Records of that table. -/
def typedStore : Store where
  records :=
    [.ofList [("ID", .int 1), ("n", .int (-5)), ("s", .str "\"7\"\n"), ("b", .bool true)],
      .ofList [("ID", .int 2), ("n", .int 7), ("s", .str "7"), ("b", .bool false)]]

/-- A catalog and records that commands make have the documents of the ones above, so they are
these. -/
theorem documents_readBack_typed :
    ∃ catalog schema first second, catalog ≠ ∅ ∧
      Catalog.createTable ∅ "t" ["n:int", "s:str", "b:bool"] = .ok (catalog, schema) ∧
      Store.empty.insert schema [.int (-5), .str "\"7\"\n", .bool true] = .ok (first, 1) ∧
      first.insert schema [.int 7, .str "7", .bool false] = .ok (second, 2) ∧
      catalog.toJson.write .compact = typedCatalog.toJson.write .compact ∧
      second.toJson.write .indented = typedStore.toJson.write .indented ∧
      catalog = typedCatalog ∧ second = typedStore := by
  refine ⟨_, _, _, _, ?_, rfl, rfl, rfl, rfl, rfl, ?_, ?_⟩
  · exact nofun
  · exact documents_readBack.2.2.1 _ _ .compact .compact rfl
  · exact documents_readBack.2.2.2 _ _ .indented .indented rfl

end Tabula
