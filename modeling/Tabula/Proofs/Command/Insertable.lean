import Tabula.Proofs.Command.Lines
import Tabula.Proofs.Engine

/-!
# Rows that a line can insert

A command is of the verb that its line begins with, so a line that inserts has been read by the
parser of inserts. The name that it finds ends before the first mention of `values`, and its values
are found between commas and without parentheses. Hence no line inserts into a table whose name
mentions `values`, and none inserts a string with a comma or a parenthesis; every other row can be
written for every other table.
-/

namespace Tabula

namespace Text

theorem trim_infix (text : List Char) : trim text <:+: text := by
  rcases exists_append_trim text with ⟨before, after, whole, -⟩
  exact ⟨before, after, by rw [List.append_assoc, ← whole]⟩

theorem Mentions.of_infix {part text keyword : List Char} (mentioned : Mentions part keyword)
    (inside : part <:+: text) : Mentions text keyword := by
  apply List.IsInfix.trans mentioned
  exact inside.map Char.toLower

end Text

namespace Value

theorem mem_of_mem_unquote? {text inner : List Char} {c : Char}
    (unquoted : unquote? text = some inner) (c_mem : c ∈ inner) : c ∈ text := by
  cases text with
  | nil => simp [unquote?] at unquoted
  | cons quote rest =>
      rw [unquote?] at unquoted
      split at unquoted
      · simp only [Option.some.injEq] at unquoted
        subst unquoted
        exact List.mem_cons_of_mem quote (List.mem_of_mem_dropLast c_mem)
      · simp at unquoted

/-- The characters of a string stand in the literal that it is read from. -/
theorem mem_of_ofLiteral? {literal : List Char} {text : String} {c : Char}
    (read : ofLiteral? literal = some (.str text)) (c_mem : c ∈ text.toList) : c ∈ literal := by
  apply (Text.trim_infix literal).subset
  simp only [ofLiteral?] at read
  split at read
  · simp at read
  · simp only [Option.some.injEq, ofTrimmed] at read
    split at read
    · simp at read
    split at read
    · simp at read
    split at read
    · rename_i inner unquoted
      simp only [str.injEq] at read
      subst read
      rw [String.toList_ofList] at c_mem
      exact mem_of_mem_unquote? unquoted c_mem
    · split at read
      · simp at read
      · simp only [str.injEq] at read
        subst read
        rwa [String.toList_ofList] at c_mem

end Value

namespace Command

open Text (Trimmed Mentions)

variable {line text : List Char} {table : String} {row : List Value} {verb : Verb}
  {command : Command}

/-! ## The verb of a line -/

theorem verb_of_parseBare {bare : Command} (read : parseBare line bare = .ok command) :
    command = bare := by
  rw [parseBare] at read
  split at read
  · simp [refuse] at read
  · simpa [eq_comm] using read

theorem exists_of_map_parseTable {make : String → Command}
    (read : (parseTable line).map make = .ok command) : ∃ table, command = make table := by
  cases found : parseTable line with
  | error error => simp [found, Except.map] at read
  | ok table =>
      simp only [found, Except.map, Except.ok.injEq] at read
      exact ⟨table, read.symm⟩

theorem verb_of_parseSelect (read : parseSelect line = .ok command) : command.verb = .select := by
  rw [parseSelect] at read
  split at read
  · simp [refuse] at read
  split at read
  · rcases bind_eq_ok_iff.mp read with ⟨table, -, same⟩
    simp only [pure, Except.pure, Except.ok.injEq] at same
    simp [← same, Command.verb]
  · rcases bind_eq_ok_iff.mp read with ⟨table, -, found⟩
    rcases bind_eq_ok_iff.mp found with ⟨condition, -, same⟩
    simp only [pure, Except.pure, Except.ok.injEq] at same
    simp [← same, Command.verb]

theorem verb_of_parseUpdate (read : parseUpdate line = .ok command) : command.verb = .update := by
  rw [parseUpdate] at read
  split at read
  · split at read
    · rcases bind_eq_ok_iff.mp read with ⟨table, -, parted⟩
      rcases bind_eq_ok_iff.mp parted with ⟨text, -, assigned⟩
      rcases bind_eq_ok_iff.mp assigned with ⟨assignment, -, found⟩
      rcases bind_eq_ok_iff.mp found with ⟨condition, -, same⟩
      simp only [pure, Except.pure, Except.ok.injEq] at same
      simp [← same, Command.verb]
    · simp [refuse] at read
  · simp [refuse] at read

theorem verb_of_parseDelete (read : parseDelete line = .ok command) : command.verb = .delete := by
  rw [parseDelete] at read
  split at read
  · rcases bind_eq_ok_iff.mp read with ⟨table, -, found⟩
    rcases bind_eq_ok_iff.mp found with ⟨condition, -, same⟩
    simp only [pure, Except.pure, Except.ok.injEq] at same
    simp [← same, Command.verb]
  · simp [refuse] at read

theorem verb_of_parseCreateTable (read : parseCreateTable line = .ok command) :
    command.verb = .createTable := by
  rcases bind_eq_ok_iff.mp read with ⟨words, -, chosen⟩
  split at chosen
  · simp only [Except.ok.injEq] at chosen
    simp [← chosen, Command.verb]
  · simp [refuse] at chosen

theorem verb_of_parseInsert (read : parseInsert line = .ok command) : command.verb = .insert := by
  rw [parseInsert] at read
  split at read
  · rcases bind_eq_ok_iff.mp read with ⟨table, -, found⟩
    rcases bind_eq_ok_iff.mp found with ⟨row, -, same⟩
    simp only [pure, Except.pure, Except.ok.injEq] at same
    simp [← same, Command.verb]
  · simp [refuse] at read

theorem verb_of_parseVerb (read : parseVerb line verb = .ok command) : command.verb = verb := by
  cases verb with
  | createTable => exact verb_of_parseCreateTable read
  | dropTable | info =>
      rcases exists_of_map_parseTable read with ⟨table, rfl⟩
      rfl
  | listTables | help | exit =>
      rw [verb_of_parseBare read]
      rfl
  | insert => exact verb_of_parseInsert read
  | select => exact verb_of_parseSelect read
  | update => exact verb_of_parseUpdate read
  | delete => exact verb_of_parseDelete read

theorem parseVerb_of_parse {written : String} (read : parse written = .ok command) :
    parseVerb (Text.trim written.toList) command.verb = .ok command := by
  rcases exists_verb_of_parse read with ⟨verb, _, _, -, -, -, reads⟩
  rwa [verb_of_parseVerb reads]

/-! ## The parts of an insert -/

theorem exists_parts_of_parseInsert (read : parseInsert line = .ok (.insert table row)) :
    ∃ start stop, Text.position? valuesKeyword line = some stop ∧
      tableBetween line start stop = .ok table ∧
        parseValues (line.drop (stop + valuesKeyword.length)) = .ok row := by
  cases into : Text.position? intoKeyword line with
  | none => simp [parseInsert, into, refuse] at read
  | some place =>
      rcases (parseInsert_eq_ok_iff into).mp read with ⟨stop, found, named, valued⟩
      exact ⟨_, stop, found, named, valued⟩

/-- A keyword is found no later than it is mentioned, so a name before its first occurrence does not
mention it. -/
theorem not_mentions_of_tableBetween {keyword : List Char} {start stop : Nat}
    (nonempty : keyword ≠ []) (found : Text.position? keyword line = some stop)
    (named : tableBetween line start stop = .ok table) : ¬Mentions table.toList keyword := by
  intro mentioned
  rcases tableBetween_eq_ok_iff.mp named with ⟨text, parted, trimmed, -⟩
  rcases part_eq_ok_iff.mp parted with ⟨ordered, inside, rfl⟩
  have before : table.toList <:+: line.take stop := by
    rw [← trimmed]
    apply (Text.trim_infix _).trans
    have whole : line.take stop = line.take start ++ (line.drop start).take (stop - start) := by
      rw [← List.take_add, Nat.add_sub_cancel' ordered]
    rw [whole]
    exact (List.suffix_append _ _).isInfix
  rw [← List.take_append_drop stop line] at found
  have early := Text.position?_add_length_le nonempty (mentioned.of_infix before) found
  have positive := List.length_pos_iff.mpr nonempty
  rw [List.length_take] at early
  omega

theorem exists_literal_of_mem_parseValuesFrom {place : Nat} {texts : List (List Char)}
    {value : Value} (read : parseValuesFrom place texts = .ok row) (value_mem : value ∈ row) :
    ∃ literal ∈ texts, Value.ofLiteral? literal = some value := by
  induction texts generalizing place row with
  | nil =>
      simp only [parseValuesFrom, Except.ok.injEq] at read
      simp [← read] at value_mem
  | cons text texts ih =>
      rw [parseValuesFrom] at read
      split at read
      · simp [refuse] at read
      · rename_i first literal
        cases others : parseValuesFrom (place + 1) texts with
        | error error => simp [others, Except.map] at read
        | ok values =>
            simp only [others, Except.map, Except.ok.injEq] at read
            rw [← read, List.mem_cons] at value_mem
            rcases value_mem with rfl | later
            · exact ⟨text, List.mem_cons_self, literal⟩
            · rcases ih others later with ⟨other, other_mem, read⟩
              exact ⟨other, List.mem_cons_of_mem _ other_mem, read⟩

/-- The strings among values that are read hold nothing that separates values. -/
theorem plain_of_parseValues {string : String} (read : parseValues text = .ok row)
    (string_mem : .str string ∈ row) : ∀ c ∈ [',', '(', ')'], c ∉ string.toList := by
  rw [parseValues] at read
  split at read
  · simp [refuse] at read
  rename_i inner wrapped
  split at read
  · simp [refuse] at read
  rename_i flat
  split at read
  · simp only [Except.ok.injEq] at read
    simp [← read] at string_mem
  · intro c separates c_mem
    rcases exists_literal_of_mem_parseValuesFrom read string_mem with ⟨literal, piece, found⟩
    rcases Text.mem_of_mem_pieces piece (Value.mem_of_ofLiteral? found c_mem) with
      ⟨inside, unbroken⟩
    simp only [List.any_eq_true, Bool.or_eq_true, beq_iff_eq, not_exists, not_and, not_or] at flat
    simp only [List.mem_cons, List.not_mem_nil, or_false] at separates
    rcases separates with rfl | rfl | rfl
    · simp at unbroken
    · exact (flat _ inside).1 rfl
    · exact (flat _ inside).2 rfl

theorem plain_of_parse_insert {written : String}
    (read : parse written = .ok (.insert table row)) :
    ¬Mentions table.toList valuesKeyword ∧
      ∀ text, .str text ∈ row → ∀ c ∈ [',', '(', ')'], c ∉ text.toList := by
  rcases exists_parts_of_parseInsert (parseVerb_of_parse read) with
    ⟨start, stop, found, named, valued⟩
  exact ⟨not_mentions_of_tableBetween (by decide) found named,
    fun text text_mem => plain_of_parseValues valued text_mem⟩

/-- Which rows a line can insert into a table that can be created and whose name has no white space
at either end: all rows, unless the name mentions `values` or a string of the row holds a comma or a
parenthesis. -/
theorem exists_insert_line_iff {catalog extended : Catalog} {definitions : List String}
    {schema : Schema} (created : catalog.createTable table definitions = .ok (extended, schema))
    (starts : ∀ c ∈ table.toList.head?, Text.isBlank c = false)
    (ends : ∀ c ∈ table.toList.getLast?, Text.isBlank c = false) (row : List Value) :
    (∃ line, parse line = .ok (.insert table row)) ↔
      ¬Mentions table.toList "values".toList ∧
        ∀ text, .str text ∈ row → ∀ c ∈ [',', '(', ')'], c ∉ text.toList := by
  constructor
  · rintro ⟨line, read⟩
    exact plain_of_parse_insert read
  · intro plain
    have valid := (Catalog.createTable_eq_ok_iff.mp created).2.1
    have nonempty : table.toList ≠ [] := by
      simpa using (mem_of_validTableName valid).1
    refine ⟨insertLine "insert" "into" table "values" row, ?_⟩
    exact (parse_insertLine_iff rfl rfl rfl ⟨nonempty, starts, ends⟩).mpr plain

theorem exists_insert_line_iff_into_x :
    ∃ extended schema, Catalog.createTable ∅ "into x" ["a:str"] = .ok (extended, schema) ∧
      Trimmed "into x".toList ∧
      (∃ line, parse line = .ok (.insert "into x" [.str "y z"])) ∧
      ¬∃ line, parse line = .ok (.insert "into x" [.str "y, z"]) := by
  have created : ∃ extended schema,
      Catalog.createTable ∅ "into x" ["a:str"] = .ok (extended, schema) := ⟨_, _, rfl⟩
  rcases created with ⟨extended, schema, created⟩
  have trimmed : Trimmed "into x".toList := by decide
  refine ⟨extended, schema, created, trimmed, ?_, ?_⟩
  · apply (exists_insert_line_iff created trimmed.head trimmed.last [.str "y z"]).mpr
    constructor
    · decide
    · simp
  · intro inserted
    have plain :=
      ((exists_insert_line_iff created trimmed.head trimmed.last [.str "y, z"]).mp inserted).2
    simp at plain

/-- Tables can be created into which no line inserts a comma, or nothing at all. -/
theorem exists_created_not_inserted :
    (∃ extended schema, Catalog.createTable ∅ "t" ["a:str"] = .ok (extended, schema)) ∧
      Trimmed "t".toList ∧ (¬∃ line, parse line = .ok (.insert "t" [.str ","])) ∧
      (∃ extended schema, Catalog.createTable ∅ "values" ["a:str"] = .ok (extended, schema)) ∧
      Trimmed "values".toList ∧ ∀ row, ¬∃ line, parse line = .ok (.insert "values" row) := by
  refine ⟨⟨_, _, rfl⟩, by decide, ?_, ⟨_, _, rfl⟩, by decide, ?_⟩
  · rintro ⟨line, read⟩
    have plain := (plain_of_parse_insert read).2
    simp at plain
  · rintro row ⟨line, read⟩
    apply (plain_of_parse_insert read).1
    decide

end Command

end Tabula
