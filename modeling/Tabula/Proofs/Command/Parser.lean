import Tabula.Command.Parser
import Tabula.Proofs.Value.Literal

/-!
# The parts of a line

What the parser makes of each part of a line: its verb, the table between two places, a condition,
and the values in parentheses. Written conditions and values are read back; and whatever is read, it
is no longer than the part that it is read from, nor has it more values than the part has pieces.
-/

namespace Tabula

open Text (Trimmed)

theorem bind_eq_ok_iff {α β : Type} {result : Except Error α} {next : α → Except Error β}
    {value : β} :
    (result >>= next) = .ok value ↔ ∃ middle, result = .ok middle ∧ next middle = .ok value := by
  cases result with
  | error error => exact ⟨nofun, fun found => by cases found.choose_spec.1⟩
  | ok middle =>
      constructor
      · exact fun read => ⟨middle, rfl, read⟩
      · rintro ⟨_, ⟨⟩, read⟩
        exact read

/-! ## The verb -/

theorem Verb.isBlank_of_mem_spelled {verb : Verb} {word : List Char}
    (spelled : Text.foldCase word = verb.word.toList) {c : Char} (c_mem : c ∈ word) :
    Text.isBlank c = false := by
  have plain : ∀ c ∈ verb.word.toList, Text.isBlank c = false := by
    cases verb <;> exact List.all_iff_forall_prop.mp (by decide)
  rw [← Text.isBlank_toLower]
  refine plain c.toLower ?_
  rw [← spelled]
  exact List.mem_map_of_mem c_mem

theorem Verb.trimmed_spelled {verb : Verb} {word : List Char}
    (spelled : Text.foldCase word = verb.word.toList) : Trimmed word := by
  refine Text.trimmed_of_forall ?_ fun _ => isBlank_of_mem_spelled spelled
  rintro rfl
  revert spelled
  cases verb <;> decide

namespace Command

/-- A line that begins with the word of a verb, in any case and with white space before it or not,
is read as a command of that verb. -/
theorem parse_eq_parseVerb_of_trim {line : String} {word after : List Char} {verb : Verb}
    (written : Text.trim line.toList = word ++ after)
    (spelled : Text.foldCase word = verb.word.toList)
    (apart : ∀ c ∈ after.head?, Text.isBlank c = true) :
    parse line = parseVerb (Text.trim line.toList) verb := by
  have words := Text.blankSeparated_append_of_head (Verb.trimmed_spelled spelled).nonempty
    (fun _ => Verb.isBlank_of_mem_spelled spelled) apart
  rw [parse, parseTrimmed, written, words]
  simp only [spelled, String.ofList_toList, Verb.ofWord?_word]

/-- A line that begins with the word of a verb, in any case, and a space, and ends with no white
space, is read as a command of that verb. -/
theorem parse_eq_parseVerb {line : String} {word rest last : List Char} {verb : Verb}
    (written : line.toList = word ++ ' ' :: (rest ++ last))
    (spelled : Text.foldCase word = verb.word.toList) (ends : Trimmed last) :
    parse line = parseVerb line.toList verb := by
  have trimmed : Trimmed line.toList := by
    rw [written, ← List.cons_append]
    exact (Verb.trimmed_spelled spelled).append ends _
  have parsed := parse_eq_parseVerb_of_trim (trimmed.trim_eq.trans written) spelled
    (by rintro _ ⟨⟩; rfl)
  rwa [trimmed.trim_eq] at parsed

/-- A line that is read begins with the word of a verb, and the parser of that verb reads it. -/
theorem exists_verb_of_parse {line : String} {command : Command} (read : parse line = .ok command) :
    ∃ verb word after, Text.trim line.toList = word ++ after ∧
      Text.foldCase word = verb.word.toList ∧ (∀ c ∈ after.head?, Text.isBlank c = true) ∧
        parseVerb (Text.trim line.toList) verb = .ok command := by
  rw [parse, parseTrimmed] at read
  split at read
  · cases read
  · rename_i word others words
    simp only at read
    split at read
    · cases read
    · rename_i verb known
      have nonempty : Text.trim line.toList ≠ [] := by
        intro nothing
        rw [nothing] at words
        cases words
      rcases Text.exists_append_of_blankSeparated (Text.trimmed_trim nonempty).head words with
        ⟨after, written, apart⟩
      refine ⟨verb, word, after, written, ?_, apart, read⟩
      rw [Verb.word_of_ofWord? known, String.toList_ofList]

/-! ## The table -/

theorem part_eq_ok_iff {line text : List Char} {start stop : Nat} :
    part line start stop = .ok text ↔
      start ≤ stop ∧ stop ≤ line.length ∧ (line.drop start).take (stop - start) = text := by
  rw [part, Text.slice?]
  split
  · rename_i found
    split at found
    · rename_i ordered
      cases found
      simp [ordered]
    · cases found
  · rename_i missing
    split at missing
    · cases missing
    · rename_i disordered
      simp only [refuse, reduceCtorEq, false_iff]
      exact fun ordered => disordered ⟨ordered.1, ordered.2.1⟩

theorem tableBetween_eq_ok_iff {line : List Char} {start stop : Nat} {table : String} :
    tableBetween line start stop = .ok table ↔
      ∃ text, part line start stop = .ok text ∧ Text.trim text = table.toList ∧
        table.toList ≠ [] := by
  cases found : part line start stop with
  | error error => simp [tableBetween, found]
  | ok text =>
      simp only [tableBetween, found, Except.ok.injEq, exists_eq_left']
      split
      · rename_i blank
        simp only [refuse, reduceCtorEq, false_iff, not_and, not_not]
        exact fun same => same.symm.trans blank
      · rename_i dark
        rw [Except.ok.injEq]
        constructor
        · rintro rfl
          rw [String.toList_ofList]
          exact ⟨rfl, dark⟩
        · rintro ⟨same, -⟩
          rw [same, String.ofList_toList]

end Command

/-! ## Conditions -/

namespace Text

theorem splitOnce?_append {mark : Char} {left : List Char} (absent : mark ∉ left)
    (right : List Char) : splitOnce? mark (left ++ mark :: right) = some (left, right) := by
  induction left with
  | nil => rw [List.nil_append, splitOnce?, if_pos rfl]
  | cons c left ih =>
      rw [List.mem_cons, not_or] at absent
      rw [List.cons_append, splitOnce?, if_neg (Ne.symm absent.1), ih absent.2]
      rfl

theorem eq_append_of_splitOnce? {mark : Char} {text left right : List Char}
    (split : splitOnce? mark text = some (left, right)) : text = left ++ mark :: right := by
  induction text generalizing left with
  | nil => cases split
  | cons c text ih =>
      rw [splitOnce?] at split
      split at split
      · rename_i marked
        cases split
        rw [marked]
        rfl
      · rw [Option.map_eq_some_iff] at split
        rcases split with ⟨⟨before, after⟩, found, same⟩
        cases same
        rw [ih found]
        rfl

end Text

namespace Condition

theorem toList_display (condition : Condition) :
    condition.display.toList =
      condition.column.toList ++ ' ' :: '=' :: ' ' :: condition.value.displayQuoted.toList := by
  simp [display]

/-- A condition on a column that stands out where it is written: it has a name, with no white space
at either end and no equals sign in it. -/
structure Writable (condition : Condition) : Prop where
  trimmed : Trimmed condition.column.toList
  plain : '=' ∉ condition.column.toList

theorem parse_display {condition : Condition} (writable : condition.Writable) :
    parse condition.display.toList = .ok condition := by
  have divided : condition.display.toList =
      (condition.column.toList ++ [' ']) ++ '=' :: ' ' :: condition.value.displayQuoted.toList := by
    rw [toList_display, List.append_assoc]
    rfl
  have absent : '=' ∉ condition.column.toList ++ [' '] := by
    simp [writable.plain]
  have column : Text.trim (condition.column.toList ++ [' ']) = condition.column.toList :=
    writable.trimmed.trim_append (List.forall_mem_singleton.mpr rfl)
  rw [parse, divided, Text.splitOnce?_append absent]
  simp only [column, if_neg writable.trimmed.nonempty, Value.ofLiteral?_space_cons,
    Value.ofLiteral?_displayQuoted, String.ofList_toList]

/-- A column is, with an equals sign and the literal of the value, no longer than the text that they
are read from. -/
theorem exists_literal_of_parse {text : List Char} {condition : Condition}
    (read : parse text = .ok condition) :
    ∃ literal, Value.ofLiteral? literal = some condition.value ∧
      condition.column.toList.length + 1 + literal.length ≤ text.length := by
  rw [parse] at read
  split at read
  · cases read
  · rename_i left right divided
    rw [Text.eq_append_of_splitOnce? divided]
    simp only at read
    split at read
    · cases read
    split at read
    · cases read
    · rename_i value literal
      cases read
      refine ⟨right, literal, ?_⟩
      have shorter := Text.length_trim_le left
      simp only [String.toList_ofList, List.length_append, List.length_cons]
      omega

end Condition

/-! ## Values -/

namespace Command

/-- Values as they are written between parentheses. -/
def writtenValues (row : List Value) : List Char :=
  [',', ' '].intercalate (row.map fun value => value.displayQuoted.toList)

theorem writtenValues_cons_cons (value next : Value) (row : List Value) :
    writtenValues (value :: next :: row) =
      value.displayQuoted.toList ++ ',' :: ' ' :: writtenValues (next :: row) := by
  simp [writtenValues]

/-- A character that does not separate values stands among them only as part of one. -/
theorem mem_writtenValues_iff {row : List Value} {c : Char} (other : c ∉ [',', ' ']) :
    c ∈ writtenValues row ↔ ∃ value ∈ row, c ∈ value.displayQuoted.toList := by
  induction row with
  | nil => simp [writtenValues]
  | cons value row ih =>
      cases row with
      | nil => simp [writtenValues]
      | cons next row =>
          simp only [List.mem_cons, List.not_mem_nil, or_false, not_or] at other
          rw [writtenValues_cons_cons, List.mem_append, List.mem_cons, List.mem_cons, ih]
          simp [other]

/-- Commas stand between the values and in them. -/
theorem count_comma_writtenValues (value : Value) (row : List Value) :
    (writtenValues (value :: row)).countP (· == ',') =
      row.length +
        ((value :: row).map fun value => value.displayQuoted.toList.countP (· == ',')).sum := by
  induction row generalizing value with
  | nil => simp [writtenValues]
  | cons next row ih =>
      rw [writtenValues_cons_cons, List.countP_append, List.countP_cons, List.countP_cons, ih,
        List.map_cons, List.sum_cons, List.length_cons]
      simp
      omega

theorem length_of_parseValuesFrom {place : Nat} {texts : List (List Char)} {row : List Value}
    (read : parseValuesFrom place texts = .ok row) : row.length = texts.length := by
  induction texts generalizing place row with
  | nil =>
      cases read
      rfl
  | cons text texts ih =>
      rw [parseValuesFrom] at read
      split at read
      · cases read
      · cases others : parseValuesFrom (place + 1) texts with
        | error error =>
            rw [others] at read
            cases read
        | ok values =>
            rw [others] at read
            cases read
            rw [List.length_cons, List.length_cons, ih others]

theorem pieces_writtenValues {value : Value} {row : List Value}
    (plain : ∀ other ∈ value :: row, ',' ∉ other.displayQuoted.toList) :
    Text.pieces (· == ',') (writtenValues (value :: row)) =
      value.displayQuoted.toList :: row.map fun other => ' ' :: other.displayQuoted.toList := by
  have unbroken {other : Value} (other_mem : other ∈ value :: row) :
      ∀ c ∈ other.displayQuoted.toList, (c == ',') = false := by
    intro c c_mem
    refine beq_false_of_ne ?_
    rintro rfl
    exact plain other other_mem c_mem
  induction row generalizing value with
  | nil =>
      have alone := Text.pieces_of_no_break (unbroken List.mem_cons_self)
      simpa [writtenValues] using alone
  | cons next row ih =>
      have others := ih (fun other other_mem => plain other (List.mem_cons_of_mem _ other_mem))
        fun other_mem => unbroken (List.mem_cons_of_mem _ other_mem)
      rw [writtenValues_cons_cons, Text.pieces_append_break (unbroken List.mem_cons_self) rfl,
        Text.pieces, others]
      rfl

theorem parseValuesFrom_map {place : Nat} {write : Value → List Char} {row : List Value}
    (readBack : ∀ value ∈ row, Value.ofLiteral? (write value) = some value) :
    parseValuesFrom place (row.map write) = .ok row := by
  induction row generalizing place with
  | nil => rfl
  | cons value row ih =>
      have others : parseValuesFrom (place + 1) (row.map write) = .ok row :=
        ih fun other other_mem => readBack other (List.mem_cons_of_mem _ other_mem)
      rw [List.map_cons, parseValuesFrom, readBack value List.mem_cons_self, others]
      rfl

theorem parseValues_parenthesized (inner : List Char) :
    parseValues (' ' :: '(' :: (inner ++ [')'])) =
      if inner.any fun c => c == '(' || c == ')' then refuse .nestedParentheses
      else if Text.trim inner = [] then .ok []
      else parseValuesFrom 1 (Text.pieces (· == ',') inner) := by
  have trimmed : Trimmed ('(' :: (inner ++ [')'])) := by
    refine ⟨List.cons_ne_nil _ _, ?_, ?_⟩
    · rintro _ ⟨⟩
      decide
    · rw [← List.cons_append, List.getLast?_concat]
      rintro _ ⟨⟩
      decide
  have inside : parenthesized? ('(' :: (inner ++ [')'])) = some inner := by
    rw [parenthesized?, if_pos ⟨rfl, List.getLast?_concat⟩, List.dropLast_concat]
  rw [parseValues, Text.trim_cons_of_isBlank rfl, trimmed.trim_eq, inside]

theorem trim_writtenValues_ne_nil (value : Value) (row : List Value) :
    Text.trim (writtenValues (value :: row)) ≠ [] := by
  have trimmed := value.trimmed_displayQuoted
  cases written : value.displayQuoted.toList with
  | nil => exact absurd written trimmed.nonempty
  | cons c rest =>
      have dark : Text.isBlank c = false := trimmed.head c (by rw [written]; rfl)
      refine Text.trim_ne_nil ?_ dark
      rw [writtenValues, List.map_cons, written, List.intercalate_cons_cons_left]
      exact List.mem_cons_self

/-- A comma in a value makes for more pieces than there are values. -/
theorem no_comma_of_pieces {row : List Value}
    (read : (if Text.trim (writtenValues row) = [] then .ok []
      else parseValuesFrom 1 (Text.pieces (· == ',') (writtenValues row))) = .ok row) :
    ∀ value ∈ row, ',' ∉ value.displayQuoted.toList := by
  cases row with
  | nil => nofun
  | cons first row =>
      rw [if_neg (trim_writtenValues_ne_nil first row)] at read
      have pieces := length_of_parseValuesFrom read
      rw [Text.length_pieces, count_comma_writtenValues, List.length_cons] at pieces
      have none : ((first :: row).map
          fun value => value.displayQuoted.toList.countP (· == ',')).sum = 0 := by omega
      rw [List.sum_eq_zero_iff_forall_eq_nat] at none
      intro value value_mem comma
      have zero := none _ (List.mem_map_of_mem value_mem)
      exact List.countP_eq_zero.mp zero ',' comma rfl

/-- Written values are read back exactly if none is written with a comma or a parenthesis. -/
theorem parseValues_written_iff (row : List Value) :
    parseValues (' ' :: '(' :: (writtenValues row ++ [')'])) = .ok row ↔
      ∀ value ∈ row, ∀ c ∈ [',', '(', ')'], c ∉ value.displayQuoted.toList := by
  rw [parseValues_parenthesized]
  constructor
  · intro read value value_mem c c_mem inside
    split at read
    · cases read
    rename_i flat
    have occurs (plain : c ∉ [',', ' ']) : c ∈ writtenValues row :=
      (mem_writtenValues_iff plain).mpr ⟨value, value_mem, inside⟩
    simp only [List.any_eq_true, Bool.or_eq_true, beq_iff_eq, not_exists, not_and, not_or] at flat
    simp only [List.mem_cons, List.not_mem_nil, or_false] at c_mem
    rcases c_mem with rfl | rfl | rfl
    · exact no_comma_of_pieces read value value_mem inside
    · exact (flat '(' (occurs (by decide))).1 rfl
    · exact (flat ')' (occurs (by decide))).2 rfl
  · intro plain
    have flat : ¬ (writtenValues row).any (fun c => c == '(' || c == ')') = true := by
      rw [List.any_eq_true]
      rintro ⟨c, c_mem, parenthesis⟩
      rw [Bool.or_eq_true, beq_iff_eq, beq_iff_eq] at parenthesis
      rcases parenthesis with rfl | rfl
      · rcases (mem_writtenValues_iff (by decide)).mp c_mem with ⟨value, value_mem, inside⟩
        exact plain value value_mem '(' (by decide) inside
      · rcases (mem_writtenValues_iff (by decide)).mp c_mem with ⟨value, value_mem, inside⟩
        exact plain value value_mem ')' (by decide) inside
    rw [if_neg flat]
    cases row with
    | nil => rfl
    | cons value row =>
        have separated := pieces_writtenValues fun other other_mem =>
          plain other other_mem ',' List.mem_cons_self
        rw [if_neg (trim_writtenValues_ne_nil value row), separated, parseValuesFrom,
          parseValuesFrom_map]
        · rw [Value.ofLiteral?_displayQuoted]
          rfl
        · intro other _
          rw [Value.ofLiteral?_space_cons, Value.ofLiteral?_displayQuoted]

end Command

end Tabula
