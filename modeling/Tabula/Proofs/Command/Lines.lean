import Tabula.Proofs.Command.Parser

/-!
# Lines that commands are written as

A command on data is written as a line, in whatever case its verb and keywords are written. What the
parser finds in such a line depends on where each keyword first occurs: where it is written, or
earlier, in the name of the table. A keyword found too early leaves less text for the table than it
was written with.
-/

namespace Tabula

theorem Condition.eq_of_single_eq {left right : Condition}
    (same : OrderedMap.single left.column left.value = .single right.column right.value) :
    left = right := by
  have entries := congrArg OrderedMap.entries same
  simp only [OrderedMap.single, List.cons.injEq, Prod.mk.injEq, and_true] at entries
  rcases left with ⟨column, value⟩
  rcases entries with ⟨rfl, rfl⟩
  rfl

@[simp]
theorem Predicate.ofCondition_inj {left right : Condition} :
    Predicate.ofCondition left = .ofCondition right ↔ left = right :=
  ⟨fun same => Condition.eq_of_single_eq (congrArg conditions same), congrArg _⟩

@[simp]
theorem SetClause.ofCondition_inj {left right : Condition} :
    SetClause.ofCondition left = .ofCondition right ↔ left = right :=
  ⟨fun same => Condition.eq_of_single_eq (congrArg assignments same), congrArg _⟩

namespace Command

open Text (Trimmed Mentions padded)

/-! ## The lines -/

/-- The line that inserts values, with its verb and keywords as they are spelled. -/
def insertLine (verb into table values : String) (row : List Value) : String :=
  verb ++ " " ++ into ++ " " ++ table ++ " " ++ values ++ " (" ++
    ", ".intercalate (row.map Value.displayQuoted) ++ ")"

/-- The line that selects or deletes by a condition, with its verb and keywords as they are
spelled. -/
def filterLine (verb source table filter : String) (condition : Condition) : String :=
  verb ++ " " ++ source ++ " " ++ table ++ " " ++ filter ++ " " ++ condition.display

/-- The line that updates by a condition, with its verb and keywords as they are spelled. -/
def updateLine (verb table set : String) (assignment : Condition) (filter : String)
    (condition : Condition) : String :=
  verb ++ " " ++ table ++ " " ++ set ++ " " ++ assignment.display ++ " " ++ filter ++ " " ++
    condition.display

theorem toList_insertLine (verb into table values : String) (row : List Value) :
    (insertLine verb into table values row).toList =
      verb.toList ++ ' ' :: (into.toList ++ ' ' :: (table.toList ++ ' ' :: (values.toList ++
        ' ' :: '(' :: (writtenValues row ++ [')'])))) := by
  simp [insertLine, writtenValues, Function.comp_def]

theorem toList_filterLine (verb source table filter : String) (condition : Condition) :
    (filterLine verb source table filter condition).toList =
      verb.toList ++ ' ' :: (source.toList ++ ' ' :: (table.toList ++ ' ' :: (filter.toList ++
        ' ' :: condition.display.toList))) := by
  simp [filterLine]

theorem toList_updateLine (verb table set : String) (assignment : Condition) (filter : String)
    (condition : Condition) :
    (updateLine verb table set assignment filter condition).toList =
      verb.toList ++ ' ' :: (table.toList ++ ' ' :: (set.toList ++ ' ' ::
        (assignment.display.toList ++ ' ' :: (filter.toList ++ ' ' ::
          condition.display.toList)))) := by
  simp [updateLine]

/-! ## The keywords -/

theorem whereKeyword_eq : whereKeyword = padded "where".toList :=
  rfl

theorem setKeyword_eq : setKeyword = padded "set".toList :=
  rfl

/-- The keyword that follows the verb is found right there. -/
theorem position?_second {verb : Verb} {word mark keyword rest : List Char}
    (spelled : Text.foldCase word = verb.word.toList)
    (marked : Text.foldCase mark ++ [' '] = keyword)
    (first : ¬ keyword <:+: verb.word.toList ++ ' ' :: keyword.dropLast) :
    Text.position? keyword (word ++ ' ' :: (mark ++ ' ' :: rest)) = some (word.length + 1) := by
  have whole : word ++ ' ' :: (mark ++ ' ' :: rest) = (word ++ [' ']) ++ (mark ++ ' ' :: rest) := by
    simp
  have place : word.length + 1 = (word ++ [' ']).length := by
    simp
  have inhabited : keyword ≠ [] := by
    rintro rfl
    simp at marked
  rw [whole, place, Text.position?_append_eq_length_iff inhabited]
  · simpa [spelled] using first
  · refine ⟨Text.foldCase rest, ?_⟩
    simp [← marked]

/-! ## Places -/

theorem part_of_append {line before text after : List Char} {start stop : Nat}
    (written : line = before ++ (text ++ after)) (starts : start = before.length)
    (stops : stop = start + text.length) : part line start stop = .ok text := by
  subst written starts stops
  rw [part_eq_ok_iff]
  simp

theorem tableBetween_of_append {line before text after : List Char} {start stop : Nat}
    {table : String} (written : line = before ++ (text ++ after)) (starts : start = before.length)
    (stops : stop = start + text.length) (trimmed : Text.trim text = table.toList)
    (named : table.toList ≠ []) : tableBetween line start stop = .ok table :=
  tableBetween_eq_ok_iff.mpr ⟨text, part_of_append written starts stops, trimmed, named⟩

/-- A table's name is no longer than the place that it is read from. -/
theorem add_length_le_of_tableBetween {line : List Char} {start stop : Nat} {table : String}
    (read : tableBetween line start stop = .ok table) :
    start + table.toList.length ≤ stop := by
  rcases tableBetween_eq_ok_iff.mp read with ⟨text, found, trimmed, -⟩
  rcases part_eq_ok_iff.mp found with ⟨ordered, inside, rfl⟩
  have shorter := Text.length_trim_le ((line.drop start).take (stop - start))
  rw [trimmed, List.length_take, List.length_drop] at shorter
  omega

theorem length_eq_of_spelled {word spelling : List Char}
    (spelled : Text.foldCase spelling = word) : spelling.length = word.length := by
  rw [← spelled, Text.length_foldCase]

theorem prefix_foldCase_of_spelled {word spelling : List Char}
    (spelled : Text.foldCase spelling = word) (rest : List Char) :
    word ++ [' '] <+: Text.foldCase (spelling ++ ' ' :: rest) := by
  refine ⟨Text.foldCase rest, ?_⟩
  simp [spelled]

theorem drop_eq_of_append {line left right : List Char} {place : Nat}
    (written : line = left ++ right) (same : place = left.length) : line.drop place = right := by
  rw [written, same, List.drop_left]

/-! ## Inserting -/

theorem parseInsert_eq_ok_iff {line : List Char} {place : Nat} {table : String} {row : List Value}
    (into : Text.position? intoKeyword line = some place) :
    parseInsert line = .ok (.insert table row) ↔
      ∃ stop, Text.position? valuesKeyword line = some stop ∧
        tableBetween line (place + intoKeyword.length) stop = .ok table ∧
        parseValues (line.drop (stop + valuesKeyword.length)) = .ok row := by
  rw [parseInsert, into]
  cases Text.position? valuesKeyword line with
  | none => simp [refuse]
  | some stop =>
      simp only [bind_eq_ok_iff, Option.some.injEq, exists_eq_left']
      constructor
      · rintro ⟨name, tabled, values, valued, same⟩
        cases same
        exact ⟨tabled, valued⟩
      · rintro ⟨tabled, valued⟩
        exact ⟨table, tabled, row, valued, rfl⟩

section

variable {word into table values rest : List Char}

/-- The keyword before the values is found where it is written exactly if the table does not mention
it. -/
theorem position?_values_iff (spelled : Text.foldCase word = Verb.insert.word.toList)
    (spelledInto : Text.foldCase into = "into".toList)
    (spelledValues : Text.foldCase values = valuesKeyword) :
    Text.position? valuesKeyword
        (word ++ ' ' :: (into ++ ' ' :: (table ++ ' ' :: (values ++ rest)))) =
        some (13 + table.length) ↔
      ¬ Mentions table valuesKeyword := by
  have whole : word ++ ' ' :: (into ++ ' ' :: (table ++ ' ' :: (values ++ rest))) =
      (word ++ ' ' :: (into ++ ' ' :: (table ++ [' ']))) ++ (values ++ rest) := by
    simp
  have place : 13 + table.length = (word ++ ' ' :: (into ++ ' ' :: (table ++ [' ']))).length := by
    have six : word.length = 6 := length_eq_of_spelled spelled
    have four : into.length = 4 := length_eq_of_spelled spelledInto
    simp only [List.length_append, List.length_cons, List.length_nil]
    omega
  have border : Text.foldCase (word ++ ' ' :: (into ++ ' ' :: (table ++ [' ']))) ++
      valuesKeyword.dropLast =
        "insert".toList ++ ' ' :: ("into".toList ++ ' ' ::
          (Text.foldCase table ++ ' ' :: valuesKeyword.dropLast)) := by
    simp only [Text.foldCase_append, Text.foldCase_cons, Text.foldCase_nil, spelled, spelledInto,
      List.append_assoc, List.cons_append, List.nil_append]
    rfl
  have unspaced : ' ' ∉ valuesKeyword := by decide
  have starts : valuesKeyword <+: Text.foldCase (values ++ rest) := by
    rw [Text.foldCase_append, spelledValues]
    exact List.prefix_append _ _
  rw [whole, place, Text.position?_append_eq_length_iff (by decide) starts, border,
    Text.infix_append_cons_iff unspaced, Text.infix_append_cons_iff unspaced,
    Text.infix_append_cons_iff unspaced, or_iff_right (by decide), or_iff_right (by decide),
    or_iff_left (by decide)]
  rfl

/-- A table that mentions the keyword before the values makes it found too early. -/
theorem position?_values_lt (spelled : Text.foldCase word = Verb.insert.word.toList)
    (spelledInto : Text.foldCase into = "into".toList) {place : Nat}
    (mentioned : Mentions table valuesKeyword)
    (found : Text.position? valuesKeyword
      (word ++ ' ' :: (into ++ ' ' :: (table ++ ' ' :: (values ++ rest)))) = some place) :
    place < 12 + table.length := by
  have whole : word ++ ' ' :: (into ++ ' ' :: (table ++ ' ' :: (values ++ rest))) =
      ((word ++ ' ' :: (into ++ [' '])) ++ table) ++ ' ' :: (values ++ rest) := by
    simp
  have inside : Mentions ((word ++ ' ' :: (into ++ [' '])) ++ table) valuesKeyword := by
    rw [Mentions, Text.foldCase_append]
    exact List.infix_append_of_infix_right mentioned
  have six : word.length = 6 := length_eq_of_spelled spelled
  have four : into.length = 4 := length_eq_of_spelled spelledInto
  rw [whole] at found
  have early := Text.position?_add_length_le (by decide) inside found
  simp only [List.length_append, List.length_cons, List.length_nil, six, four] at early
  change place + 6 ≤ _ at early
  omega

/-- The table and the values of an insert stand where the keywords are written. -/
theorem insert_parts {table : String} {line : List Char}
    (spelled : Text.foldCase word = Verb.insert.word.toList)
    (spelledInto : Text.foldCase into = "into".toList)
    (spelledValues : Text.foldCase values = valuesKeyword) (trimmed : Trimmed table.toList)
    (written : line = word ++ ' ' :: (into ++ ' ' :: (table.toList ++ ' ' :: (values ++ rest)))) :
    tableBetween line (7 + intoKeyword.length) (13 + table.toList.length) = .ok table ∧
      line.drop (13 + table.toList.length + valuesKeyword.length) = rest := by
  have six : word.length = 6 := length_eq_of_spelled spelled
  have four : into.length = 4 := length_eq_of_spelled spelledInto
  have six' : values.length = 6 := length_eq_of_spelled spelledValues
  constructor
  · have whole : line =
        (word ++ ' ' :: (into ++ [' '])) ++ ((table.toList ++ [' ']) ++ (values ++ rest)) := by
      simp [written]
    refine tableBetween_of_append whole ?_ ?_
      (trimmed.trim_append (List.forall_mem_singleton.mpr rfl)) trimmed.nonempty
    · change 7 + 5 = _
      simp only [List.length_append, List.length_cons, List.length_nil]
      omega
    · change _ = 7 + 5 + _
      simp only [List.length_append, List.length_cons, List.length_nil]
      omega
  · have whole : line =
        (word ++ ' ' :: (into ++ ' ' :: (table.toList ++ ' ' :: values))) ++ rest := by
      simp [written]
    refine drop_eq_of_append whole ?_
    change 13 + table.toList.length + 6 = _
    simp only [List.length_append, List.length_cons]
    omega

end

theorem parse_insertLine_iff {verb into table values : String} {row : List Value}
    (spelled : Text.foldCase verb.toList = Verb.insert.word.toList)
    (spelledInto : Text.foldCase into.toList = "into".toList)
    (spelledValues : Text.foldCase values.toList = valuesKeyword)
    (trimmed : Trimmed table.toList) :
    parse (insertLine verb into table values row) = .ok (.insert table row) ↔
      ¬ Mentions table.toList valuesKeyword ∧
        ∀ text, .str text ∈ row → ∀ c ∈ [',', '(', ')'], c ∉ text.toList := by
  have written := toList_insertLine verb into table values row
  have six : verb.toList.length = 6 := length_eq_of_spelled spelled
  have ended : (insertLine verb into table values row).toList = verb.toList ++ ' ' ::
      ((into.toList ++ ' ' :: (table.toList ++ ' ' :: (values.toList ++
        ' ' :: '(' :: writtenValues row))) ++ [')']) := by
    simp [written]
  rw [parse_eq_parseVerb ended spelled (by decide), parseVerb]
  generalize (insertLine verb into table values row).toList = line at written
  have intoPlace : Text.position? intoKeyword line = some 7 := by
    rw [written, position?_second spelled (by rw [spelledInto]; rfl) (by decide), six]
  have valuesPlace : Text.position? valuesKeyword line = some (13 + table.toList.length) ↔
      ¬ Mentions table.toList valuesKeyword := by
    rw [written]
    exact position?_values_iff spelled spelledInto spelledValues
  rcases insert_parts spelled spelledInto spelledValues trimmed written with
    ⟨tabled, valuesText⟩
  rw [parseInsert_eq_ok_iff intoPlace]
  constructor
  · rintro ⟨stop, found, between, valued⟩
    have late : 7 + 5 + table.toList.length ≤ stop := add_length_le_of_tableBetween between
    have clean : ¬ Mentions table.toList valuesKeyword := by
      intro mentioned
      rw [written] at found
      have early := position?_values_lt spelled spelledInto mentioned found
      omega
    rw [valuesPlace.mpr clean] at found
    cases found
    rw [valuesText, parseValues_written_iff] at valued
    refine ⟨clean, fun text text_mem c separates inside => ?_⟩
    exact valued _ text_mem c separates ((Value.mem_displayQuoted_iff separates).mpr
      ⟨text, rfl, inside⟩)
  · rintro ⟨clean, plain⟩
    refine ⟨_, valuesPlace.mpr clean, tabled, ?_⟩
    rw [valuesText, parseValues_written_iff]
    intro value value_mem c separates inside
    rcases (Value.mem_displayQuoted_iff separates).mp inside with ⟨text, rfl, text_inside⟩
    exact plain text value_mem c separates text_inside

/-! ## Selecting and deleting -/

theorem parseSelect_eq_ok_iff {line : List Char} {place : Nat} {table : String}
    {condition : Condition} (source : Text.position? fromKeyword line = some place) :
    parseSelect line = .ok (.select table (some (.ofCondition condition))) ↔
      ∃ stop, Text.position? whereKeyword line = some stop ∧
        tableBetween line (place + fromKeyword.length) stop = .ok table ∧
        Condition.parse (line.drop (stop + whereKeyword.length)) = .ok condition := by
  rw [parseSelect, source]
  cases Text.position? whereKeyword line with
  | none =>
      simp only [bind_eq_ok_iff, reduceCtorEq, false_and, exists_false, iff_false]
      rintro ⟨name, -, ⟨⟩⟩
  | some stop =>
      simp only [bind_eq_ok_iff, Option.some.injEq, exists_eq_left']
      constructor
      · rintro ⟨name, tabled, other, read, same⟩
        simp only [pure, Except.pure, Except.ok.injEq, select.injEq, Option.some.injEq,
          Predicate.ofCondition_inj] at same
        rcases same with ⟨rfl, rfl⟩
        exact ⟨tabled, read⟩
      · rintro ⟨tabled, read⟩
        exact ⟨table, tabled, condition, read, rfl⟩

theorem parseDelete_eq_ok_iff {line : List Char} {place : Nat} {table : String}
    {condition : Condition} (source : Text.position? fromKeyword line = some place) :
    parseDelete line = .ok (.delete table (.ofCondition condition)) ↔
      ∃ stop, Text.position? whereKeyword line = some stop ∧
        tableBetween line (place + fromKeyword.length) stop = .ok table ∧
        Condition.parse (line.drop (stop + whereKeyword.length)) = .ok condition := by
  rw [parseDelete, source]
  cases Text.position? whereKeyword line with
  | none => simp [refuse]
  | some stop =>
      simp only [bind_eq_ok_iff, Option.some.injEq, exists_eq_left']
      constructor
      · rintro ⟨name, tabled, other, read, same⟩
        simp only [pure, Except.pure, Except.ok.injEq, delete.injEq,
          Predicate.ofCondition_inj] at same
        rcases same with ⟨rfl, rfl⟩
        exact ⟨tabled, read⟩
      · rintro ⟨tabled, read⟩
        exact ⟨table, tabled, condition, read, rfl⟩

theorem parseSelect_none_eq_ok_iff {line : List Char} {place : Nat} {table : String}
    (source : Text.position? fromKeyword line = some place) :
    parseSelect line = .ok (.select table none) ↔
      Text.position? whereKeyword line = none ∧
        tableBetween line (place + fromKeyword.length) line.length = .ok table := by
  rw [parseSelect, source]
  cases Text.position? whereKeyword line with
  | none =>
      simp only [bind_eq_ok_iff, true_and]
      constructor
      · rintro ⟨name, tabled, ⟨⟩⟩
        exact tabled
      · exact fun tabled => ⟨table, tabled, rfl⟩
  | some stop =>
      simp only [bind_eq_ok_iff, reduceCtorEq, false_and, iff_false]
      rintro ⟨name, -, other, -, ⟨⟩⟩

/-- A command that is read as a select has no predicate, or that of one condition. -/
theorem exists_place_of_parseSelect {line : List Char} {command : Command}
    (read : parseSelect line = .ok command) :
    (∃ place, Text.position? fromKeyword line = some place) ∧
      ∃ table, command = .select table none ∨
        ∃ condition, command = .select table (some (.ofCondition condition)) := by
  rw [parseSelect] at read
  split at read
  · cases read
  · rename_i place source
    refine ⟨⟨place, source⟩, ?_⟩
    split at read
    · rcases bind_eq_ok_iff.mp read with ⟨table, -, ⟨⟩⟩
      exact ⟨table, .inl rfl⟩
    · rcases bind_eq_ok_iff.mp read with ⟨table, -, filtered⟩
      rcases bind_eq_ok_iff.mp filtered with ⟨condition, -, ⟨⟩⟩
      exact ⟨table, .inr ⟨condition, rfl⟩⟩

/-- A command that is read as a delete has the predicate of one condition. -/
theorem exists_place_of_parseDelete {line : List Char} {command : Command}
    (read : parseDelete line = .ok command) :
    (∃ place, Text.position? fromKeyword line = some place) ∧
      ∃ table condition, command = .delete table (.ofCondition condition) := by
  rw [parseDelete] at read
  split at read
  · rename_i place stop source found
    rcases bind_eq_ok_iff.mp read with ⟨table, -, filtered⟩
    rcases bind_eq_ok_iff.mp filtered with ⟨condition, -, ⟨⟩⟩
    exact ⟨⟨place, source⟩, table, condition, rfl⟩
  · cases read

/-- The table and the condition of a filtered line are read back exactly if the table, between
spaces, does not mention the keyword before the condition. -/
theorem filtered_iff {word source filter : List Char} {table : String} {condition : Condition}
    (spelledFilter : Text.foldCase filter = "where".toList)
    (clean : ¬ Mentions (word ++ ' ' :: source ++ [' ']) whereKeyword)
    (six : word.length = 6) (four : source.length = 4) (trimmed : Trimmed table.toList)
    (writable : condition.Writable) {line : List Char}
    (written : line = word ++ ' ' :: (source ++ ' ' :: (table.toList ++ ' ' :: (filter ++
      ' ' :: condition.display.toList)))) :
    (∃ stop, Text.position? whereKeyword line = some stop ∧
        tableBetween line 12 stop = .ok table ∧
        Condition.parse (line.drop (stop + whereKeyword.length)) = .ok condition) ↔
      ¬ Mentions (padded table.toList) whereKeyword := by
  have whole : line = (word ++ ' ' :: source) ++ ' ' :: (table.toList ++ ' ' :: (filter ++
      ' ' :: condition.display.toList)) := by
    simp [written]
  have head : (word ++ ' ' :: source).length = 11 := by
    simp [six, four]
  have starts := prefix_foldCase_of_spelled spelledFilter condition.display.toList
  have place : Text.position? whereKeyword line = some (12 + table.toList.length) ↔
      ¬ Mentions (padded table.toList) whereKeyword := by
    have found : Text.position? whereKeyword ((word ++ ' ' :: source) ++ ' ' :: (table.toList ++
        ' ' :: (filter ++ ' ' :: condition.display.toList))) =
          some ((word ++ ' ' :: source).length + 1 + table.toList.length) ↔
        ¬ Mentions (padded table.toList) whereKeyword :=
      Text.position?_padded_eq_iff (by decide) clean starts
    rwa [← whole, head] at found
  have shown : line.drop (12 + table.toList.length + whereKeyword.length) =
      condition.display.toList := by
    have divided : line = (word ++ ' ' :: (source ++ ' ' :: (table.toList ++ ' ' :: (filter ++
        [' '])))) ++ condition.display.toList := by
      simp [written]
    have five : filter.length = 5 := length_eq_of_spelled spelledFilter
    refine drop_eq_of_append divided ?_
    change 12 + table.toList.length + 7 = _
    simp only [List.length_append, List.length_cons, List.length_nil]
    omega
  constructor
  · rintro ⟨stop, found, tabled, -⟩ mentioned
    rw [whole, whereKeyword_eq] at found
    have late := add_length_le_of_tableBetween tabled
    have early : stop + 5 ≤ (word ++ ' ' :: source).length + table.toList.length :=
      Text.position?_padded_le mentioned found
    omega
  · intro unmentioned
    refine ⟨_, place.mpr unmentioned, ?_, ?_⟩
    · have divided : line = (word ++ ' ' :: (source ++ [' '])) ++ (table.toList ++ (' ' ::
          (filter ++ ' ' :: condition.display.toList))) := by
        simp [written]
      refine tableBetween_of_append divided ?_ rfl trimmed.trim_eq trimmed.nonempty
      simp [six, four]
    · rw [shown]
      exact Condition.parse_display writable

/-- A line that selects or deletes comes to the parser of its verb, its table is looked for behind
the same keyword, and so much of it is read back. -/
theorem filterLine_reads {verb : Verb} {spelling source table filter : String}
    {condition : Condition} (filters : verb = .select ∨ verb = .delete)
    (spelled : Text.foldCase spelling.toList = verb.word.toList)
    (spelledSource : Text.foldCase source.toList = "from".toList)
    (spelledFilter : Text.foldCase filter.toList = "where".toList)
    (trimmed : Trimmed table.toList) (writable : condition.Writable) {line : List Char}
    (written : line = (filterLine spelling source table filter condition).toList) :
    parse (filterLine spelling source table filter condition) = parseVerb line verb ∧
      Text.position? fromKeyword line = some 7 ∧
      ((∃ stop, Text.position? whereKeyword line = some stop ∧
          tableBetween line (7 + fromKeyword.length) stop = .ok table ∧
          Condition.parse (line.drop (stop + whereKeyword.length)) = .ok condition) ↔
        ¬ Mentions (padded table.toList) whereKeyword) := by
  have four : source.toList.length = 4 := length_eq_of_spelled spelledSource
  have six : spelling.toList.length = 6 := by
    rw [length_eq_of_spelled spelled]
    rcases filters with rfl | rfl <;> rfl
  have marked : Text.foldCase source.toList ++ [' '] = fromKeyword := by
    rw [spelledSource]
    rfl
  have first : ¬ fromKeyword <:+: verb.word.toList ++ ' ' :: fromKeyword.dropLast := by
    rcases filters with rfl | rfl <;> decide
  have clean : ¬ Mentions (spelling.toList ++ ' ' :: source.toList ++ [' ']) whereKeyword := by
    simp only [Mentions, Text.foldCase_append, Text.foldCase_cons, spelled, spelledSource]
    rcases filters with rfl | rfl <;> decide
  have ended : (filterLine spelling source table filter condition).toList =
      spelling.toList ++ ' ' :: ((source.toList ++ ' ' :: (table.toList ++ ' ' ::
        (filter.toList ++ ' ' :: (condition.column.toList ++ [' ', '=', ' '])))) ++
          condition.value.displayQuoted.toList) := by
    simp [toList_filterLine, Condition.toList_display]
  refine ⟨?_, ?_, ?_⟩
  · rw [written]
    exact parse_eq_parseVerb ended spelled condition.value.trimmed_displayQuoted
  · rw [written, toList_filterLine, position?_second spelled marked first, six]
  · rw [toList_filterLine] at written
    exact filtered_iff spelledFilter clean six four trimmed writable written

end Command

end Tabula
