import Tabula.Proofs.Command.Lines

/-!
# Updates read back

The line of an update has two keywords to find, and the second is also looked for in the name of the
table, the assigned column and the assigned string. When it occurs in one of them, less text is left
for the table or the assignment than they were written with.
-/

namespace Tabula

namespace Command

open Text (Trimmed Mentions padded)

theorem parseUpdate_eq_ok_iff {line : List Char} {verbEnd : Nat} {table : String}
    {assignment condition : Condition} (blank : line.findIdx? Text.isBlank = some verbEnd) :
    parseUpdate line =
        .ok (.update table (.ofCondition assignment) (.ofCondition condition)) ↔
      ∃ set stop, Text.position? setKeyword line = some set ∧
        Text.position? whereKeyword line = some stop ∧ set < stop ∧
        tableBetween line verbEnd set = .ok table ∧
        (∃ text, part line (set + setKeyword.length) stop = .ok text ∧
          Condition.parse text = .ok assignment) ∧
        Condition.parse (line.drop (stop + whereKeyword.length)) = .ok condition := by
  rw [parseUpdate, blank]
  cases Text.position? setKeyword line with
  | none => simp [refuse]
  | some set =>
      cases Text.position? whereKeyword line with
      | none => simp [refuse]
      | some stop =>
          simp only [Option.some.injEq, exists_eq_left', exists_and_left]
          split
          · rename_i ordered
            simp only [bind_eq_ok_iff, ordered, true_and]
            constructor
            · rintro ⟨name, tabled, text, found, first, assigned, second, read, same⟩
              simp only [pure, Except.pure, Except.ok.injEq, update.injEq,
                SetClause.ofCondition_inj, Predicate.ofCondition_inj] at same
              rcases same with ⟨rfl, rfl, rfl⟩
              exact ⟨tabled, ⟨text, found, assigned⟩, read⟩
            · rintro ⟨tabled, ⟨text, found, assigned⟩, read⟩
              exact ⟨table, tabled, text, found, assignment, assigned, condition, read, rfl⟩
          · rename_i disordered
            simp [refuse, disordered]

/-- The keyword before a condition occurs in a padded literal exactly if the literal is of a string
in which it occurs, for no other literal has a space. -/
theorem mentions_padded_displayQuoted_iff {value : Value} :
    Mentions (padded value.displayQuoted.toList) whereKeyword ↔
      ∃ text, value = .str text ∧ Mentions text.toList whereKeyword := by
  cases value with
  | int number =>
      simp only [reduceCtorEq, false_and, exists_false, iff_false]
      intro mentioned
      have letter := mentioned.subset (show 'w' ∈ whereKeyword by decide)
      rw [Text.foldCase, List.mem_map] at letter
      rcases letter with ⟨c, c_mem, small⟩
      have written : c ∈ ' ' :: ['-', '0', '1', '2', '3', '4', '5', '6', '7', '8', '9'] := by
        rw [padded, Value.toList_displayQuoted_int, List.mem_cons, List.mem_append,
          List.mem_singleton] at c_mem
        rcases c_mem with rfl | digit | rfl
        · exact List.mem_cons_self
        · exact List.mem_cons_of_mem _ (Text.mem_of_mem_decimal digit)
        · exact List.mem_cons_self
      revert small
      clear c_mem mentioned
      revert c
      exact @(List.all_iff_forall_prop.mp (by decide))
  | str text =>
      have unquoted : '\x22' ∉ whereKeyword := by decide
      have divided : Text.foldCase (padded (Value.str text).displayQuoted.toList) =
          [' '] ++ '\x22' :: (Text.foldCase text.toList ++ '\x22' :: [' ']) := by
        rw [padded, Value.toList_displayQuoted_str]
        simp
      rw [Mentions, divided, Text.infix_append_cons_iff unquoted,
        Text.infix_append_cons_iff unquoted, or_iff_right (by decide), or_iff_left (by decide)]
      simp [Mentions]
  | bool truth =>
      simp only [reduceCtorEq, false_and, exists_false, iff_false]
      cases truth <;> decide

/-- The keyword before the condition occurs before it in an update exactly if the table, the column
or a string that is assigned mentions it. -/
theorem mentions_assigned_iff {table set : List Char} {assignment : Condition}
    (spelledSet : Text.foldCase set = "set".toList) :
    Mentions (padded (table ++ ' ' :: (set ++ ' ' :: assignment.display.toList))) whereKeyword ↔
      Mentions (padded table) whereKeyword ∨
        Mentions (padded assignment.column.toList) whereKeyword ∨
        ∃ text, assignment.value = .str text ∧ Mentions text.toList whereKeyword := by
  have noSet : ¬ Mentions (padded set) whereKeyword := by
    simp only [Mentions, padded, Text.foldCase_cons, Text.foldCase_append, spelledSet]
    decide
  have noEquals : ¬ Mentions (padded ['=']) whereKeyword := by decide
  have shown : assignment.display.toList = assignment.column.toList ++ ' ' ::
      (['='] ++ ' ' :: assignment.value.displayQuoted.toList) := by
    rw [Condition.toList_display]
    rfl
  have unspaced : ' ' ∉ "where".toList := by decide
  rw [shown, whereKeyword_eq, Text.mentions_padded_append_iff unspaced,
    Text.mentions_padded_append_iff unspaced, Text.mentions_padded_append_iff unspaced,
    Text.mentions_padded_append_iff unspaced, ← whereKeyword_eq, or_iff_right noSet,
    or_iff_right noEquals, mentions_padded_displayQuoted_iff]

/-- A table's name is shorter than a place that begins with a space. -/
theorem add_length_lt_of_tableBetween {before after : List Char} {start stop : Nat} {table : String}
    (starts : start = before.length)
    (read : tableBetween (before ++ ' ' :: after) start stop = .ok table) :
    start + table.toList.length < stop := by
  rcases tableBetween_eq_ok_iff.mp read with ⟨text, found, trimmed, named⟩
  rcases part_eq_ok_iff.mp found with ⟨ordered, inside, cut⟩
  rw [starts, List.drop_left, ← starts] at cut
  cases width : stop - start with
  | zero =>
      rw [width, List.take_zero] at cut
      subst cut
      exact absurd trimmed.symm named
  | succ width' =>
      rw [width, List.take_succ_cons] at cut
      subst cut
      rw [Text.trim_cons_of_isBlank rfl] at trimmed
      have shorter := Text.length_trim_le (after.take width')
      rw [trimmed, List.length_take] at shorter
      omega

/-- What is assigned is read back from what stands before the condition only if neither the column
nor a string that is assigned makes the keyword of the condition found too early. -/
theorem unmentioned_of_parse_assignment {head rest line text : List Char} {assignment : Condition}
    {start stop : Nat}
    (written : line = head ++ ' ' :: (assignment.display.toList ++ ' ' :: rest))
    (starts : start = head.length + 1) (found : Text.position? whereKeyword line = some stop)
    (cut : part line start stop = .ok text) (assigned : Condition.parse text = .ok assignment) :
    ¬ Mentions (padded assignment.column.toList) whereKeyword ∧
      ∀ inner, assignment.value = .str inner → ¬ Mentions inner.toList whereKeyword := by
  rcases part_eq_ok_iff.mp cut with ⟨ordered, -, same⟩
  rcases Condition.exists_literal_of_parse assigned with ⟨literal, read, room⟩
  have width : text.length ≤ stop - start := by
    rw [← same]
    exact List.length_take_le _ _
  rw [Condition.toList_display] at written
  constructor
  · intro mentioned
    have whole : line = head ++ ' ' :: (assignment.column.toList ++ ' ' ::
        ('=' :: ' ' :: (assignment.value.displayQuoted.toList ++ ' ' :: rest))) := by
      simp [written]
    rw [whole, whereKeyword_eq] at found
    have early : stop + 5 ≤ head.length + assignment.column.toList.length :=
      Text.position?_padded_le mentioned found
    omega
  · intro inner quoted mentioned
    have whole : line = (head ++ ' ' :: (assignment.column.toList ++
        [' ', '=', ' ', '\x22']) ++ inner.toList) ++ '\x22' :: ' ' :: rest := by
      simp [written, quoted, Value.toList_displayQuoted_str]
    have inside : Mentions (head ++ ' ' :: (assignment.column.toList ++
        [' ', '=', ' ', '\x22']) ++ inner.toList) whereKeyword := by
      rw [Mentions, Text.foldCase_append]
      exact List.infix_append_of_infix_right mentioned
    rw [whole] at found
    have early := Text.position?_add_length_le (by decide) inside found
    change stop + 7 ≤ _ at early
    rw [quoted] at read
    have long := Value.length_le_of_ofLiteral? read
    simp only [List.length_append, List.length_cons, List.length_nil] at early
    omega

section

variable {word set filter line : List Char} {table : String} {assignment condition : Condition}
  (spelled : Text.foldCase word = Verb.update.word.toList)
  (spelledSet : Text.foldCase set = "set".toList)
  (spelledFilter : Text.foldCase filter = "where".toList)
  (written : line = word ++ ' ' :: (table.toList ++ ' ' :: (set ++ ' ' ::
    (assignment.display.toList ++ ' ' :: (filter ++ ' ' :: condition.display.toList)))))

include spelled written

/-- The verb of an update ends at the first white space. -/
theorem findIdx?_isBlank_update : line.findIdx? Text.isBlank = some 6 := by
  have six : word.length = 6 := length_eq_of_spelled spelled
  have none : word.findIdx? Text.isBlank = none :=
    List.findIdx?_eq_none_iff.mpr fun _ => Verb.isBlank_of_mem_spelled spelled
  have space : Text.isBlank ' ' = true := rfl
  rw [written, List.findIdx?_append, none, List.findIdx?_cons, if_pos space, ← six]
  simp

include spelledSet

theorem position?_set_iff :
    Text.position? setKeyword line = some (7 + table.toList.length) ↔
      ¬ Mentions (padded table.toList) setKeyword := by
  have six : word.length = 6 := length_eq_of_spelled spelled
  have clean : ¬ Mentions (word ++ [' ']) setKeyword := by
    simp only [Mentions, Text.foldCase_append, spelled]
    decide
  have place : 7 + table.toList.length = word.length + 1 + table.toList.length := by
    rw [six]
  rw [written, place]
  exact Text.position?_padded_eq_iff (by decide) clean (prefix_foldCase_of_spelled spelledSet _)

/-- The table and the assignment of an update that has been read do not hide the keywords. -/
theorem unmentioned_of_update {setAt stop : Nat} {text : List Char}
    (setFound : Text.position? setKeyword line = some setAt)
    (found : Text.position? whereKeyword line = some stop) (ordered : setAt < stop)
    (tabled : tableBetween line 6 setAt = .ok table)
    (cut : part line (setAt + setKeyword.length) stop = .ok text)
    (read : Condition.parse text = .ok assignment) :
    ¬ Mentions (padded table.toList) setKeyword ∧
      ¬ Mentions (padded table.toList) whereKeyword ∧
      ¬ Mentions (padded assignment.column.toList) whereKeyword ∧
      ∀ inner, assignment.value = .str inner → ¬ Mentions inner.toList whereKeyword := by
  have six : word.length = 6 := length_eq_of_spelled spelled
  have three : set.length = 3 := length_eq_of_spelled spelledSet
  rw [written] at tabled
  have late := add_length_lt_of_tableBetween six.symm tabled
  have noSet : ¬ Mentions (padded table.toList) setKeyword := by
    intro mentioned
    rw [written, setKeyword_eq] at setFound
    have early : setAt + 3 ≤ word.length + table.toList.length :=
      Text.position?_padded_le mentioned setFound
    omega
  rw [(position?_set_iff spelled spelledSet written).mpr noSet, Option.some.injEq] at setFound
  have noWhere : ¬ Mentions (padded table.toList) whereKeyword := by
    intro mentioned
    rw [written, whereKeyword_eq] at found
    have early : stop + 5 ≤ word.length + table.toList.length :=
      Text.position?_padded_le mentioned found
    omega
  have whole : line = (word ++ ' ' :: (table.toList ++ ' ' :: set)) ++ ' ' ::
      (assignment.display.toList ++ ' ' :: (filter ++ ' ' :: condition.display.toList)) := by
    simp [written]
  have starts : setAt + setKeyword.length =
      (word ++ ' ' :: (table.toList ++ ' ' :: set)).length + 1 := by
    change setAt + 5 = _
    simp only [List.length_append, List.length_cons]
    omega
  exact ⟨noSet, noWhere, unmentioned_of_parse_assignment whole starts found cut read⟩

/-- The table and the assignment of an update stand where the keywords are written. -/
theorem update_parts (trimmed : Trimmed table.toList) :
    tableBetween line 6 (7 + table.toList.length) = .ok table ∧
      part line (7 + table.toList.length + setKeyword.length)
          (12 + table.toList.length + assignment.display.toList.length) =
        .ok assignment.display.toList := by
  have six : word.length = 6 := length_eq_of_spelled spelled
  have three : set.length = 3 := length_eq_of_spelled spelledSet
  constructor
  · have divided : line = word ++ ((' ' :: table.toList) ++ (' ' :: (set ++ ' ' ::
        (assignment.display.toList ++ ' ' :: (filter ++ ' ' :: condition.display.toList))))) := by
      simp [written]
    refine tableBetween_of_append divided six.symm ?_ ?_ trimmed.nonempty
    · rw [List.length_cons]
      omega
    · rw [Text.trim_cons_of_isBlank rfl, trimmed.trim_eq]
  · have divided : line = (word ++ ' ' :: (table.toList ++ ' ' :: (set ++ [' ']))) ++
        (assignment.display.toList ++ ' ' :: (filter ++ ' ' :: condition.display.toList)) := by
      simp [written]
    refine part_of_append divided ?_ ?_
    · change 7 + table.toList.length + 5 = _
      simp only [List.length_append, List.length_cons, List.length_nil]
      omega
    · change _ = 7 + table.toList.length + 5 + _
      omega

include spelledFilter

theorem position?_where_iff :
    Text.position? whereKeyword line =
        some (12 + table.toList.length + assignment.display.toList.length) ↔
      ¬ Mentions (padded (table.toList ++ ' ' :: (set ++ ' ' :: assignment.display.toList)))
        whereKeyword := by
  have six : word.length = 6 := length_eq_of_spelled spelled
  have three : set.length = 3 := length_eq_of_spelled spelledSet
  have clean : ¬ Mentions (word ++ [' ']) whereKeyword := by
    simp only [Mentions, Text.foldCase_append, spelled]
    decide
  have whole : line = word ++ ' ' :: ((table.toList ++ ' ' :: (set ++ ' ' ::
      assignment.display.toList)) ++ ' ' :: (filter ++ ' ' :: condition.display.toList)) := by
    simp [written]
  have place : 12 + table.toList.length + assignment.display.toList.length =
      word.length + 1 + (table.toList ++ ' ' :: (set ++ ' ' ::
        assignment.display.toList)).length := by
    simp only [List.length_append, List.length_cons]
    omega
  rw [whole, place]
  exact Text.position?_padded_eq_iff (by decide) clean (prefix_foldCase_of_spelled spelledFilter _)

theorem update_tail :
    line.drop (12 + table.toList.length + assignment.display.toList.length +
      whereKeyword.length) = condition.display.toList := by
  have six : word.length = 6 := length_eq_of_spelled spelled
  have three : set.length = 3 := length_eq_of_spelled spelledSet
  have five : filter.length = 5 := length_eq_of_spelled spelledFilter
  have divided : line = (word ++ ' ' :: (table.toList ++ ' ' :: (set ++ ' ' ::
      (assignment.display.toList ++ ' ' :: (filter ++ [' ']))))) ++ condition.display.toList := by
    simp [written]
  refine drop_eq_of_append divided ?_
  change 12 + table.toList.length + assignment.display.toList.length + 7 = _
  simp only [List.length_append, List.length_cons, List.length_nil]
  omega

end

theorem parse_updateLine_iff {verb table set filter : String} {assignment condition : Condition}
    (spelled : Text.foldCase verb.toList = Verb.update.word.toList)
    (spelledSet : Text.foldCase set.toList = "set".toList)
    (spelledFilter : Text.foldCase filter.toList = "where".toList)
    (trimmed : Trimmed table.toList) (assigned : assignment.Writable)
    (tested : condition.Writable) :
    parse (updateLine verb table set assignment filter condition) =
        .ok (.update table (.ofCondition assignment) (.ofCondition condition)) ↔
      ¬ Mentions (padded table.toList) setKeyword ∧
        ¬ Mentions (padded table.toList) whereKeyword ∧
        ¬ Mentions (padded assignment.column.toList) whereKeyword ∧
        ∀ text, assignment.value = .str text → ¬ Mentions text.toList whereKeyword := by
  have written := toList_updateLine verb table set assignment filter condition
  have ended : (updateLine verb table set assignment filter condition).toList =
      verb.toList ++ ' ' :: ((table.toList ++ ' ' :: (set.toList ++ ' ' ::
        (assignment.display.toList ++ ' ' :: (filter.toList ++ ' ' ::
          (condition.column.toList ++ [' ', '=', ' ']))))) ++
            condition.value.displayQuoted.toList) := by
    simp [written, Condition.toList_display]
  rw [parse_eq_parseVerb ended spelled condition.value.trimmed_displayQuoted, parseVerb]
  generalize (updateLine verb table set assignment filter condition).toList = line at written
  rw [parseUpdate_eq_ok_iff (findIdx?_isBlank_update spelled written)]
  constructor
  · rintro ⟨setAt, stop, setFound, found, ordered, tabled, ⟨text, cut, read⟩, -⟩
    exact unmentioned_of_update spelled spelledSet written setFound found ordered tabled cut read
  · rintro ⟨noSet, noWhere, noColumn, noString⟩
    have setPlace := (position?_set_iff spelled spelledSet written).mpr noSet
    have wherePlace := (position?_where_iff spelled spelledSet spelledFilter written).mpr <| by
      rw [mentions_assigned_iff spelledSet]
      rintro (inTable | inColumn | ⟨text, quoted, inString⟩)
      · exact noWhere inTable
      · exact noColumn inColumn
      · exact noString text quoted inString
    rcases update_parts spelled spelledSet written trimmed with ⟨tabled, cut⟩
    refine ⟨_, _, setPlace, wherePlace, ?_, tabled, ⟨_, cut, Condition.parse_display assigned⟩, ?_⟩
    · omega
    · rw [update_tail spelled spelledSet spelledFilter written]
      exact Condition.parse_display tested

end Command

end Tabula
