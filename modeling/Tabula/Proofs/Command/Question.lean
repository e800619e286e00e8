import Tabula.Confirmation
import Tabula.Proofs.Command.Insertable

/-!
# What a question says

The question before a destructive command names the command by a text that is put together from its
table, its column and its value, and nothing in it is escaped. A table that a line names does not
mention `where` between spaces, a column holds no equals sign, and a value is shown as a literal of
itself, so the text can be taken apart again. But it can be taken apart in two ways where the
keyword stands twice and its two occurrences share a space.
-/

namespace Tabula

namespace Text

theorem Mentions.of_small {text keyword : List Char} (small : foldCase keyword = keyword)
    (occurs : keyword <:+: text) : Mentions text keyword := by
  have folded : foldCase keyword <:+: foldCase text := occurs.map Char.toLower
  rwa [small] at folded

theorem not_mem_of_splitOnce? {mark : Char} {text left right : List Char}
    (split : splitOnce? mark text = some (left, right)) : mark ∉ left := by
  induction text generalizing left with
  | nil => cases split
  | cons c text ih =>
      rw [splitOnce?] at split
      split at split
      · cases split
        exact List.not_mem_nil
      · rename_i unmarked
        rw [Option.map_eq_some_iff] at split
        rcases split with ⟨⟨before, after⟩, found, same⟩
        cases same
        rw [List.mem_cons, not_or]
        exact ⟨Ne.symm unmarked, ih found⟩

/-! ## Two ways to divide a text -/

section

variable {word left more right other : List Char}

/-- Where a keyword between spaces is written before a text, and again some way behind its
beginning, the second begins no earlier than with the space that ends the first. -/
theorem eq_nil_or_eq_of_padded_append (plain : ' ' ∉ word)
    (clean : ¬ padded word <:+: left ++ more)
    (same : padded word ++ right = more ++ (padded word ++ other)) :
    (more = [] ∧ right = other) ∨ (more = ' ' :: word ∧ right = word ++ ' ' :: other) := by
  cases more with
  | nil => exact .inl ⟨rfl, List.append_cancel_left same⟩
  | cons c more =>
      have divided : word ++ ' ' :: right = more ++ ' ' :: (word ++ ' ' :: other) ∧ ' ' = c := by
        simpa [padded, and_comm] using same
      rcases divided with ⟨divided, rfl⟩
      refine .inr ?_
      rcases List.append_eq_append_iff.mp divided with
        ⟨between, rfl, rest⟩ | ⟨between, rfl, rest⟩
      · cases between with
        | nil =>
            rw [List.nil_append, List.cons.injEq] at rest
            exact ⟨by rw [List.append_nil], rest.2⟩
        | cons d between =>
            rw [List.cons_append, List.cons.injEq] at rest
            rcases rest with ⟨rfl, -⟩
            refine absurd ⟨left, between, ?_⟩ clean
            simp [padded]
      · cases between with
        | nil =>
            rw [List.nil_append, List.cons.injEq] at rest
            rw [List.append_nil] at rest ⊢
            exact ⟨rfl, rest.2.symm⟩
        | cons d between =>
            rw [List.cons_append, List.cons.injEq] at rest
            rcases rest with ⟨rfl, -⟩
            exact absurd (List.mem_append_right more List.mem_cons_self) plain

/-- A text that is divided twice by a keyword between spaces, both times with no such keyword
before, is divided at the same place, or at two occurrences that share a space. -/
theorem eq_or_shares_of_append_padded (plain : ' ' ∉ word) (clean : ¬ padded word <:+: left)
    (cleanMore : ¬ padded word <:+: more)
    (same : left ++ (padded word ++ right) = more ++ (padded word ++ other)) :
    (left = more ∧ right = other) ∨
      (more = left ++ ' ' :: word ∧ right = word ++ ' ' :: other) ∨
      (left = more ++ ' ' :: word ∧ other = word ++ ' ' :: right) := by
  rcases List.append_eq_append_iff.mp same with ⟨between, rfl, rest⟩ | ⟨between, rfl, rest⟩
  · rcases eq_nil_or_eq_of_padded_append plain cleanMore rest with ⟨rfl, tails⟩ | ⟨rfl, tails⟩
    · exact .inl ⟨(List.append_nil left).symm, tails⟩
    · exact .inr (.inl ⟨rfl, tails⟩)
  · rcases eq_nil_or_eq_of_padded_append plain clean rest with ⟨rfl, tails⟩ | ⟨rfl, tails⟩
    · exact .inl ⟨List.append_nil more, tails.symm⟩
    · exact .inr (.inr ⟨rfl, tails⟩)

end

end Text

theorem Confirmation.question_injective : Function.Injective question := by
  intro left right same
  unfold question at same
  exact (String.append_right_inj _).mp ((String.append_left_inj _).mp same)

/-! ## Conditions as they are shown -/

namespace Condition

/-- A condition that is read stands out where it is written. -/
theorem writable_of_parse {text : List Char} {condition : Condition}
    (read : parse text = .ok condition) : condition.Writable := by
  rw [parse] at read
  split at read
  · cases read
  · rename_i left right divided
    simp only at read
    split at read
    · cases read
    rename_i named
    split at read
    · cases read
    cases read
    have absent : '=' ∉ Text.trim left := fun marked =>
      Text.not_mem_of_splitOnce? divided ((Text.trim_infix left).subset marked)
    exact ⟨by rw [String.toList_ofList]; exact Text.trimmed_trim named,
      by rw [String.toList_ofList]; exact absent⟩

/-- Conditions that are shown alike are equal if no column holds an equals sign. -/
theorem eq_of_display_eq {left right : Condition} (plainLeft : '=' ∉ left.column.toList)
    (plainRight : '=' ∉ right.column.toList) (same : left.display = right.display) :
    left = right := by
  have divided (condition : Condition) (plain : '=' ∉ condition.column.toList) :
      Text.splitOnce? '=' condition.display.toList =
        some (condition.column.toList ++ [' '], ' ' :: condition.value.displayQuoted.toList) := by
    have absent : '=' ∉ condition.column.toList ++ [' '] := by
      simp [plain]
    rw [← Text.splitOnce?_append absent, toList_display, List.append_assoc]
    rfl
  have parts := divided left plainLeft
  rw [same, divided right plainRight, Option.some.injEq, Prod.mk.injEq, List.cons.injEq] at parts
  have columns : left.column = right.column :=
    String.toList_inj.mp (List.append_cancel_right parts.1).symm
  have values : left.value = right.value :=
    Value.displayQuoted_injective (String.toList_inj.mp parts.2.2.symm)
  rcases left with ⟨column, value⟩
  rcases right with ⟨otherColumn, otherValue⟩
  simp only at columns values
  rw [columns, values]

end Condition

namespace Command

open Text (Mentions padded)

/-! ## Destructive commands as they are read -/

/-- A destructive command that is read drops a table, or deletes from a table whose name does not
mention the keyword of a condition, by a condition that stands out where it is written. -/
theorem destructive_cases {line : String} {command : Command} (read : parse line = .ok command)
    (destructive : command.isDestructive = true) :
    (∃ table, command = .dropTable table) ∨
      ∃ table condition, command = .delete table (.ofCondition condition) ∧
        ¬ Mentions table.toList whereKeyword ∧ condition.Writable := by
  have reads := parseVerb_of_parse read
  cases command with
  | dropTable table => exact .inl ⟨table, rfl⟩
  | delete table predicate =>
      rcases exists_place_of_parseDelete reads with ⟨⟨place, source⟩, name, condition, same⟩
      cases same
      rcases (parseDelete_eq_ok_iff source).mp reads with ⟨stop, found, named, tested⟩
      exact .inr ⟨table, condition, rfl, not_mentions_of_tableBetween (by decide) found named,
        Condition.writable_of_parse tested⟩
  | createTable | listTables | info | insert | select | update | help | exit => cases destructive

/-! ## Questions -/

theorem toList_action_delete (table : String) (condition : Condition) :
    (Command.delete table (.ofCondition condition)).action.toList =
      "delete from ".toList ++
        (table.toList ++ (padded "where".toList ++ condition.display.toList)) := by
  simp [action, Predicate.display, Predicate.ofCondition, OrderedMap.single, padded]

/-- Two deletions that test for the same value: what ends the table of the first, the word `where`,
begins the column of the second. -/
def Twins (first second : Command) : Prop :=
  ∃ table column value,
    first = .delete (table ++ " where") (.ofCondition ⟨column, value⟩) ∧
      second = .delete table (.ofCondition ⟨"where " ++ column, value⟩)

theorem Twins.action_eq {first second : Command} (twins : first.Twins second) :
    first.action = second.action := by
  rcases twins with ⟨table, column, value, rfl, rfl⟩
  apply String.toList_inj.mp
  simp [toList_action_delete, Condition.display, padded]

section

variable {table other : String} {condition tested : Condition}

/-- Where the keyword of the second of two questions shares a space with that of the first, what
follows in the first begins with the word `where`. -/
theorem twins_of_shares (writable : condition.Writable) (writableTested : tested.Writable)
    (tables : other.toList = table.toList ++ ' ' :: "where".toList)
    (displays : condition.display.toList = "where".toList ++ ' ' :: tested.display.toList) :
    Twins (.delete other (.ofCondition tested)) (.delete table (.ofCondition condition)) := by
  have shown : condition.display = Condition.display ⟨"where " ++ tested.column, tested.value⟩ := by
    apply String.toList_inj.mp
    rw [displays]
    simp [Condition.display]
  have plain : '=' ∉ ("where " ++ tested.column).toList := by
    rw [String.toList_append, List.mem_append, not_or]
    exact ⟨by decide, writableTested.plain⟩
  have named : other = table ++ " where" := by
    apply String.toList_inj.mp
    rw [tables, String.toList_append]
    rfl
  have equal : condition = ⟨"where " ++ tested.column, tested.value⟩ :=
    Condition.eq_of_display_eq writable.plain plain shown
  exact ⟨table, tested.column, tested.value, by rw [named], by rw [equal]⟩

theorem eq_or_twins_of_action_eq (clean : ¬ Mentions table.toList whereKeyword)
    (writable : condition.Writable) (cleanOther : ¬ Mentions other.toList whereKeyword)
    (writableTested : tested.Writable)
    (same : (Command.delete table (.ofCondition condition)).action =
      (Command.delete other (.ofCondition tested)).action) :
    (table = other ∧ condition = tested) ∨
      Twins (.delete table (.ofCondition condition)) (.delete other (.ofCondition tested)) ∨
      Twins (.delete other (.ofCondition tested)) (.delete table (.ofCondition condition)) := by
  have texts := congrArg String.toList same
  rw [toList_action_delete, toList_action_delete, List.append_cancel_left_eq] at texts
  have unpadded {name : String} (unmentioned : ¬ Mentions name.toList whereKeyword) :
      ¬ padded "where".toList <:+: name.toList := fun occurs =>
    unmentioned (Mentions.of_small (by decide) occurs)
  rcases Text.eq_or_shares_of_append_padded (by decide) (unpadded clean) (unpadded cleanOther)
    texts with ⟨tables, displays⟩ | ⟨tables, displays⟩ | ⟨tables, displays⟩
  · exact .inl ⟨String.toList_inj.mp tables, Condition.eq_of_display_eq writable.plain
      writableTested.plain (String.toList_inj.mp displays)⟩
  · exact .inr (.inr (twins_of_shares writable writableTested tables displays))
  · exact .inr (.inl (twins_of_shares writableTested writable tables displays))

end

/-- The destructive commands of two lines are asked about alike exactly if they are equal or twins:
deletions that test for the same value, with its type, one from a table whose name ends with the
word `where`, the other from the table without that word, on a column that begins with it. -/
theorem question_eq_iff {left right : String} {first second : Command}
    (readFirst : parse left = .ok first) (readSecond : parse right = .ok second)
    (destructiveFirst : first.isDestructive = true)
    (destructiveSecond : second.isDestructive = true) :
    Confirmation.question first.action = Confirmation.question second.action ↔
      first = second ∨ first.Twins second ∨ second.Twins first := by
  rw [Confirmation.question_injective.eq_iff]
  constructor
  · intro same
    -- The two verbs are told apart by the second letter of the action.
    rcases destructive_cases readFirst destructiveFirst with
      ⟨table, rfl⟩ | ⟨table, condition, rfl, clean, writable⟩
    · rcases destructive_cases readSecond destructiveSecond with
        ⟨other, rfl⟩ | ⟨other, tested, rfl, -, -⟩
      · have tables : table = other := (String.append_right_inj "drop table ").mp same
        rw [tables]
        exact .inl rfl
      · have texts := congrArg String.toList same
        simp [action] at texts
    · rcases destructive_cases readSecond destructiveSecond with
        ⟨other, rfl⟩ | ⟨other, tested, rfl, cleanOther, writableTested⟩
      · have texts := congrArg String.toList same
        simp [action] at texts
      · rcases eq_or_twins_of_action_eq clean writable cleanOther writableTested same with
          ⟨rfl, rfl⟩ | twins | twins
        · exact .inl rfl
        · exact .inr (.inl twins)
        · exact .inr (.inr twins)
  · rintro (rfl | twins | twins)
    · rfl
    · exact twins.action_eq
    · exact twins.action_eq.symm

/-- The question tells an integer from a string, but not these two tables. -/
theorem question_eq_iff_delete_x :
    parse "delete from x where\t where a = 1" =
        .ok (.delete "x where" (.ofCondition ⟨"a", .int 1⟩)) ∧
      parse "delete from x where where a = 1" =
        .ok (.delete "x" (.ofCondition ⟨"where a", .int 1⟩)) ∧
      parse "delete from x where where a = '1'" =
        .ok (.delete "x" (.ofCondition ⟨"where a", .str "1"⟩)) ∧
      Confirmation.question (Command.delete "x where" (.ofCondition ⟨"a", .int 1⟩)).action =
        Confirmation.question (Command.delete "x" (.ofCondition ⟨"where a", .int 1⟩)).action ∧
      Confirmation.question (Command.delete "x" (.ofCondition ⟨"where a", .int 1⟩)).action ≠
        Confirmation.question (Command.delete "x" (.ofCondition ⟨"where a", .str "1"⟩)).action := by
  have readLong : parse "delete from x where\t where a = 1" =
      .ok (.delete "x where" (.ofCondition ⟨"a", .int 1⟩)) := rfl
  have readInt : parse "delete from x where where a = 1" =
      .ok (.delete "x" (.ofCondition ⟨"where a", .int 1⟩)) := rfl
  have readString : parse "delete from x where where a = '1'" =
      .ok (.delete "x" (.ofCondition ⟨"where a", .str "1"⟩)) := rfl
  refine ⟨readLong, readInt, readString, ?_, ?_⟩
  · exact (question_eq_iff readLong readInt rfl rfl).mpr
      (.inr (.inl ⟨"x", "a", .int 1, rfl, rfl⟩))
  · intro same
    rcases (question_eq_iff readInt readString rfl rfl).mp same with
      equal | ⟨table, column, value, first, second⟩ | ⟨table, column, value, second, first⟩
    · simp at equal
    · simp only [delete.injEq, Predicate.ofCondition_inj, Condition.mk.injEq] at first second
      cases first.2.2.trans second.2.2.symm
    · simp only [delete.injEq, Predicate.ofCondition_inj, Condition.mk.injEq] at first second
      cases first.2.2.trans second.2.2.symm

/-- Two lines ask the same question, but would delete from different tables. -/
theorem exists_same_question_delete_x :
    ∃ left right first second, parse left = .ok first ∧ parse right = .ok second ∧
      first.isDestructive = true ∧ second.isDestructive = true ∧
      Confirmation.question first.action = Confirmation.question second.action ∧
      first.table? ≠ second.table? := by
  have readLong : parse "delete from x where\t where a = 1" =
      .ok (.delete "x where" (.ofCondition ⟨"a", .int 1⟩)) := rfl
  have readShort : parse "delete from x where where a = 1" =
      .ok (.delete "x" (.ofCondition ⟨"where a", .int 1⟩)) := rfl
  have twins : Twins (.delete "x where" (.ofCondition ⟨"a", .int 1⟩))
      (.delete "x" (.ofCondition ⟨"where a", .int 1⟩)) := ⟨"x", "a", .int 1, rfl, rfl⟩
  exact ⟨_, _, _, _, readLong, readShort, rfl, rfl,
    congrArg Confirmation.question twins.action_eq, by decide⟩

end Command

end Tabula
