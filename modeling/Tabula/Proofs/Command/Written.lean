import Tabula.Proofs.Command.Update

/-!
# Commands on data read back

The line that a command on data is written as is read as that very command, in whatever case its
verb and keywords are written, unless a name or a string hides a keyword or separates values. When
one does, the line is read as another command or not at all.
-/

namespace Tabula

namespace Command

open Text (Trimmed Mentions padded)

/-- A text is a word in small letters, but for the case of its letters. -/
def Spells (text word : String) : Prop :=
  Text.foldCase text.toList = word.toList

instance (text word : String) : Decidable (Spells text word) :=
  inferInstanceAs (Decidable (Text.foldCase text.toList = word.toList))

/-- Exactly when a written command on data is read back as that very command, for every table name
and every column that is trimmed, every value, and every spelling of the verb and the keywords. An
insert asks of the table that it does not mention `values`, and of the strings that they hold no
comma and no parenthesis. A select and a delete ask of the table, between spaces, that it does not
mention `where` between spaces. An update asks the same of the table, the assigned column and the
assigned string, and of the table also that it does not mention `set` between spaces. -/
theorem parse_written_iff :
    (∀ (verb into table values : String) (row : List Value),
      Spells verb "insert" → Spells into "into" → Spells values "values" →
      Trimmed table.toList →
        (parse (insertLine verb into table values row) = .ok (.insert table row) ↔
          ¬ Mentions table.toList "values".toList ∧
            ∀ text, .str text ∈ row → ∀ c ∈ [',', '(', ')'], c ∉ text.toList)) ∧
    (∀ (verb source table filter : String) (condition : Condition),
      Spells verb "select" → Spells source "from" → Spells filter "where" →
      Trimmed table.toList → condition.Writable →
        (parse (filterLine verb source table filter condition) =
            .ok (.select table (some (.ofCondition condition))) ↔
          ¬ Mentions (padded table.toList) " where ".toList)) ∧
    (∀ (verb source table filter : String) (condition : Condition),
      Spells verb "delete" → Spells source "from" → Spells filter "where" →
      Trimmed table.toList → condition.Writable →
        (parse (filterLine verb source table filter condition) =
            .ok (.delete table (.ofCondition condition)) ↔
          ¬ Mentions (padded table.toList) " where ".toList)) ∧
    ∀ (verb table set filter : String) (assignment condition : Condition),
      Spells verb "update" → Spells set "set" → Spells filter "where" →
      Trimmed table.toList → assignment.Writable → condition.Writable →
        (parse (updateLine verb table set assignment filter condition) =
            .ok (.update table (.ofCondition assignment) (.ofCondition condition)) ↔
          ¬ Mentions (padded table.toList) " set ".toList ∧
            ¬ Mentions (padded table.toList) " where ".toList ∧
            ¬ Mentions (padded assignment.column.toList) " where ".toList ∧
            ∀ text, assignment.value = .str text → ¬ Mentions text.toList " where ".toList) := by
  refine ⟨?_, ?_, ?_, ?_⟩
  · intro verb into table values row spelled spelledInto spelledValues trimmed
    exact parse_insertLine_iff spelled spelledInto spelledValues trimmed
  · intro verb source table filter condition spelled spelledSource spelledFilter trimmed writable
    rcases filterLine_reads (.inl rfl) spelled spelledSource spelledFilter trimmed writable rfl with
      ⟨parsed, place, filtered⟩
    rw [parsed, parseVerb, parseSelect_eq_ok_iff place]
    exact filtered
  · intro verb source table filter condition spelled spelledSource spelledFilter trimmed writable
    rcases filterLine_reads (.inr rfl) spelled spelledSource spelledFilter trimmed writable rfl with
      ⟨parsed, place, filtered⟩
    rw [parsed, parseVerb, parseDelete_eq_ok_iff place]
    exact filtered
  · intro verb table set filter assignment condition spelled spelledSet spelledFilter trimmed
      assigned tested
    exact parse_updateLine_iff spelled spelledSet spelledFilter trimmed assigned tested

/-- A column that mentions the keyword of a condition is read back after that keyword, but not
before it. -/
theorem parse_written_a_where_b :
    parse (insertLine "INSERT" "Into" "where set" "values" [.int 7, .str "x where y", .bool true]) =
        .ok (.insert "where set" [.int 7, .str "x where y", .bool true]) ∧
      parse (filterLine "Select" "FROM" "where2" "Where" ⟨"a where b", .str "x where y"⟩) =
        .ok (.select "where2" (some (.ofCondition ⟨"a where b", .str "x where y"⟩))) ∧
      parse (filterLine "dElete" "from" "t" "where" ⟨"a where b", .int 7⟩) =
        .ok (.delete "t" (.ofCondition ⟨"a where b", .int 7⟩)) ∧
      parse (updateLine "Update" "t" "SET" ⟨"a set b", .str "x"⟩ "WHERE" ⟨"a where b", .int 7⟩) =
        .ok (.update "t" (.ofCondition ⟨"a set b", .str "x"⟩) (.ofCondition ⟨"a where b", .int 7⟩)) ∧
      parse (updateLine "update" "t" "set" ⟨"a where b", .int 7⟩ "where" ⟨"c", .int 7⟩) ≠
        .ok (.update "t" (.ofCondition ⟨"a where b", .int 7⟩) (.ofCondition ⟨"c", .int 7⟩)) := by
  rcases parse_written_iff with ⟨inserted, selected, deleted, updated⟩
  refine ⟨?_, ?_, ?_, ?_, ?_⟩
  · refine (inserted _ _ _ _ _ (by decide) (by decide) (by decide) (by decide)).mpr
      ⟨by decide, ?_⟩
    intro text text_mem
    simp only [List.mem_cons, reduceCtorEq, Value.str.injEq, false_or, List.not_mem_nil,
      or_false] at text_mem
    subst text_mem
    exact List.all_iff_forall_prop.mp (by decide)
  · exact (selected _ _ _ _ _ (by decide) (by decide) (by decide) (by decide)
      ⟨by decide, by decide⟩).mpr (by decide)
  · exact (deleted _ _ _ _ _ (by decide) (by decide) (by decide) (by decide)
      ⟨by decide, by decide⟩).mpr (by decide)
  · refine (updated _ _ _ _ _ _ (by decide) (by decide) (by decide) (by decide)
      ⟨by decide, by decide⟩ ⟨by decide, by decide⟩).mpr ⟨by decide, by decide, by decide, ?_⟩
    rintro _ ⟨⟩
    decide
  · intro read
    have unmentioned := ((updated _ _ _ _ _ _ (by decide) (by decide) (by decide) (by decide)
      ⟨by decide, by decide⟩ ⟨by decide, by decide⟩).mp read).2.2.1
    revert unmentioned
    decide

end Command

end Tabula
