import Mathlib.Data.Bool.AllAny
import Tabula.Proofs.Text.Decimal
import Tabula.Proofs.Text.Keyword
import Tabula.Value.Literal

/-!
# Literals read back

The text shown for a value in a clause is a literal of that value, so no two values are shown alike
there. Only the text of a string holds characters of the user's choice; the other literals are
written with letters, digits and a minus sign.
-/

namespace Tabula.Value

open Text (Trimmed)

theorem toList_displayQuoted_str (text : String) :
    (Value.str text).displayQuoted.toList = '\x22' :: (text.toList ++ ['\x22']) := by
  rw [displayQuoted, String.toList_append, String.toList_append]
  rfl

theorem toList_displayQuoted_int (number : Int64) :
    (Value.int number).displayQuoted.toList = Text.decimal number :=
  String.toList_ofList

/-! ## The characters of a literal -/

/-- A literal that is not of a string is written with visible characters, none of which separates
values. -/
theorem plain_of_mem_displayQuoted {value : Value} {c : Char}
    (c_mem : c ∈ value.displayQuoted.toList) (unquoted : ∀ text, value ≠ .str text) :
    Text.isBlank c = false ∧ c ∉ [',', '(', ')'] := by
  cases value with
  | int number =>
      rw [toList_displayQuoted_int] at c_mem
      have written := Text.mem_of_mem_decimal c_mem
      clear c_mem
      revert c
      exact @(List.all_iff_forall_prop.mp (by decide))
  | str text => exact absurd rfl (unquoted text)
  | bool truth =>
      revert c
      cases truth <;> exact @(List.all_iff_forall_prop.mp (by decide))

/-- A character that separates values stands in a literal only as part of a string. -/
theorem mem_displayQuoted_iff {value : Value} {c : Char} (separates : c ∈ [',', '(', ')']) :
    c ∈ value.displayQuoted.toList ↔ ∃ text, value = .str text ∧ c ∈ text.toList := by
  constructor
  · intro c_mem
    cases value with
    | str text =>
        rw [toList_displayQuoted_str] at c_mem
        have unquoted : c ≠ '\x22' := by
          rintro rfl
          revert separates
          decide
        refine ⟨text, rfl, ?_⟩
        simpa [unquoted] using c_mem
    | int number => exact absurd separates (plain_of_mem_displayQuoted c_mem nofun).2
    | bool truth => exact absurd separates (plain_of_mem_displayQuoted c_mem nofun).2
  · rintro ⟨text, rfl, c_mem⟩
    rw [toList_displayQuoted_str]
    exact List.mem_cons_of_mem _ (List.mem_append_left _ c_mem)

theorem trimmed_displayQuoted (value : Value) : Trimmed value.displayQuoted.toList := by
  by_cases quoted : ∃ text, value = .str text
  · rcases quoted with ⟨text, rfl⟩
    rw [toList_displayQuoted_str]
    refine ⟨List.cons_ne_nil _ _, ?_, ?_⟩
    · rintro _ ⟨⟩
      decide
    · rw [← List.cons_append, List.getLast?_concat]
      rintro _ ⟨⟩
      decide
  · have plain : ∀ c ∈ value.displayQuoted.toList, Text.isBlank c = false := fun c c_mem =>
      (plain_of_mem_displayQuoted c_mem fun text same => quoted ⟨text, same⟩).1
    refine Text.trimmed_of_forall ?_ plain
    cases value with
    | int number =>
        rw [toList_displayQuoted_int]
        exact Text.decimal_ne_nil number
    | str text => exact absurd ⟨text, rfl⟩ quoted
    | bool truth => cases truth <;> decide

/-! ## Reading -/

/-- A text that begins as neither truth value does is text between quotes, an integer or text. -/
theorem ofTrimmed_cons {c : Char} (notTrue : c.toLower ≠ 't') (notFalse : c.toLower ≠ 'f')
    (rest : List Char) :
    ofTrimmed (c :: rest) =
      match unquote? (c :: rest) with
      | some inner => .str (String.ofList inner)
      | none =>
          match (Text.integer? (c :: rest)).bind Text.int64? with
          | some number => .int number
          | none => .str (String.ofList (c :: rest)) := by
  have differs (first : Char) (word : List Char) (small : first.toLower = first)
      (different : c.toLower ≠ first) :
      ¬ Text.sameIgnoringCase (c :: rest) (first :: word) = true := by
    simp [Text.sameIgnoringCase, small, different]
  have untrue : ¬ Text.sameIgnoringCase (c :: rest) "true".toList = true :=
    differs 't' ['r', 'u', 'e'] rfl notTrue
  have unfalse : ¬ Text.sameIgnoringCase (c :: rest) "false".toList = true :=
    differs 'f' ['a', 'l', 's', 'e'] rfl notFalse
  rw [ofTrimmed, if_neg untrue]
  exact if_neg unfalse

/-- What begins as an integer does is one, if it can be read as one. -/
theorem ofTrimmed_of_integer {c : Char} {rest : List Char} {number : Int64}
    (first : c ∈ ['+', '-', '0', '1', '2', '3', '4', '5', '6', '7', '8', '9'])
    (read : (Text.integer? (c :: rest)).bind Text.int64? = some number) :
    ofTrimmed (c :: rest) = .int number := by
  have starts : c.toLower ≠ 't' ∧ c.toLower ≠ 'f' ∧ c ≠ '\x22' ∧ c ≠ '\x27' := by
    clear read
    revert c
    exact @(List.all_iff_forall_prop.mp (by decide))
  have unquoted : unquote? (c :: rest) = none := by
    rw [unquote?, if_neg]
    rintro ⟨double | single, -⟩
    · exact starts.2.2.1 double
    · exact starts.2.2.2 single
  rw [ofTrimmed_cons starts.1 starts.2.1, unquoted, read]

theorem ofTrimmed_of_quotes {quote : Char} (quotes : quote = '\x22' ∨ quote = '\x27')
    (inner : List Char) :
    ofTrimmed (quote :: (inner ++ [quote])) = .str (String.ofList inner) := by
  have untouched : unquote? (quote :: (inner ++ [quote])) = some inner := by
    rw [unquote?, if_pos ⟨quotes, List.getLast?_concat⟩, List.dropLast_concat]
  rcases quotes with rfl | rfl
  · rw [ofTrimmed_cons (by decide) (by decide), untouched]
  · rw [ofTrimmed_cons (by decide) (by decide), untouched]

theorem ofTrimmed_displayQuoted (value : Value) :
    ofTrimmed value.displayQuoted.toList = value := by
  cases value with
  | int number =>
      have characters := @Text.mem_of_mem_decimal number
      have read : (Text.integer? (Text.decimal number)).bind Text.int64? = some number := by
        rw [Text.integer?_decimal, Option.bind_some, Text.int64?_toInt]
      rw [toList_displayQuoted_int]
      cases written : Text.decimal number with
      | nil => exact absurd written (Text.decimal_ne_nil number)
      | cons c rest =>
          rw [written] at read characters
          exact ofTrimmed_of_integer (List.mem_cons_of_mem _ (characters List.mem_cons_self)) read
  | str text =>
      rw [toList_displayQuoted_str, ofTrimmed_of_quotes (.inl rfl), String.ofList_toList]
  | bool truth => cases truth <;> decide

/-- The text shown for a value in a clause is a literal of it. -/
theorem ofLiteral?_displayQuoted (value : Value) :
    ofLiteral? value.displayQuoted.toList = some value := by
  have trimmed := value.trimmed_displayQuoted
  rw [ofLiteral?, trimmed.trim_eq, if_neg trimmed.nonempty, ofTrimmed_displayQuoted]

theorem displayQuoted_injective : Function.Injective displayQuoted := by
  intro left right same
  have literals := congrArg (fun text : String => ofLiteral? text.toList) same
  simpa only [ofLiteral?_displayQuoted, Option.some.injEq] using literals

theorem displayQuoted_eq (value : Value) :
    value.displayQuoted =
      if value.type = .str then "\"" ++ value.display ++ "\"" else value.display := by
  cases value <;> rfl

/-- Values of one type that are shown alike are the same. Those of two types may be shown alike: the
text `1` and the integer 1 are. -/
theorem eq_of_display {left right : Value} (sameType : left.type = right.type)
    (sameText : left.display = right.display) : left = right := by
  apply displayQuoted_injective
  rw [displayQuoted_eq, displayQuoted_eq, sameType, sameText]

theorem ofLiteral?_space_cons (literal : List Char) :
    ofLiteral? (' ' :: literal) = ofLiteral? literal := by
  rw [ofLiteral?, Text.trim_cons_of_isBlank rfl, ofLiteral?]

theorem length_unquote?_le {text inner : List Char} (unquoted : unquote? text = some inner) :
    inner.length ≤ text.length := by
  cases text with
  | nil => cases unquoted
  | cons quote rest =>
      rw [unquote?] at unquoted
      split at unquoted
      · cases unquoted
        rw [List.length_dropLast, List.length_cons]
        omega
      · cases unquoted

/-- A string is no longer than the literal it is read from. -/
theorem length_le_of_ofLiteral? {literal : List Char} {text : String}
    (read : ofLiteral? literal = some (.str text)) : text.toList.length ≤ literal.length := by
  have trimmed := Text.length_trim_le literal
  refine Nat.le_trans ?_ trimmed
  rw [ofLiteral?] at read
  split at read
  · cases read
  · rw [Option.some.injEq, ofTrimmed] at read
    split at read
    · cases read
    split at read
    · cases read
    split at read
    · rename_i inner unquoted
      cases read
      rw [String.toList_ofList]
      exact length_unquote?_le unquoted
    · split at read
      · cases read
      · cases read
        rw [String.toList_ofList]

end Tabula.Value
