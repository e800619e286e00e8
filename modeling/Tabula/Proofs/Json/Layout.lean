import Tabula.Proofs.Json.Spelling

/-!
# The layouts of a value

Both layouts of a JSON value spell the same tokens, so the lexer reads the tokens of the value back
from either. A value that is a number must not be followed by what could continue it; in a container
it never is, and so the items and members with their closing mark ask nothing of what follows.
-/

namespace Tabula.Json

mutual

/-- The tokens of a value. -/
def tokens : Json → List Token
  | .null => [.null]
  | .bool truth => [.bool truth]
  | .int number => [.number (some number)]
  | .string text => [.string (some text)]
  | .array items => .openBracket :: itemTokens items
  | .object members => .openBrace :: memberTokens members

/-- The tokens of the items of an array and its closing bracket. -/
def itemTokens : List Json → List Token
  | [] => [.closeBracket]
  | [item] => tokens item ++ [.closeBracket]
  | item :: items => tokens item ++ .comma :: itemTokens items

/-- The tokens of the members of an object and its closing brace. -/
def memberTokens : List (String × Json) → List Token
  | [] => [.closeBrace]
  | [(key, value)] => .string (some key) :: .colon :: (tokens value ++ [.closeBrace])
  | (key, value) :: members =>
      .string (some key) :: .colon :: (tokens value ++ .comma :: memberTokens members)

end

theorem itemTokens_cons_cons (item next : Json) (items : List Json) :
    itemTokens (item :: next :: items) =
      item.tokens ++ .comma :: itemTokens (next :: items) := by
  rw [itemTokens]
  nofun

theorem memberTokens_cons_cons (key : String) (value : Json) (next : String × Json)
    (members : List (String × Json)) :
    memberTokens ((key, value) :: next :: members) =
      .string (some key) :: .colon :: (value.tokens ++ .comma :: memberTokens (next :: members)) := by
  rw [memberTokens]
  nofun

/-! ## White space and marks -/

section

variable {rest : List Token} {text : List Char}

theorem endsNumber_cons {c : Char} (ending : c ∈ [',', ']', '\x7d', '\n']) (text : List Char) :
    EndsNumber (c :: text) := by
  rintro _ ⟨⟩
  simp only [List.mem_cons, List.not_mem_nil, or_false] at ending
  rcases ending with rfl | rfl | rfl | rfl <;> decide

theorem endsNumber_newLine (depth : Nat) (text : List Char) :
    EndsNumber (newLine depth ++ text) :=
  endsNumber_cons (by decide) _

theorem Spells.blank (spells : Spells rest text) : Spells rest (' ' :: text) :=
  .space (by decide) spells

theorem Spells.key (spells : Spells rest text) (key : String) :
    Spells (.string (some key) :: rest) (writeString key ++ text) :=
  .string spells

theorem Spells.newLine (spells : Spells rest text) (depth : Nat) :
    Spells rest (Json.newLine depth ++ text) := by
  refine .space (by decide) ?_
  induction 2 * depth with
  | zero => exact spells
  | succ count ih => exact .space (by decide) ih

theorem Spells.comma (spells : Spells rest text) : Spells (.comma :: rest) (',' :: text) :=
  .mark (by decide) spells

theorem Spells.colon (spells : Spells rest text) : Spells (.colon :: rest) (':' :: text) :=
  .mark (by decide) spells

theorem Spells.closeBracket (spells : Spells rest text) :
    Spells (.closeBracket :: rest) (']' :: text) :=
  .mark (by decide) spells

theorem Spells.closeBrace (spells : Spells rest text) :
    Spells (.closeBrace :: rest) ('\x7d' :: text) :=
  .mark (by decide) spells

end

/-! ## The compact layout -/

mutual

theorem spells_compact (json : Json) {rest : List Token} {text : List Char}
    (ends : EndsNumber text) (spells : Spells rest text) :
    Spells (json.tokens ++ rest) (json.compact ++ text) := by
  cases json with
  | null => exact .null spells
  | bool truth => exact .truth spells
  | int number => exact .number ends spells
  | string content => exact .string spells
  | array items => exact .mark (by decide) (spells_compactItems items spells)
  | object members => exact .mark (by decide) (spells_compactMembers members spells)

theorem spells_compactItems (items : List Json) {rest : List Token} {text : List Char}
    (spells : Spells rest text) :
    Spells (itemTokens items ++ rest) (compactItems items ++ text) := by
  cases items with
  | nil => exact spells.closeBracket
  | cons item items =>
      cases items with
      | nil =>
          have ended := spells_compact item (endsNumber_cons (by decide) text) spells.closeBracket
          simpa [itemTokens, compactItems] using ended
      | cons next items =>
          have others := (spells_compactItems (next :: items) spells).comma
          have whole := spells_compact item (endsNumber_cons (by decide) _) others
          simpa [itemTokens, compactItems] using whole

theorem spells_compactMembers (members : List (String × Json)) {rest : List Token}
    {text : List Char} (spells : Spells rest text) :
    Spells (memberTokens members ++ rest) (compactMembers members ++ text) := by
  cases members with
  | nil => exact spells.closeBrace
  | cons member members =>
      rcases member with ⟨key, value⟩
      cases members with
      | nil =>
          have ended := spells_compact value (endsNumber_cons (by decide) text) spells.closeBrace
          simpa [memberTokens, compactMembers] using ended.colon.key key
      | cons next members =>
          have others := (spells_compactMembers (next :: members) spells).comma
          have valued := spells_compact value (endsNumber_cons (by decide) _) others
          simpa [memberTokens, compactMembers] using valued.colon.key key

end

/-- The lexer reads the tokens of a value back from its compact layout. -/
theorem lex_compact (json : Json) : lex json.compact = json.tokens := by
  have spells := spells_compact json endsNumber_nil .nil
  rw [List.append_nil, List.append_nil] at spells
  exact lex_of_spells spells

/-! ## The indented layout -/

mutual

theorem spells_indentedAt (depth : Nat) (json : Json) {rest : List Token} {text : List Char}
    (ends : EndsNumber text) (spells : Spells rest text) :
    Spells (json.tokens ++ rest) (json.indentedAt depth ++ text) := by
  cases json with
  | null => exact .null spells
  | bool truth => exact .truth spells
  | int number => exact .number ends spells
  | string content => exact .string spells
  | array items =>
      cases items with
      | nil => exact .mark (by decide) spells.closeBracket
      | cons item items =>
          have inside := spells_indentedItems (depth + 1) (item :: items) spells
          rw [tokens, indentedAt]
          exact .mark (by decide) inside
  | object members =>
      cases members with
      | nil => exact .mark (by decide) spells.closeBrace
      | cons member members =>
          have inside := spells_indentedMembers (depth + 1) (member :: members) spells
          rw [tokens, indentedAt]
          exact .mark (by decide) inside

theorem spells_indentedItems (depth : Nat) (items : List Json) {rest : List Token}
    {text : List Char} (spells : Spells rest text) :
    Spells (itemTokens items ++ rest) (indentedItems depth items ++ text) := by
  cases items with
  | nil => exact spells.closeBracket
  | cons item items =>
      cases items with
      | nil =>
          have ended := spells_indentedAt depth item (endsNumber_newLine (depth - 1) _)
            (spells.closeBracket.newLine (depth - 1))
          simpa [itemTokens, indentedItems] using ended.newLine depth
      | cons next items =>
          have others := (spells_indentedItems depth (next :: items) spells).comma
          have whole := spells_indentedAt depth item (endsNumber_cons (by decide) _) others
          simpa [itemTokens, indentedItems] using whole.newLine depth

theorem spells_indentedMembers (depth : Nat) (members : List (String × Json)) {rest : List Token}
    {text : List Char} (spells : Spells rest text) :
    Spells (memberTokens members ++ rest) (indentedMembers depth members ++ text) := by
  cases members with
  | nil => exact spells.closeBrace
  | cons member members =>
      rcases member with ⟨key, value⟩
      cases members with
      | nil =>
          have ended := spells_indentedAt depth value (endsNumber_newLine (depth - 1) _)
            (spells.closeBrace.newLine (depth - 1))
          simpa [memberTokens, indentedMembers] using (ended.blank.colon.key key).newLine depth
      | cons next members =>
          have others := (spells_indentedMembers depth (next :: members) spells).comma
          have valued := spells_indentedAt depth value (endsNumber_cons (by decide) _) others
          simpa [memberTokens, indentedMembers] using (valued.blank.colon.key key).newLine depth

end

/-- The lexer reads the tokens of a value back from its indented layout. -/
theorem lex_indented (json : Json) : lex json.indented = json.tokens := by
  have spells := spells_indentedAt 0 json endsNumber_nil .nil
  rw [List.append_nil, List.append_nil] at spells
  exact lex_of_spells spells

/-! ## Either layout -/

/-- How a value is laid out as text. -/
inductive Layout
  | compact
  | indented

/-- The text of a value in a layout. -/
def write (json : Json) : Layout → String
  | .compact => String.ofList json.compact
  | .indented => String.ofList json.indented

/-- The lexer reads the tokens of a value back from its text in either layout. -/
theorem lex_write (json : Json) (layout : Layout) :
    lex (json.write layout).toList = json.tokens := by
  cases layout with
  | compact => rw [write, String.toList_ofList, lex_compact]
  | indented => rw [write, String.toList_ofList, lex_indented]

end Tabula.Json
