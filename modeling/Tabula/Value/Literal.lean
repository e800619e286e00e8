import Tabula.Text.Blank
import Tabula.Text.Keyword
import Tabula.Value

/-!
# Literals

How a value is written in a command. White space around it does not count. The words `true` and
`false` are truth values in any case; anything between two equal quotes is the text between them,
untouched; an integer in range is an integer; whatever remains is text as it stands. Only blank
text writes no value at all.
-/

namespace Tabula.Value

/-- The text between two equal quotes, single or double. -/
def unquote? : List Char → Option (List Char)
  | [] => none
  | quote :: rest =>
      if (quote = '\x22' ∨ quote = '\x27') ∧ rest.getLast? = some quote then some rest.dropLast
      else none

/-- The value that a text without white space at its ends writes. -/
def ofTrimmed (text : List Char) : Value :=
  if Text.sameIgnoringCase text "true".toList then .bool true
  else if Text.sameIgnoringCase text "false".toList then .bool false
  else match unquote? text with
    | some inner => .str (String.ofList inner)
    | none =>
        match (Text.integer? text).bind Text.int64? with
        | some number => .int number
        | none => .str (String.ofList text)

/-- The value that a text writes; blank text writes none. -/
def ofLiteral? (text : List Char) : Option Value :=
  let trimmed := Text.trim text
  if trimmed = [] then none else some (ofTrimmed trimmed)

end Tabula.Value
