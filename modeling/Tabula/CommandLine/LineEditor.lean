/-!
# The line editor

A line editor gives the program the text of each line that is typed. It is not part of this
library. Two things are taken for granted of it: it reads one line at a time, up to a line feed or
the end of the input, and it gives a line without backspaces as it was typed, without its ending.
-/

namespace Tabula.CommandLine

/-- The lines of a text, endings included. All but the last end with a line feed, and the last
may. -/
def cutLines : List Char → List (List Char)
  | [] => []
  | c :: rest =>
      if c = '\n' then [c] :: cutLines rest
      else match cutLines rest with
        | [] => [[c]]
        | line :: more => (c :: line) :: more

/-- The lines of an input as they were typed. -/
def typedLines (input : String) : List String :=
  (cutLines input.toList).map String.ofList

/-- A text without the carriage return at its end. -/
def dropReturn (text : List Char) : List Char :=
  if text.getLast? = some '\r' then text.dropLast else text

/-- A line without its ending: a line feed, or a carriage return and a line feed. -/
def dropEnding (typed : String) : String :=
  if typed.toList.getLast? = some '\n' then String.ofList (dropReturn typed.toList.dropLast)
  else typed

/-- The lines of an input without their endings. -/
def lines (input : String) : List String :=
  (typedLines input).map dropEnding

def backspace : Char :=
  '\x08'

structure LineEditor where
  /-- The text given for a line that was typed. -/
  text : String → String
  text_of_plain : ∀ typed, backspace ∉ typed.toList → text typed = dropEnding typed

/-- What is left of a text behind characters that were kept, the last of them first, if each
backspace takes back the last character kept. -/
def eraseFrom (kept : List Char) : List Char → List Char
  | [] => kept.reverse
  | c :: rest => if c = backspace then eraseFrom kept.tail rest else eraseFrom (c :: kept) rest

theorem eraseFrom_of_plain {text : List Char} (plain : backspace ∉ text) (kept : List Char) :
    eraseFrom kept text = kept.reverse ++ text := by
  induction text generalizing kept with
  | nil => simp [eraseFrom]
  | cons c rest ih =>
      rw [List.mem_cons, not_or] at plain
      rw [eraseFrom, if_neg (Ne.symm plain.1), ih plain.2, List.reverse_cons, List.append_assoc,
        List.singleton_append]

theorem dropReturn_subset (text : List Char) : dropReturn text ⊆ text := by
  rw [dropReturn]
  split
  · exact List.dropLast_subset text
  · exact List.Subset.refl text

theorem dropEnding_subset (typed : String) : (dropEnding typed).toList ⊆ typed.toList := by
  rw [dropEnding]
  split
  · rw [String.toList_ofList]
    exact List.Subset.trans (dropReturn_subset _) (List.dropLast_subset _)
  · exact List.Subset.refl _

/-- The line editor with which a backspace takes back the character before it. Where several
characters are drawn as one, others take back all of them. -/
def LineEditor.erasing : LineEditor where
  text typed := String.ofList (eraseFrom [] (dropEnding typed).toList)
  text_of_plain typed plain := by
    have kept := eraseFrom_of_plain (fun erases => plain (dropEnding_subset typed erases)) []
    rw [kept, List.reverse_nil, List.nil_append, String.ofList_toList]

/-- The texts that a line editor gives for the lines of an input. -/
def LineEditor.lines (editor : LineEditor) (input : String) : List String :=
  (typedLines input).map editor.text

end Tabula.CommandLine
