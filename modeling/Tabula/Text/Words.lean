import Tabula.Text.Blank

/-!
# Quoted words

A line divides into words at white space, as in a shell. A single-quoted piece stands for its
content. In a double-quoted piece a backslash escapes a double quote or a backslash and stands for
itself before anything else. Outside quotes a backslash escapes any character. Pieces without white
space between them join into one word, and an empty pair of quotes is an empty word.

Reading is a walk of one state over the characters, so what a text does to the reader is the fold
of what its characters do; a text is refused only for the state in which it ends. The reader keeps
what it has read newest first.
-/

namespace Tabula.Text

/-- Why a line has no words. -/
inductive WordFault
  /-- The quotation opened at this character is never closed. -/
  | unclosedQuote (position : Nat)
  /-- The line ends directly after a backslash. -/
  | danglingEscape
deriving DecidableEq, Repr

/-- Where the reader stands, with what it has of the current word, newest character first. -/
inductive WordMode
  | between
  | bare (word : List Char)
  /-- After a backslash outside quotes. -/
  | escaped (word : List Char)
  /-- In single quotes opened at a position. -/
  | single (opened : Nat) (word : List Char)
  /-- In double quotes opened at a position. -/
  | double (opened : Nat) (word : List Char)
  /-- After a backslash in double quotes opened at a position. -/
  | doubleEscaped (opened : Nat) (word : List Char)
deriving DecidableEq, Repr

/-- The reader's state: how much it has read, the words completed, and where it stands. -/
structure WordReader where
  position : Nat
  words : List (List Char)
  mode : WordMode
deriving DecidableEq, Repr

namespace WordReader

def start : WordReader :=
  ⟨0, [], .between⟩

/-- The mode after a character that belongs to a word, outside quotes. -/
def opening (position : Nat) (word : List Char) (c : Char) : WordMode :=
  if c = '\x27' then .single position word
  else if c = '\x22' then .double position word
  else if c = '\\' then .escaped word
  else .bare (c :: word)

def step (reader : WordReader) (c : Char) : WordReader :=
  let next (words : List (List Char)) (mode : WordMode) : WordReader :=
    ⟨reader.position + 1, words, mode⟩
  match reader.mode with
  | .between =>
      if isBlank c then next reader.words .between
      else next reader.words (opening reader.position [] c)
  | .bare word =>
      if isBlank c then next (word.reverse :: reader.words) .between
      else next reader.words (opening reader.position word c)
  | .escaped word => next reader.words (.bare (c :: word))
  | .single opened word =>
      if c = '\x27' then next reader.words (.bare word)
      else next reader.words (.single opened (c :: word))
  | .double opened word =>
      if c = '\x22' then next reader.words (.bare word)
      else if c = '\\' then next reader.words (.doubleEscaped opened word)
      else next reader.words (.double opened (c :: word))
  | .doubleEscaped opened word =>
      if c = '\x22' ∨ c = '\\' then next reader.words (.double opened (c :: word))
      else next reader.words (.double opened (c :: '\\' :: word))

def run (reader : WordReader) (text : List Char) : WordReader :=
  text.foldl step reader

/-- The words, once the line has ended. -/
def finish (reader : WordReader) : Except WordFault (List (List Char)) :=
  match reader.mode with
  | .between => .ok reader.words.reverse
  | .bare word => .ok (word.reverse :: reader.words).reverse
  | .escaped _ => .error .danglingEscape
  | .single opened _ | .double opened _ | .doubleEscaped opened _ => .error (.unclosedQuote opened)

@[simp]
theorem run_append (reader : WordReader) (left right : List Char) :
    reader.run (left ++ right) = (reader.run left).run right :=
  List.foldl_append

@[simp]
theorem position_step (reader : WordReader) (c : Char) :
    (reader.step c).position = reader.position + 1 := by
  unfold step
  split <;> (repeat' split) <;> rfl

end WordReader

def words (text : List Char) : Except WordFault (List (List Char)) :=
  (WordReader.start.run text).finish

end Tabula.Text
