import Tabula.Proofs.Text.Words

/-!
# Spelled words

A word is spelled by pieces: plain characters, escaped characters, and quotations in single or in
double quotes. A line spells words when white space stands between them, and perhaps around them.
The words of such a line are what the pieces denote, so every list of words can be spelled.
-/

namespace Tabula.Text

/-- What stands between double quotes, with what it denotes: no double quote in it is unescaped, and
no backslash at its end is unpaired. -/
inductive Encloses : List Char → List Char → Prop
  | nil : Encloses [] []
  | plain {c : Char} {raw text : List Char} (quote : c ≠ '\x22') (backslash : c ≠ '\\')
      (rest : Encloses raw text) : Encloses (c :: raw) (c :: text)
  | escaped {c : Char} {raw text : List Char} (special : c = '\x22' ∨ c = '\\')
      (rest : Encloses raw text) : Encloses ('\\' :: c :: raw) (c :: text)
  /-- Before any other character a backslash denotes itself. -/
  | backslash {c : Char} {raw text : List Char} (ordinary : ¬(c = '\x22' ∨ c = '\\'))
      (rest : Encloses raw text) : Encloses ('\\' :: c :: raw) ('\\' :: c :: text)

inductive Piece
  | plain (c : Char) (dark : isBlank c = false) (single : c ≠ '\x27') (double : c ≠ '\x22')
      (backslash : c ≠ '\\')
  | escaped (c : Char)
  | single (text : List Char) (unquoted : '\x27' ∉ text)
  | double (raw text : List Char) (encloses : Encloses raw text)

namespace Piece

def spelling : Piece → List Char
  | plain c _ _ _ _ => [c]
  | escaped c => ['\\', c]
  | single text _ => '\x27' :: (text ++ ['\x27'])
  | double raw _ _ => '\x22' :: (raw ++ ['\x22'])

def meaning : Piece → List Char
  | plain c _ _ _ _ => [c]
  | escaped c => [c]
  | single text _ => text
  | double _ text _ => text

end Piece

/-- A word spelled by pieces, with the white space before it. -/
structure SpelledWord where
  gap : List Char
  pieces : List Piece
  blank : ∀ c ∈ gap, isBlank c = true
  nonempty : pieces ≠ []

namespace SpelledWord

def spelling (word : SpelledWord) : List Char :=
  word.gap ++ word.pieces.flatMap Piece.spelling

def meaning (word : SpelledWord) : List Char :=
  word.pieces.flatMap Piece.meaning

end SpelledWord

/-- Spelled words with white space between them, and the white space after the last. -/
structure SpelledLine where
  words : List SpelledWord
  gap : List Char
  apart : ∀ word ∈ words.tail, word.gap ≠ []
  blank : ∀ c ∈ gap, isBlank c = true

namespace SpelledLine

def spelling (line : SpelledLine) : List Char :=
  line.words.flatMap SpelledWord.spelling ++ line.gap

def meaning (line : SpelledLine) : List (List Char) :=
  line.words.map SpelledWord.meaning

end SpelledLine

/-- The word with a backslash before each double quote and backslash. -/
def escape (word : List Char) : List Char :=
  word.flatMap fun c => if c = '\x22' ∨ c = '\\' then ['\\', c] else [c]

/-- The word in double quotes. -/
def quoted (word : List Char) : List Char :=
  '\x22' :: (escape word ++ ['\x22'])

/-! ## Reading pieces -/

/-- Outside quotes, with what there is of a word. -/
inductive WordMode.Outside : WordMode → List Char → Prop
  | between : Outside .between []
  | bare (word : List Char) : Outside (.bare word) word

namespace WordReader

variable {reader : WordReader} {word raw text : List Char} {c : Char}

theorem step_of_outside (outside : reader.mode.Outside word) (dark : isBlank c = false) :
    reader.step c = ⟨reader.position + 1, reader.words, opening reader.position word c⟩ := by
  obtain ⟨position, words, mode⟩ := reader
  cases outside <;> simp [step, dark]

theorem run_single (position opened : Nat) (words : List (List Char)) (word : List Char)
    (unquoted : '\x27' ∉ text) :
    run ⟨position, words, .single opened word⟩ text =
      ⟨position + text.length, words, .single opened (text.reverse ++ word)⟩ := by
  induction text generalizing position word with
  | nil => rfl
  | cons c rest ih =>
      simp only [List.mem_cons, not_or] at unquoted
      have stepped : step ⟨position, words, .single opened word⟩ c =
          ⟨position + 1, words, .single opened (c :: word)⟩ := by
        simp [step, Ne.symm unquoted.1]
      rw [run_cons, stepped, ih _ _ unquoted.2]
      simp
      omega

theorem run_double (position opened : Nat) (words : List (List Char)) (word : List Char)
    (encloses : Encloses raw text) :
    run ⟨position, words, .double opened word⟩ raw =
      ⟨position + raw.length, words, .double opened (text.reverse ++ word)⟩ := by
  have paired : ∀ position word, step ⟨position, words, .double opened word⟩ '\\' =
      ⟨position + 1, words, .doubleEscaped opened word⟩ := fun _ _ => rfl
  induction encloses generalizing position word with
  | nil => rfl
  | @plain c raw text quote backslash _ ih =>
      have stepped : step ⟨position, words, .double opened word⟩ c =
          ⟨position + 1, words, .double opened (c :: word)⟩ := by
        simp [step, quote, backslash]
      rw [run_cons, stepped, ih]
      simp
      omega
  | @escaped c raw text special _ ih =>
      have stepped : step ⟨position + 1, words, .doubleEscaped opened word⟩ c =
          ⟨position + 2, words, .double opened (c :: word)⟩ := by
        simp [step, special]
      rw [run_cons, paired, run_cons, stepped, ih]
      simp
      omega
  | @backslash c raw text ordinary _ ih =>
      have stepped : step ⟨position + 1, words, .doubleEscaped opened word⟩ c =
          ⟨position + 2, words, .double opened (c :: '\\' :: word)⟩ := by
        simp [step, ordinary]
      rw [run_cons, paired, run_cons, stepped, ih]
      simp
      omega

theorem run_openSingle (outside : reader.mode.Outside word) (unquoted : '\x27' ∉ text) :
    reader.run ('\x27' :: text) =
      ⟨reader.position + 1 + text.length, reader.words,
        .single reader.position (text.reverse ++ word)⟩ := by
  have opens : opening reader.position word '\x27' = .single reader.position word := rfl
  rw [run_cons, step_of_outside outside (by decide), opens, run_single _ _ _ _ unquoted]

theorem run_openDouble (outside : reader.mode.Outside word) (encloses : Encloses raw text) :
    reader.run ('\x22' :: raw) =
      ⟨reader.position + 1 + raw.length, reader.words,
        .double reader.position (text.reverse ++ word)⟩ := by
  have opens : opening reader.position word '\x22' = .double reader.position word := rfl
  rw [run_cons, step_of_outside outside (by decide), opens, run_double _ _ _ _ encloses]

/-- A piece adds to a word what it denotes. -/
theorem run_piece (outside : reader.mode.Outside word) (piece : Piece) :
    reader.run piece.spelling =
      ⟨reader.position + piece.spelling.length, reader.words,
        .bare (piece.meaning.reverse ++ word)⟩ := by
  cases piece with
  | plain c dark single double backslash =>
      have opens : opening reader.position word c = .bare (c :: word) := by
        simp [opening, single, double, backslash]
      rw [Piece.spelling, run_cons, step_of_outside outside dark, opens]
      rfl
  | escaped c =>
      rw [Piece.spelling, run_cons, step_of_outside outside (by decide)]
      rfl
  | single text unquoted =>
      rw [Piece.spelling, ← List.cons_append, run_append, run_openSingle outside unquoted]
      simp [run, step, Piece.meaning]
      omega
  | double raw text encloses =>
      rw [Piece.spelling, ← List.cons_append, run_append, run_openDouble outside encloses]
      simp [run, step, Piece.meaning]
      omega

theorem run_pieces (outside : reader.mode.Outside word) {pieces : List Piece}
    (nonempty : pieces ≠ []) :
    reader.run (pieces.flatMap Piece.spelling) =
      ⟨reader.position + (pieces.flatMap Piece.spelling).length, reader.words,
        .bare ((pieces.flatMap Piece.meaning).reverse ++ word)⟩ := by
  induction pieces generalizing reader word with
  | nil => exact absurd rfl nonempty
  | cons piece rest ih =>
      rw [List.flatMap_cons, List.flatMap_cons, run_append, run_piece outside piece]
      by_cases last : rest = []
      · simp [last, run_nil]
      · rw [ih (.bare _) last]
        simp
        omega

end WordReader

/-! ## Reading lines -/

theorem words_pieces {pieces : List Piece} (nonempty : pieces ≠ []) :
    words (pieces.flatMap Piece.spelling) = .ok [pieces.flatMap Piece.meaning] := by
  rw [words, WordReader.run_pieces .between nonempty, WordReader.finish]
  simp [WordReader.start]

/-- White space at the start of a line is passed over. -/
theorem words_gap_append {gap text : List Char} {found : List (List Char)}
    (blank : ∀ c ∈ gap, isBlank c = true) (read : words text = .ok found) :
    words (gap ++ text) = .ok found := by
  rw [words_gap_append_eq blank, read]

theorem words_append_gap {text gap rest : List Char} {found more : List (List Char)}
    (nonempty : gap ≠ []) (blank : ∀ c ∈ gap, isBlank c = true) (read : words text = .ok found)
    (readMore : words rest = .ok more) : words (text ++ (gap ++ rest)) = .ok (found ++ more) := by
  cases gap with
  | nil => exact absurd rfl nonempty
  | cons c gap =>
      rw [List.forall_mem_cons] at blank
      exact words_append_blank_eq_ok blank.1 read (words_gap_append blank.2 readMore)

theorem words_spelling_append {pieces : List Piece} {others : List SpelledWord} {gap : List Char}
    (nonempty : pieces ≠ []) (apart : ∀ word ∈ others, word.gap ≠ [])
    (blank : ∀ c ∈ gap, isBlank c = true) :
    words (pieces.flatMap Piece.spelling ++ (others.flatMap SpelledWord.spelling ++ gap)) =
      .ok (pieces.flatMap Piece.meaning :: others.map SpelledWord.meaning) := by
  induction others generalizing pieces with
  | nil =>
      have read := words_pieces nonempty
      by_cases none : gap = []
      · simpa [none] using read
      · simpa using words_append_gap none blank read words_nil
  | cons word others ih =>
      rw [List.forall_mem_cons] at apart
      have read := words_append_gap apart.1 word.blank (words_pieces nonempty)
        (ih word.nonempty apart.2)
      simpa [SpelledWord.spelling, SpelledWord.meaning] using read

theorem words_spelling (line : SpelledLine) : words line.spelling = .ok line.meaning := by
  obtain ⟨spelled, gap, apart, blank⟩ := line
  cases spelled with
  | nil =>
      have read := words_gap_append blank words_nil
      simpa [SpelledLine.spelling, SpelledLine.meaning] using read
  | cons word others =>
      have read := words_gap_append word.blank (words_spelling_append word.nonempty apart blank)
      simpa [SpelledLine.spelling, SpelledLine.meaning, SpelledWord.spelling,
        SpelledWord.meaning] using read

/-! ## Quoting words -/

theorem encloses_escape (word : List Char) : Encloses (escape word) word := by
  induction word with
  | nil => exact .nil
  | cons c rest ih =>
      rw [escape] at ih ⊢
      rw [List.flatMap_cons]
      split
      · rename_i special
        exact .escaped special ih
      · rename_i ordinary
        rcases not_or.mp ordinary with ⟨quote, backslash⟩
        exact .plain quote backslash ih

/-- Each word in double quotes, after a space. -/
def SpelledLine.quoting (found : List (List Char)) : SpelledLine where
  words := found.map fun word =>
    { gap := [' ']
      pieces := [.double (escape word) word (encloses_escape word)]
      blank := List.forall_mem_singleton.mpr (by decide)
      nonempty := List.cons_ne_nil _ _ }
  gap := []
  apart := by
    intro word word_mem
    rcases List.mem_map.mp (List.mem_of_mem_tail word_mem) with ⟨found, -, rfl⟩
    exact List.cons_ne_nil _ _
  blank := nofun

theorem words_quoted (found : List (List Char)) :
    words (found.flatMap fun word => ' ' :: quoted word) = .ok found := by
  have spelled : (SpelledLine.quoting found).spelling =
      found.flatMap fun word => ' ' :: quoted word := by
    simp [SpelledLine.spelling, SpelledLine.quoting, List.flatMap_map, SpelledWord.spelling,
      Piece.spelling, quoted]
  have denoted : (SpelledLine.quoting found).meaning = found := by
    simp [SpelledLine.meaning, SpelledLine.quoting, Function.comp_def, SpelledWord.meaning,
      Piece.meaning]
  rw [← spelled, words_spelling, denoted]

/-- Every line of spelled words is read as the words, and every list of words is read from the line
in which each is quoted. -/
theorem words_spelled :
    (∀ line : SpelledLine, words line.spelling = .ok line.meaning) ∧
      ∀ found : List (List Char),
        words (found.flatMap fun word => ' ' :: quoted word) = .ok found :=
  ⟨words_spelling, words_quoted⟩

end Tabula.Text
