import Tabula.Proofs.Json.Numeral
import Tabula.Proofs.Json.Quotation

/-!
# Spelled tokens

The lexer reads a text word by word: a word and the rest of a text are read as the token of the word
and the tokens of the rest. A text spells tokens when it writes each of them in the form in which
values are written, with white space anywhere between them, so the lexer reads back the tokens that
a text spells. Both layouts are texts of this kind, and nothing about layouts is needed to read
them.
-/

namespace Tabula.Json

/-- The tokens of one character, with their characters. -/
def marks : List (Token × Char) :=
  [(.openBrace, '\x7b'), (.closeBrace, '\x7d'), (.openBracket, '['), (.closeBracket, ']'),
    (.colon, ':'), (.comma, ',')]

/-- A text writes tokens, with white space anywhere between them. -/
inductive Spells : List Token → List Char → Prop
  | nil : Spells [] []
  | space {tokens : List Token} {c : Char} {text : List Char}
      (blank : c ∈ [' ', '\t', '\n', '\r']) (rest : Spells tokens text) : Spells tokens (c :: text)
  | mark {tokens : List Token} {token : Token} {c : Char} {text : List Char}
      (marked : (token, c) ∈ marks) (rest : Spells tokens text) :
      Spells (token :: tokens) (c :: text)
  | null {tokens : List Token} {text : List Char} (rest : Spells tokens text) :
      Spells (.null :: tokens) ("null".toList ++ text)
  | truth {tokens : List Token} {truth : Bool} {text : List Char} (rest : Spells tokens text) :
      Spells (.bool truth :: tokens) (writeTruth truth ++ text)
  | number {tokens : List Token} {value : Int64} {text : List Char} (ends : EndsNumber text)
      (rest : Spells tokens text) :
      Spells (.number (some value) :: tokens) (Text.decimal value ++ text)
  | string {tokens : List Token} {content : String} {text : List Char}
      (rest : Spells tokens text) :
      Spells (.string (some content) :: tokens) (writeString content ++ text)

/-! ## Words -/

/-- From between two words on, the lexer reads a text as tokens. -/
def Lexed (text : List Char) (tokens : List Token) : Prop :=
  ∀ read, (Lexer.run ⟨read, .between⟩ text).finish = read.reverse ++ tokens

theorem lexed_nil : Lexed [] [] := by
  intro read
  rw [List.append_nil]
  rfl

section

variable {text : List Char} {tokens : List Token}

theorem lex_of_lexed (lexed : Lexed text tokens) : lex text = tokens :=
  lexed []

theorem Lexed.word (lexed : Lexed text tokens) {word : List Char} {token : Token}
    (run : ∀ read, Lexer.run ⟨read, .between⟩ word = ⟨token :: read, .between⟩) :
    Lexed (word ++ text) (token :: tokens) := by
  intro read
  rw [Lexer.run_append, run, lexed, List.reverse_cons, List.append_assoc, List.singleton_append]

theorem Lexed.blank (lexed : Lexed text tokens) {c : Char} (blank : c ∈ [' ', '\t', '\n', '\r']) :
    Lexed (c :: text) tokens := by
  intro read
  have stepped : Lexer.step ⟨read, .between⟩ c = ⟨read, .between⟩ := by
    simp only [List.mem_cons, List.not_mem_nil, or_false] at blank
    exact if_pos blank
  rw [Lexer.run, List.foldl_cons, stepped, ← Lexer.run, lexed]

theorem Lexed.mark (lexed : Lexed text tokens) {token : Token} {c : Char}
    (marked : (token, c) ∈ marks) : Lexed (c :: text) (token :: tokens) := by
  have run : ∀ read, Lexer.run ⟨read, .between⟩ [c] = ⟨token :: read, .between⟩ := by
    intro read
    simp only [marks, List.mem_cons, Prod.mk.injEq, List.not_mem_nil, or_false] at marked
    rcases marked with ⟨rfl, rfl⟩ | ⟨rfl, rfl⟩ | ⟨rfl, rfl⟩ | ⟨rfl, rfl⟩ | ⟨rfl, rfl⟩ | ⟨rfl, rfl⟩
    all_goals rfl
  exact lexed.word run

theorem Lexed.null (lexed : Lexed text tokens) : Lexed ("null".toList ++ text) (.null :: tokens) :=
  lexed.word fun _ => rfl

theorem Lexed.truth (lexed : Lexed text tokens) (truth : Bool) :
    Lexed (writeTruth truth ++ text) (.bool truth :: tokens) := by
  refine lexed.word fun _ => ?_
  cases truth <;> rfl

theorem Lexed.quoted (lexed : Lexed text tokens) {units : List StringUnit} {body : List Char}
    (quoted : Quoted units body) :
    Lexed (quote body ++ text) (.string ((decodeUnits units).map String.ofList) :: tokens) :=
  lexed.word quoted.run_quote

theorem Lexed.spelled (lexed : Lexed text tokens) {content : String} {body : List Char}
    (spelled : Spelled content.toList body) :
    Lexed (quote body ++ text) (.string (some content) :: tokens) := by
  refine lexed.word fun read => ?_
  rw [run_quote_of_spelled spelled, String.ofList_toList]

/-- A number is read where it ends. -/
theorem Lexed.number (lexed : Lexed text tokens) (ends : EndsNumber text) {place : NumberPart}
    {word : List Char} (complete : place.isComplete = true)
    (run : ∀ read, Lexer.run ⟨read, .between⟩ word = ⟨read, .number place word.reverse⟩) :
    Lexed (word ++ text) (Lexer.numberToken place word.reverse :: tokens) := by
  intro read
  rw [Lexer.run_append, run, finish_run_number read _ complete ends, lexed, List.reverse_cons,
    List.append_assoc, List.singleton_append]

theorem Lexed.decimal (lexed : Lexed text tokens) (ends : EndsNumber text) (value : Int64) :
    Lexed (Text.decimal value ++ text) (.number (some value) :: tokens) := by
  rcases exists_run_decimal value with ⟨place, integer, run⟩
  have valued : Lexer.numberToken place (Text.decimal value).reverse = .number (some value) := by
    rw [Lexer.numberToken, if_pos integer, List.reverse_reverse, integerValue?_decimal]
  rw [← valued]
  exact lexed.number ends (isComplete_of_isInteger integer) run

end

/-! ## Whole texts -/

theorem lexed_of_spells {tokens : List Token} {text : List Char} (spells : Spells tokens text) :
    Lexed text tokens := by
  induction spells with
  | nil => exact lexed_nil
  | space blank _ ih => exact ih.blank blank
  | mark marked _ ih => exact ih.mark marked
  | null _ ih => exact ih.null
  | @truth _ truth _ _ ih => exact ih.truth truth
  | @number _ value _ ends _ ih => exact ih.decimal ends value
  | @string _ content _ _ ih => exact ih.spelled (spelled_escaped content.toList)

/-- The lexer reads the tokens that a text spells. -/
theorem lex_of_spells {tokens : List Token} {text : List Char} (spells : Spells tokens text) :
    lex text = tokens :=
  lex_of_lexed (lexed_of_spells spells)

end Tabula.Json
