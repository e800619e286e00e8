import Tabula.Json.Lexer
import Tabula.Proofs.Text.Decimal

/-!
# Written numbers

A number is written as a whole part, with a sign or not, and then perhaps a fraction and an
exponent. The lexer reads every number as one word, and it reads a number without fraction and
exponent as an integer. A number is the one word that does not show its own end: what follows it
must not continue it.
-/

namespace Tabula.Json

def Digits (text : List Char) : Prop :=
  text ≠ [] ∧ ∀ c ∈ text, c.isDigit = true

/-- A whole number with no needless zero in front. -/
inductive Whole : List Char → Prop
  | zero : Whole ['0']
  | digits {c : Char} {rest : List Char} (nonzero : c ≠ '0') (digits : Digits (c :: rest)) :
      Whole (c :: rest)

inductive Fraction : List Char → Prop
  | none : Fraction []
  | digits {text : List Char} (digits : Digits text) : Fraction ('.' :: text)

inductive Exponent : List Char → Prop
  | none : Exponent []
  | digits {mark : Char} {sign text : List Char} (marked : mark ∈ ['e', 'E'])
      (signed : sign ∈ [[], ['+'], ['-']]) (digits : Digits text) :
      Exponent (mark :: (sign ++ text))

/-- A number as it is written. -/
inductive Numeral : List Char → Prop
  | intro {sign left middle right : List Char} (signed : sign ∈ [[], ['-']]) (whole : Whole left)
      (fraction : Fraction middle) (exponent : Exponent right) :
      Numeral (sign ++ (left ++ (middle ++ right)))

/-- A text before which a number ends. -/
def EndsNumber (text : List Char) : Prop :=
  ∀ c ∈ text.head?, c.isDigit = false ∧ c ≠ '.' ∧ c ≠ 'e' ∧ c ≠ 'E'

theorem endsNumber_nil : EndsNumber [] := by
  rintro _ ⟨⟩

/-! ## Walks

How far the characters of a text take the lexer in a number.
-/

/-- The characters of a text take a number from one place to another. -/
inductive Walk : NumberPart → List Char → NumberPart → Prop
  | nil {place : NumberPart} : Walk place [] place
  | cons {place next last : NumberPart} {c : Char} {rest : List Char}
      (step : place.next? c = some next) (walk : Walk next rest last) : Walk place (c :: rest) last

section

variable {place middle last : NumberPart} {left right text : List Char}

theorem Walk.append (walk : Walk place left middle) (more : Walk middle right last) :
    Walk place (left ++ right) last := by
  induction walk with
  | nil => exact more
  | cons step _ ih => exact .cons step (ih more)

theorem Walk.run (walk : Walk place text last) (tokens : List Token) (read : List Char) :
    Lexer.run ⟨tokens, .number place read⟩ text =
      ⟨tokens, .number last (text.reverse ++ read)⟩ := by
  induction walk generalizing read with
  | nil => rfl
  | @cons place next last c rest step _ ih =>
      have stepped : Lexer.step ⟨tokens, .number place read⟩ c =
          ⟨tokens, .number next (c :: read)⟩ := by
        simp only [Lexer.step, step]
      rw [Lexer.run, List.foldl_cons, stepped, ← Lexer.run, ih, List.reverse_cons,
        List.append_assoc, List.singleton_append]

end

/-- The places between which a digit takes a number, apart from its first digit. -/
def digitSteps : List (NumberPart × NumberPart) :=
  [(.integer, .integer), (.point, .fraction), (.fraction, .fraction),
    (.exponent, .exponentDigits), (.exponentSign, .exponentDigits),
    (.exponentDigits, .exponentDigits)]

theorem ne_of_isDigit {c mark : Char} (digit : c.isDigit = true) (other : mark.isDigit = false) :
    c ≠ mark := by
  rintro rfl
  rw [digit] at other
  cases other

section

variable {place last : NumberPart} {text : List Char}

theorem next?_of_digit {c : Char} (digit : c.isDigit = true)
    (moves : (place, last) ∈ digitSteps) : place.next? c = some last := by
  have unsigned : ¬(c = '+' ∨ c = '-') := by
    rintro (same | same) <;> exact ne_of_isDigit digit rfl same
  simp only [digitSteps, List.mem_cons, Prod.mk.injEq, List.not_mem_nil, or_false] at moves
  rcases moves with ⟨rfl, rfl⟩ | ⟨rfl, rfl⟩ | ⟨rfl, rfl⟩ | ⟨rfl, rfl⟩ | ⟨rfl, rfl⟩ | ⟨rfl, rfl⟩
  case inr.inr.inr.inl => rw [NumberPart.next?, if_neg unsigned, if_pos digit]
  all_goals exact if_pos digit

/-- Digits leave a number where it is once it is at a place for digits. -/
theorem walk_digits (stays : (place, place) ∈ digitSteps) (digits : ∀ c ∈ text, c.isDigit = true) :
    Walk place text place := by
  induction text with
  | nil => exact .nil
  | cons c rest ih =>
      rw [List.forall_mem_cons] at digits
      exact .cons (next?_of_digit digits.1 stays) (ih digits.2)

theorem walk_of_digits (digits : Digits text) (moves : (place, last) ∈ digitSteps)
    (stays : (last, last) ∈ digitSteps) : Walk place text last := by
  cases text with
  | nil => exact absurd rfl digits.1
  | cons c rest =>
      have all := List.forall_mem_cons.mp digits.2
      exact .cons (next?_of_digit all.1 moves) (walk_digits stays all.2)

end

/-! ## Parts of numbers -/

section

variable {place : NumberPart} {text : List Char}

theorem Fraction.exists_walk (fraction : Fraction text) (whole : place.isInteger = true) :
    ∃ last, last ∈ [NumberPart.zero, .integer, .fraction] ∧ Walk place text last := by
  cases fraction with
  | none =>
      refine ⟨place, ?_, .nil⟩
      cases place <;> first | decide | cases whole
  | digits digits =>
      have pointed : place.next? '.' = some .point := by
        cases place <;> first | rfl | cases whole
      have walk : Walk .point _ .fraction := walk_of_digits digits (by decide) (by decide)
      exact ⟨.fraction, by decide, .cons pointed walk⟩

theorem Exponent.exists_walk (exponent : Exponent text)
    (before : place ∈ [NumberPart.zero, .integer, .fraction]) :
    ∃ last, last.isComplete = true ∧ Walk place text last := by
  cases exponent with
  | none =>
      refine ⟨place, ?_, .nil⟩
      revert place
      decide
  | @digits mark sign text marked signed digits =>
      have begun : place.next? mark = some .exponent := by
        simp only [List.mem_cons, List.not_mem_nil, or_false] at before marked
        rcases before with rfl | rfl | rfl <;> rcases marked with rfl | rfl <;> rfl
      have signedWalk : Walk .exponentSign text .exponentDigits :=
        walk_of_digits digits (by decide) (by decide)
      refine ⟨.exponentDigits, rfl, .cons begun ?_⟩
      simp only [List.mem_cons, List.not_mem_nil, or_false] at signed
      rcases signed with rfl | rfl | rfl
      · exact walk_of_digits digits (by decide) (by decide)
      · exact .cons rfl signedWalk
      · exact .cons rfl signedWalk

end

/-! ## Reading -/

section

variable {text : List Char}

theorem begin_digit (tokens : List Token) {c : Char} (digit : c.isDigit = true)
    (nonzero : c ≠ '0') : Lexer.begin tokens c = ⟨tokens, .number .integer [c]⟩ := by
  have visible : ¬(c = ' ' ∨ c = '\t' ∨ c = '\n' ∨ c = '\r') := by
    rintro (blank | blank | blank | blank) <;> exact ne_of_isDigit digit rfl blank
  have other {mark : Char} (plain : mark.isDigit = false) : c ≠ mark := ne_of_isDigit digit plain
  rw [Lexer.begin, if_neg visible, if_neg (other rfl), if_neg (other rfl), if_neg (other rfl),
    if_neg (other rfl), if_neg (other rfl), if_neg (other rfl), if_neg (other rfl),
    if_neg (other rfl), if_neg (other rfl), if_neg (other rfl), if_neg (other rfl),
    if_neg nonzero, if_pos digit]

/-- A whole number is read as an integer, with a sign or without. -/
theorem Whole.exists_run (whole : Whole text) {sign : List Char} (signed : sign ∈ [[], ['-']]) :
    ∃ place : NumberPart, place.isInteger = true ∧ ∀ tokens,
      Lexer.run ⟨tokens, .between⟩ (sign ++ text) =
        ⟨tokens, .number place (sign ++ text).reverse⟩ := by
  simp only [List.mem_cons, List.not_mem_nil, or_false] at signed
  cases whole with
  | zero =>
      refine ⟨.zero, rfl, fun tokens => ?_⟩
      rcases signed with rfl | rfl <;> rfl
  | @digits c rest nonzero digits =>
      have all := List.forall_mem_cons.mp digits.2
      have walk : Walk .integer rest .integer := walk_digits (by decide) all.2
      refine ⟨.integer, rfl, fun tokens => ?_⟩
      rcases signed with rfl | rfl
      · have begun : Lexer.step ⟨tokens, .between⟩ c = ⟨tokens, .number .integer [c]⟩ :=
          begin_digit tokens all.1 nonzero
        rw [List.nil_append, Lexer.run, List.foldl_cons, begun, ← Lexer.run, walk.run,
          List.reverse_cons]
      · have begun : NumberPart.minus.next? c = some .integer := by
          rw [NumberPart.next?, if_neg nonzero, if_pos all.1]
        have minus : Lexer.step ⟨tokens, .between⟩ '-' = ⟨tokens, .number .minus ['-']⟩ := rfl
        rw [List.singleton_append, Lexer.run, List.foldl_cons, minus, ← Lexer.run,
          (Walk.cons begun walk).run]
        simp

/-- A number is read as one word that may end. -/
theorem Numeral.exists_run (numeral : Numeral text) :
    ∃ place : NumberPart, place.isComplete = true ∧ ∀ tokens,
      Lexer.run ⟨tokens, .between⟩ text = ⟨tokens, .number place text.reverse⟩ := by
  cases numeral with
  | @intro sign left middle right signed whole fraction exponent =>
      rcases whole.exists_run signed with ⟨place, integer, begun⟩
      rcases fraction.exists_walk integer with ⟨between, before, walk⟩
      rcases exponent.exists_walk before with ⟨last, complete, more⟩
      refine ⟨last, complete, fun tokens => ?_⟩
      rw [← List.append_assoc, Lexer.run_append, begun, (walk.append more).run,
        ← List.reverse_append]

theorem isComplete_of_isInteger {place : NumberPart} (integer : place.isInteger = true) :
    place.isComplete = true := by
  cases place <;> first | rfl | cases integer

/-- A complete number is a word as soon as what follows does not continue it. -/
theorem finish_run_number (tokens : List Token) {place : NumberPart} (digits : List Char)
    (complete : place.isComplete = true) (ends : EndsNumber text) :
    (Lexer.run ⟨tokens, .number place digits⟩ text).finish =
      (Lexer.run ⟨Lexer.numberToken place digits :: tokens, .between⟩ text).finish := by
  cases text with
  | nil => simp [Lexer.run, Lexer.finish, complete]
  | cons c rest =>
      rcases ends c rfl with ⟨not_digit, not_point, not_small, not_large⟩
      have stops : place.next? c = none := by
        cases place with
        | zero => simp [NumberPart.next?, not_point, not_small, not_large]
        | integer => simp [NumberPart.next?, not_digit, not_point, not_small, not_large]
        | fraction => simp [NumberPart.next?, not_digit, not_small, not_large]
        | exponentDigits => simp [NumberPart.next?, not_digit]
        | minus | point | exponent | exponentSign => cases complete
      have begun : Lexer.step ⟨tokens, .number place digits⟩ c =
          Lexer.step ⟨Lexer.numberToken place digits :: tokens, .between⟩ c := by
        simp [Lexer.step, stops, complete]
      rw [Lexer.run, List.foldl_cons, begun, ← List.foldl_cons, ← Lexer.run]

end

/-! ## Writing -/

theorem integerValue?_decimal (value : Int64) :
    integerValue? (Text.decimal value) = some value := by
  have notMinusZero : Text.decimal value ≠ ['-', '0'] := by
    intro minusZero
    have read := Text.integer?_decimal value
    rw [minusZero] at read
    have zero : value.toInt = 0 := by
      have readZero : Text.integer? ['-', '0'] = some 0 := by decide
      exact Option.some.inj (read.symm.trans readZero)
    rw [Text.decimal, zero] at minusZero
    exact absurd minusZero (by decide)
  rw [integerValue?, if_neg notMinusZero, Text.integer?_decimal, Option.bind_some,
    Text.int64?_toInt]

/-- An integer is written as a whole number after its sign. -/
theorem exists_decimal_eq (value : Int64) :
    ∃ sign ∈ [[], ['-']], ∃ text, Whole text ∧ Text.decimal value = sign ++ text := by
  have whole : Whole (Nat.toDigits 10 value.toInt.natAbs) := by
    by_cases zero : value.toInt.natAbs = 0
    · rw [zero]
      exact .zero
    · have digits := fun c => @Text.isDigit_of_mem_toDigits value.toInt.natAbs c
      have nonempty : Nat.toDigits 10 value.toInt.natAbs ≠ [] := Nat.toDigits_ne_nil
      have nonzero := Text.head?_toDigits_ne_zero (Nat.pos_of_ne_zero zero)
      generalize Nat.toDigits 10 value.toInt.natAbs = text at nonempty nonzero digits
      cases text with
      | nil => exact absurd rfl nonempty
      | cons c rest => exact .digits (fun same => nonzero (congrArg some same)) ⟨nonempty, digits⟩
  rw [Text.decimal]
  split
  · exact ⟨['-'], by decide, _, whole, rfl⟩
  · exact ⟨[], by decide, _, whole, rfl⟩

/-- The place at which a written integer leaves the lexer. -/
theorem exists_run_decimal (value : Int64) :
    ∃ place : NumberPart, place.isInteger = true ∧ ∀ tokens,
      Lexer.run ⟨tokens, .between⟩ (Text.decimal value) =
        ⟨tokens, .number place (Text.decimal value).reverse⟩ := by
  rcases exists_decimal_eq value with ⟨sign, signed, text, whole, written⟩
  rw [written]
  exact whole.exists_run signed

end Tabula.Json
