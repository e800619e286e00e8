import Mathlib.Data.List.Induction
import Tabula.Proofs.Text.Words.Spelling

/-!
# Where a line ends

Read from the left, a text is made of white space and pieces up to the place where a quotation is
opened that is never closed, or where a backslash has nothing after it. It has words if there is no
such place, and otherwise the fault is that quotation, by the place of its quote, or that backslash.
The reader's mode says at every character in which of these ways the text before it would end.
-/

namespace Tabula.Text

/-- White space outside quotes, or a piece of a word. -/
inductive Segment
  | blank (c : Char) (blank : isBlank c = true)
  | piece (part : Piece)

def Segment.spelling : Segment → List Char
  | .blank c _ => [c]
  | .piece part => part.spelling

/-- The text ends outside quotes, and not directly after a backslash that escapes. -/
def Complete (text : List Char) : Prop :=
  ∃ segments : List Segment, text = segments.flatMap Segment.spelling

/-- What can follow a quote without closing it. -/
inductive Unclosed : Char → List Char → Prop
  | single {inside : List Char} (unquoted : '\x27' ∉ inside) : Unclosed '\x27' inside
  | double {raw inside : List Char} (encloses : Encloses raw inside) : Unclosed '\x22' raw
  | doubleEscaped {raw inside : List Char} (encloses : Encloses raw inside) :
      Unclosed '\x22' (raw ++ ['\\'])

/-- The text ends inside the quotation that the quote at a position opens. -/
def EndsInQuotation (text : List Char) (opened : Nat) : Prop :=
  ∃ left quote inside, text = left ++ quote :: inside ∧ opened = left.length ∧ Complete left ∧
    Unclosed quote inside

/-- The text ends directly after a backslash outside quotes that is not escaped itself. -/
def EndsInEscape (text : List Char) : Prop :=
  ∃ left, text = left ++ ['\\'] ∧ Complete left

theorem complete_nil : Complete [] :=
  ⟨[], rfl⟩

theorem Complete.append {text : List Char} (complete : Complete text) (segment : Segment) :
    Complete (text ++ segment.spelling) := by
  rcases complete with ⟨segments, rfl⟩
  exact ⟨segments ++ [segment], by simp⟩

theorem Encloses.append {left right raw text : List Char} (first : Encloses left raw)
    (second : Encloses right text) : Encloses (left ++ right) (raw ++ text) := by
  induction first with
  | nil => exact second
  | plain quote backslash _ ih => exact .plain quote backslash ih
  | escaped special _ ih => exact .escaped special ih
  | backslash ordinary _ ih => exact .backslash ordinary ih

/-! ## The account that the mode gives -/

/-- In which way the text ends that has led to a mode. -/
inductive WordMode.Accounts : WordMode → List Char → Prop
  | between {text : List Char} (complete : Complete text) : Accounts .between text
  | bare {text word : List Char} (complete : Complete text) : Accounts (.bare word) text
  | escaped {left word : List Char} (complete : Complete left) :
      Accounts (.escaped word) (left ++ ['\\'])
  | single {left inside word : List Char} (complete : Complete left) (unquoted : '\x27' ∉ inside) :
      Accounts (.single left.length word) (left ++ '\x27' :: inside)
  | double {left raw inside word : List Char} (complete : Complete left)
      (encloses : Encloses raw inside) :
      Accounts (.double left.length word) (left ++ '\x22' :: raw)
  | doubleEscaped {left raw inside word : List Char} (complete : Complete left)
      (encloses : Encloses raw inside) :
      Accounts (.doubleEscaped left.length word) (left ++ '\x22' :: (raw ++ ['\\']))

namespace WordReader

variable {reader : WordReader} {text : List Char} {c : Char}

theorem accounts_opening (complete : Complete text) (word : List Char) (dark : isBlank c = false) :
    (opening text.length word c).Accounts (text ++ [c]) := by
  rw [opening]
  split_ifs with single double backslash
  · subst single
    exact .single complete (by simp)
  · subst double
    exact .double complete .nil
  · subst backslash
    exact .escaped complete
  · exact .bare (complete.append (.piece (.plain c dark single double backslash)))

theorem accounts_step (accounts : reader.mode.Accounts text)
    (position : reader.position = text.length) (c : Char) :
    (reader.step c).mode.Accounts (text ++ [c]) := by
  obtain ⟨read, words, mode⟩ := reader
  simp only at accounts position
  subst position
  cases accounts with
  | between complete | bare complete =>
      simp only [step]
      split_ifs with blank
      · exact .between (complete.append (.blank c blank))
      · exact accounts_opening complete _ (by simpa using blank)
  | escaped complete =>
      have whole := complete.append (.piece (.escaped c))
      simp only [step, List.append_assoc, List.cons_append, List.nil_append]
      exact .bare whole
  | single complete unquoted =>
      simp only [step, List.append_assoc, List.cons_append]
      split_ifs with closing
      · subst closing
        exact .bare (complete.append (.piece (.single _ unquoted)))
      · apply WordMode.Accounts.single complete
        simp [unquoted, Ne.symm closing]
  | double complete encloses =>
      simp only [step, List.append_assoc, List.cons_append]
      split_ifs with closing backslash
      · subst closing
        exact .bare (complete.append (.piece (.double _ _ encloses)))
      · subst backslash
        exact .doubleEscaped complete encloses
      · exact .double complete (encloses.append (.plain closing backslash .nil))
  | doubleEscaped complete encloses =>
      simp only [step, List.append_assoc, List.cons_append, List.nil_append]
      split_ifs with special
      · exact .double complete (encloses.append (.escaped special .nil))
      · exact .double complete (encloses.append (.backslash special .nil))

theorem accounts_run (text : List Char) : (start.run text).mode.Accounts text := by
  induction text using List.reverseRecOn with
  | nil => exact .between complete_nil
  | append_singleton text c ih =>
      rw [run_append]
      exact accounts_step ih (position_run_start text) c

/-! ## Reading a text that does not end well -/

theorem outside_run {word : List Char} (outside : reader.mode.Outside word)
    (segments : List Segment) :
    ∃ current, (reader.run (segments.flatMap Segment.spelling)).mode.Outside current := by
  induction segments generalizing reader word with
  | nil => exact ⟨word, outside⟩
  | cons segment rest ih =>
      rw [List.flatMap_cons, run_append]
      cases segment with
      | blank c blank =>
          have between : (reader.run [c]).mode = .between := by
            obtain ⟨position, words, mode⟩ := reader
            cases outside <;> simp [run, step, blank]
          have stillOutside : (reader.run [c]).mode.Outside [] := by
            rw [between]
            exact .between
          exact ih stillOutside
      | piece part =>
          rw [Segment.spelling, run_piece outside part]
          exact ih (.bare _)

theorem outside_of_complete (complete : Complete text) :
    ∃ word, (start.run text).mode.Outside word := by
  rcases complete with ⟨segments, rfl⟩
  exact outside_run .between segments

/-- A quotation that is not closed is the fault, by the place of its quote. -/
theorem finish_run_unclosed {word inside : List Char} {quote : Char}
    (outside : reader.mode.Outside word) (unclosed : Unclosed quote inside) :
    (reader.run (quote :: inside)).finish = .error (.unclosedQuote reader.position) := by
  cases unclosed with
  | single unquoted =>
      rw [run_openSingle outside unquoted]
      rfl
  | double encloses =>
      rw [run_openDouble outside encloses]
      rfl
  | doubleEscaped encloses =>
      rw [← List.cons_append, run_append, run_openDouble outside encloses]
      rfl

end WordReader

variable {text : List Char} {opened : Nat}

theorem words_of_endsInQuotation (ends : EndsInQuotation text opened) :
    words text = .error (.unclosedQuote opened) := by
  rcases ends with ⟨left, quote, inside, rfl, rfl, complete, unclosed⟩
  rcases WordReader.outside_of_complete complete with ⟨word, outside⟩
  rw [words, WordReader.run_append, WordReader.finish_run_unclosed outside unclosed,
    WordReader.position_run_start]

theorem words_of_endsInEscape (ends : EndsInEscape text) : words text = .error .danglingEscape := by
  rcases ends with ⟨left, rfl, complete⟩
  rcases WordReader.outside_of_complete complete with ⟨word, outside⟩
  rw [words, WordReader.run_append, WordReader.run_cons,
    WordReader.step_of_outside outside (by decide)]
  rfl

theorem ends_of_words {fault : WordFault} (failed : words text = .error fault) :
    (∃ opened, fault = .unclosedQuote opened ∧ EndsInQuotation text opened) ∨
      (fault = .danglingEscape ∧ EndsInEscape text) := by
  have accounts := WordReader.accounts_run text
  rw [words] at failed
  generalize WordReader.start.run text = reader at accounts failed
  obtain ⟨position, found, mode⟩ := reader
  cases accounts with
  | between | bare => cases failed
  | escaped complete =>
      cases failed
      exact .inr ⟨rfl, _, rfl, complete⟩
  | single complete unquoted =>
      cases failed
      exact .inl ⟨_, rfl, _, _, _, rfl, rfl, complete, .single unquoted⟩
  | double complete encloses =>
      cases failed
      exact .inl ⟨_, rfl, _, _, _, rfl, rfl, complete, .double encloses⟩
  | doubleEscaped complete encloses =>
      cases failed
      exact .inl ⟨_, rfl, _, _, _, rfl, rfl, complete, .doubleEscaped encloses⟩

theorem words_eq_unclosedQuote_iff :
    words text = .error (.unclosedQuote opened) ↔ EndsInQuotation text opened := by
  refine ⟨fun failed => ?_, words_of_endsInQuotation⟩
  rcases ends_of_words failed with ⟨other, same, ends⟩ | ⟨different, -⟩
  · cases same
    exact ends
  · cases different

theorem words_eq_danglingEscape_iff :
    words text = .error .danglingEscape ↔ EndsInEscape text := by
  refine ⟨fun failed => ?_, words_of_endsInEscape⟩
  rcases ends_of_words failed with ⟨other, different, -⟩ | ⟨-, ends⟩
  · cases different
  · exact ends

theorem words_eq_error_iff :
    (∃ fault, words text = .error fault) ↔
      (∃ opened, EndsInQuotation text opened) ∨ EndsInEscape text := by
  constructor
  · rintro ⟨fault, failed⟩
    rcases ends_of_words failed with ⟨opened, -, ends⟩ | ⟨-, ends⟩
    · exact .inl ⟨opened, ends⟩
    · exact .inr ends
  · rintro (⟨opened, ends⟩ | ends)
    · exact ⟨_, words_of_endsInQuotation ends⟩
    · exact ⟨_, words_of_endsInEscape ends⟩

/-- White space behind a text that has words divides a line: the words of the two sides are found
apart, and so is a fault in the second. A text has no words exactly if it ends inside a quotation or
directly after a backslash that escapes, and this is the fault that is reported. -/
theorem words_divide_and_fail :
    (∀ (left right : List Char) (c : Char) (found : List (List Char)), isBlank c = true →
        words left = .ok found → words (left ++ c :: right) =
          match words right with
          | .ok more => .ok (found ++ more)
          | .error fault => .error (fault.moved (left.length + 1))) ∧
      ∀ text : List Char,
        ((∃ fault, words text = .error fault) ↔
          (∃ opened, EndsInQuotation text opened) ∨ EndsInEscape text) ∧
        (∀ opened, words text = .error (.unclosedQuote opened) ↔ EndsInQuotation text opened) ∧
        (words text = .error .danglingEscape ↔ EndsInEscape text) := by
  refine ⟨fun left right c found blank read => words_append_blank blank read right, fun text => ?_⟩
  exact ⟨words_eq_error_iff, fun opened => words_eq_unclosedQuote_iff, words_eq_danglingEscape_iff⟩

/-- The first word ends in an escaped space, and the quotation behind the tab is never closed. -/
theorem words_divide_and_fail_tab :
    isBlank '\t' = true ∧ words ['a', '\\', ' '] = .ok [['a', ' ']] ∧
      words (['a', '\\', ' '] ++ '\t' :: ['\x27', 'b']) = .error (.unclosedQuote 4) := by
  have blank : isBlank '\t' = true := by decide
  have read : words ['a', '\\', ' '] = .ok [['a', ' ']] := by decide
  exact ⟨blank, read, words_divide_and_fail.1 _ ['\x27', 'b'] _ _ blank read⟩

end Tabula.Text
