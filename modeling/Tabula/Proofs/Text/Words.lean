import Mathlib.Tactic.SplitIfs
import Tabula.Text.Words

/-!
# Dividing a line into words

White space outside quotes is where a line can be divided: what stands behind it is read as if it
began the line, except that positions are counted from further back. For the reader this says that
its walk does not depend on the words it has completed, and on its position only by adding to it.
-/

namespace Tabula.Text

/-- The fault in a text that stands at some distance from the start of the line. -/
def WordFault.moved (distance : Nat) : WordFault → WordFault
  | .unclosedQuote position => .unclosedQuote (position + distance)
  | .danglingEscape => .danglingEscape

def WordMode.moved (distance : Nat) : WordMode → WordMode
  | .between => .between
  | .bare word => .bare word
  | .escaped word => .escaped word
  | .single opened word => .single (opened + distance) word
  | .double opened word => .double (opened + distance) word
  | .doubleEscaped opened word => .doubleEscaped (opened + distance) word

theorem WordFault.moved_moved (first second : Nat) (fault : WordFault) :
    (fault.moved first).moved second = fault.moved (first + second) := by
  cases fault <;> simp [moved, Nat.add_assoc]

namespace WordReader

variable {reader : WordReader} {c : Char}

theorem run_cons (reader : WordReader) (c : Char) (rest : List Char) :
    reader.run (c :: rest) = (reader.step c).run rest :=
  rfl

theorem run_nil (reader : WordReader) : reader.run [] = reader :=
  rfl

/-- The reader as if it had started at some distance, with words read before. -/
def moved (reader : WordReader) (distance : Nat) (earlier : List (List Char)) : WordReader :=
  ⟨reader.position + distance, reader.words ++ earlier, reader.mode.moved distance⟩

theorem moved_opening (distance position : Nat) (word : List Char) (c : Char) :
    (opening position word c).moved distance = opening (position + distance) word c := by
  simp only [opening]
  split_ifs <;> rfl

theorem step_moved (reader : WordReader) (distance : Nat) (earlier : List (List Char)) (c : Char) :
    (reader.moved distance earlier).step c = (reader.step c).moved distance earlier := by
  obtain ⟨position, words, mode⟩ := reader
  have later : position + distance + 1 = position + 1 + distance := by omega
  cases mode with
  | between | bare =>
      simp only [moved, step, WordMode.moved]
      split_ifs
      · simp [later]
      · rw [← moved_opening, later]
        rfl
  | escaped => simp [moved, step, WordMode.moved, later]
  | single | double | doubleEscaped =>
      simp only [moved, step, WordMode.moved]
      split_ifs <;> simp [later]

theorem run_moved (reader : WordReader) (distance : Nat) (earlier : List (List Char))
    (text : List Char) :
    (reader.moved distance earlier).run text = (reader.run text).moved distance earlier := by
  induction text generalizing reader with
  | nil => rfl
  | cons c rest ih => rw [run_cons, run_cons, step_moved, ih]

theorem finish_moved (reader : WordReader) (distance : Nat) (earlier : List (List Char)) :
    (reader.moved distance earlier).finish =
      match reader.finish with
      | .ok words => .ok (earlier.reverse ++ words)
      | .error fault => .error (fault.moved distance) := by
  obtain ⟨position, words, mode⟩ := reader
  cases mode <;> simp [moved, finish, WordMode.moved, WordFault.moved]

theorem position_run (reader : WordReader) (text : List Char) :
    (reader.run text).position = reader.position + text.length := by
  induction text generalizing reader with
  | nil => rfl
  | cons c rest ih =>
      rw [run_cons, ih, position_step, List.length_cons]
      omega

theorem position_run_start (text : List Char) : (start.run text).position = text.length := by
  rw [position_run, start, Nat.zero_add]

/-- White space outside quotes ends the current word. -/
theorem step_of_finish {words : List (List Char)} (finished : reader.finish = .ok words)
    (blank : isBlank c = true) :
    reader.step c = ⟨reader.position + 1, words.reverse, .between⟩ := by
  obtain ⟨position, completed, mode⟩ := reader
  cases mode with
  | between | bare =>
      simp only [finish, Except.ok.injEq] at finished
      simp [step, blank, ← finished]
  | escaped | single | double | doubleEscaped => cases finished

end WordReader

theorem words_nil : words [] = .ok [] :=
  rfl

theorem words_append_blank {left : List Char} {c : Char} {found : List (List Char)}
    (blank : isBlank c = true) (read : words left = .ok found) (right : List Char) :
    words (left ++ c :: right) =
      match words right with
      | .ok more => .ok (found ++ more)
      | .error fault => .error (fault.moved (left.length + 1)) := by
  have divided : WordReader.start.run (left ++ [c]) =
      WordReader.start.moved (left.length + 1) found.reverse := by
    rw [WordReader.run_append, WordReader.run_cons, WordReader.run_nil,
      WordReader.step_of_finish read blank, WordReader.position_run_start, WordReader.moved,
      WordReader.start, List.nil_append, Nat.zero_add, WordMode.moved]
  rw [List.append_cons, words, WordReader.run_append, divided, WordReader.run_moved,
    WordReader.finish_moved, List.reverse_reverse, ← words]

theorem words_append_blank_eq_ok {left right : List Char} {c : Char} {found more : List (List Char)}
    (blank : isBlank c = true) (read : words left = .ok found) (readMore : words right = .ok more) :
    words (left ++ c :: right) = .ok (found ++ more) := by
  rw [words_append_blank blank read, readMore]

/-- White space before a text only moves its fault. -/
theorem words_gap_append_eq {gap : List Char} (blank : ∀ c ∈ gap, isBlank c = true)
    (text : List Char) :
    words (gap ++ text) =
      match words text with
      | .ok found => .ok found
      | .error fault => .error (fault.moved gap.length) := by
  induction gap with
  | nil =>
      rw [List.nil_append]
      cases words text with
      | ok found => rfl
      | error fault => cases fault <;> rfl
  | cons c gap ih =>
      rw [List.forall_mem_cons] at blank
      have divided := words_append_blank blank.1 words_nil (gap ++ text)
      rw [List.nil_append, ih blank.2] at divided
      rw [List.cons_append, divided]
      cases words text with
      | ok found => rfl
      | error fault =>
          simp only [WordFault.moved_moved, List.length_nil, List.length_cons, Nat.zero_add]

end Tabula.Text
