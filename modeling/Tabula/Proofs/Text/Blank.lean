import Mathlib.Data.List.Basic
import Mathlib.Data.List.DropRight
import Mathlib.Data.List.TakeWhile
import Tabula.Text.Blank

/-!
# Trimmed texts

A text that is not empty and has no white space at either end is what trimming leaves of it, however
much white space is put around it. Trimming never lengthens a text.
-/

namespace Tabula.Text

/-- A text that is not empty and has no white space at either end. -/
structure Trimmed (text : List Char) : Prop where
  nonempty : text ≠ []
  head : ∀ c ∈ text.head?, isBlank c = false
  last : ∀ c ∈ text.getLast?, isBlank c = false

instance (text : List Char) : Decidable (Trimmed text) :=
  decidable_of_iff
    (text ≠ [] ∧ text.head?.all (!isBlank ·) = true ∧ text.getLast?.all (!isBlank ·) = true) <| by
      simp only [Option.all_eq_true, Bool.not_eq_true']
      exact ⟨fun parts => ⟨parts.1, parts.2.1, parts.2.2⟩,
        fun trimmed => ⟨trimmed.nonempty, trimmed.head, trimmed.last⟩⟩

theorem trimmed_of_forall {text : List Char} (nonempty : text ≠ [])
    (dark : ∀ c ∈ text, isBlank c = false) : Trimmed text :=
  ⟨nonempty, fun c first => dark c (List.mem_of_head? first),
    fun c last => dark c (List.mem_of_getLast? last)⟩

theorem Trimmed.append {left right : List Char} (starts : Trimmed left) (ends : Trimmed right)
    (middle : List Char) : Trimmed (left ++ (middle ++ right)) := by
  refine ⟨?_, ?_, ?_⟩
  · exact List.append_ne_nil_of_left_ne_nil starts.nonempty _
  · rw [List.head?_append_of_ne_nil _ starts.nonempty]
    exact starts.head
  · rw [← List.append_assoc, List.getLast?_append_of_ne_nil _ ends.nonempty]
    exact ends.last

/-- The visible ASCII characters are not white space. -/
theorem isBlank_of_visible {c : Char} (lower : 0x21 ≤ c.toNat) (upper : c.toNat ≤ 0x7E) :
    isBlank c = false := by
  simp only [isBlank, Bool.or_eq_false_iff, Bool.and_eq_false_iff, decide_eq_false_iff_not,
    beq_eq_false_iff_ne]
  omega

/-! ## Trimming -/

/-- Nothing is trimmed off a character at the start that is not white space. -/
theorem trimStart_append {text : List Char} (nonempty : text ≠ [])
    (head : ∀ c ∈ text.head?, isBlank c = false) (right : List Char) :
    trimStart (text ++ right) = text ++ right := by
  cases text with
  | nil => exact absurd rfl nonempty
  | cons c rest =>
      have dark := head c rfl
      rw [trimStart, List.cons_append, List.dropWhile_cons_of_neg (by rw [dark]; decide)]

theorem Trimmed.trim_append {text right : List Char} (trimmed : Trimmed text)
    (after : ∀ c ∈ right, isBlank c = true) : trim (text ++ right) = text := by
  have ended : trimStart (text.reverse ++ []) = text.reverse ++ [] := by
    refine trimStart_append (mt List.reverse_eq_nil_iff.mp trimmed.nonempty) ?_ []
    rw [List.head?_reverse]
    exact trimmed.last
  rw [List.append_nil, trimStart] at ended
  rw [trim, trimStart_append trimmed.nonempty trimmed.head, trimEnd, List.reverse_append,
    List.dropWhile_append_of_pos, ended, List.reverse_reverse]
  intro c c_mem
  exact after c (List.mem_reverse.mp c_mem)

theorem Trimmed.trim_eq {text : List Char} (trimmed : Trimmed text) : trim text = text := by
  have unpadded : trim (text ++ []) = text := trimmed.trim_append nofun
  rwa [List.append_nil] at unpadded

theorem length_trimEnd_le (text : List Char) : (trimEnd text).length ≤ text.length := by
  have shorter := (List.dropWhile_sublist isBlank (l := text.reverse)).length_le
  rwa [List.length_reverse, ← List.length_reverse] at shorter

theorem length_trim_le (text : List Char) : (trim text).length ≤ text.length :=
  Nat.le_trans (length_trimEnd_le _) (List.dropWhile_sublist isBlank).length_le

theorem trim_cons_of_isBlank {c : Char} (blank : isBlank c = true) (text : List Char) :
    trim (c :: text) = trim text := by
  rw [trim, trimStart, List.dropWhile_cons_of_pos blank]
  rfl

theorem trim_append_of_isBlank {c : Char} (blank : isBlank c = true) (text : List Char) :
    trim (text ++ [c]) = trim text := by
  rw [trim, trim, trimStart, trimStart, List.dropWhile_append]
  split
  · rename_i nothing
    rw [List.isEmpty_iff.mp nothing, List.dropWhile_cons_of_pos blank, List.dropWhile_nil]
  · rw [trimEnd, List.reverse_append, List.reverse_singleton, List.singleton_append,
      List.dropWhile_cons_of_pos blank]
    rfl

theorem trim_append_of_blank {right : List Char} (blank : ∀ c ∈ right, isBlank c = true)
    (text : List Char) : trim (text ++ right) = trim text := by
  induction right generalizing text with
  | nil => rw [List.append_nil]
  | cons c right ih =>
      rw [List.forall_mem_cons] at blank
      rw [List.append_cons, ih blank.2, trim_append_of_isBlank blank.1]

theorem trim_gap_append {left : List Char} (blank : ∀ c ∈ left, isBlank c = true)
    (text : List Char) : trim (left ++ text) = trim text := by
  rw [trim, trim, trimStart, trimStart, List.dropWhile_append_of_pos blank]

/-- Around what trimming leaves, a text has only white space. -/
theorem exists_append_trim (text : List Char) :
    ∃ before after, text = before ++ (trim text ++ after) ∧ (∀ c ∈ before, isBlank c = true) ∧
      ∀ c ∈ after, isBlank c = true := by
  have ended : trim text ++ ((trimStart text).reverse.takeWhile isBlank).reverse =
      trimStart text := by
    rw [trim, trimEnd, ← List.reverse_append, List.takeWhile_append_dropWhile,
      List.reverse_reverse]
  refine ⟨text.takeWhile isBlank, ((trimStart text).reverse.takeWhile isBlank).reverse, ?_,
    fun _ => List.mem_takeWhile_imp, ?_⟩
  · rw [ended, trimStart, List.takeWhile_append_dropWhile]
  · intro c c_mem
    exact List.mem_takeWhile_imp (List.mem_reverse.mp c_mem)

/-- The first character that trimming at the start leaves is not white space. -/
theorem isBlank_head_trimStart {text : List Char} {c : Char} (head : c ∈ (trimStart text).head?) :
    isBlank c = false := by
  have first := List.head?_dropWhile_not isBlank text
  rw [trimStart] at head
  rwa [head] at first

theorem trimmed_trim {text : List Char} (nonempty : trim text ≠ []) : Trimmed (trim text) := by
  refine ⟨nonempty, ?_, ?_⟩
  · intro c head
    have kept : trim text <+: trimStart text := List.rdropWhile_prefix isBlank (trimStart text)
    rcases kept with ⟨dropped, whole⟩
    have first : c ∈ (trimStart text).head? := by
      rwa [← whole, List.head?_append_of_ne_nil _ nonempty]
    exact isBlank_head_trimStart first
  · intro c last
    rw [trim, trimEnd, List.getLast?_reverse] at last
    exact isBlank_head_trimStart last

theorem trim_trim (text : List Char) : trim (trim text) = trim text := by
  by_cases nonempty : trim text = []
  · rw [nonempty]
    rfl
  · exact (trimmed_trim nonempty).trim_eq

/-- A text with a character that is not white space is not trimmed away. -/
theorem trim_ne_nil {text : List Char} {c : Char} (c_mem : c ∈ text) (dark : isBlank c = false) :
    trim text ≠ [] := by
  intro nothing
  have blank : ∀ c ∈ trimStart text, isBlank c = true := by
    rw [trim, trimEnd, List.reverse_eq_nil_iff, List.dropWhile_eq_nil_iff] at nothing
    intro c c_mem
    exact nothing c (List.mem_reverse.mpr c_mem)
  rw [← List.takeWhile_append_dropWhile (p := isBlank) (l := text), List.mem_append] at c_mem
  rcases c_mem with before | after
  · rw [List.mem_takeWhile_imp before] at dark
    cases dark
  · rw [blank c after] at dark
    cases dark

/-! ## Words -/

/-- Up to its first white space, a text is its first word. -/
theorem blankSeparated_append_blank {word : List Char} (nonempty : word ≠ [])
    (unbroken : ∀ c ∈ word, isBlank c = false) {c : Char} (blank : isBlank c = true)
    (rest : List Char) :
    blankSeparated (word ++ c :: rest) = word :: blankSeparated rest := by
  rw [blankSeparated, pieces_append_break unbroken blank, List.filter_cons_of_pos, blankSeparated]
  simpa using nonempty

theorem blankSeparated_cons_of_isBlank {c : Char} (blank : isBlank c = true) (text : List Char) :
    blankSeparated (c :: text) = blankSeparated text := by
  rw [blankSeparated, pieces, if_pos blank, List.filter_cons_of_neg (by decide), blankSeparated]

/-- Up to white space or its end, a text is its first word. -/
theorem blankSeparated_append_of_head {word after : List Char} (nonempty : word ≠ [])
    (unbroken : ∀ c ∈ word, isBlank c = false) (apart : ∀ c ∈ after.head?, isBlank c = true) :
    blankSeparated (word ++ after) = word :: blankSeparated after := by
  cases after with
  | nil =>
      rw [List.append_nil, blankSeparated, pieces_of_no_break unbroken]
      exact List.filter_cons_of_pos (by simpa using nonempty)
  | cons c rest =>
      have blank := apart c rfl
      rw [blankSeparated_append_blank nonempty unbroken blank, blankSeparated_cons_of_isBlank blank]

/-- A text without white space at its start begins with its first word. -/
theorem exists_append_of_blankSeparated {text word : List Char} {others : List (List Char)}
    (head : ∀ c ∈ text.head?, isBlank c = false) (words : blankSeparated text = word :: others) :
    ∃ after, text = word ++ after ∧ ∀ c ∈ after.head?, isBlank c = true := by
  have whole := List.takeWhile_append_dropWhile (p := fun c => !isBlank c) (l := text)
  have apart : ∀ c ∈ (text.dropWhile fun c => !isBlank c).head?, isBlank c = true := by
    intro c first
    have stops := List.head?_dropWhile_not (fun c => !isBlank c) text
    rw [first] at stops
    simpa using stops
  have unbroken : ∀ c ∈ text.takeWhile fun c => !isBlank c, isBlank c = false := by
    intro c c_mem
    simpa using List.mem_takeWhile_imp c_mem
  have nonempty : text.takeWhile (fun c => !isBlank c) ≠ [] := by
    cases text with
    | nil => cases words
    | cons c rest => simp [head c rfl]
  have found := blankSeparated_append_of_head nonempty unbroken apart
  rw [whole, words, List.cons.injEq] at found
  rw [found.1]
  exact ⟨_, whole.symm, apart⟩

/-! ## Pieces -/

theorem length_pieces (isBreak : Char → Bool) (text : List Char) :
    (pieces isBreak text).length = text.countP isBreak + 1 := by
  induction text with
  | nil => rfl
  | cons c rest ih =>
      rw [pieces, List.countP_cons]
      split
      · rw [List.length_cons, ih]
      · split
        · rename_i none
          rw [none] at ih
          simp at ih
        · rename_i first more some
          rw [some, List.length_cons] at ih
          rw [List.length_cons, ih, Nat.add_zero]

theorem pieces_ne_nil (isBreak : Char → Bool) (text : List Char) : pieces isBreak text ≠ [] := by
  intro none
  have counted := length_pieces isBreak text
  rw [none] at counted
  cases counted

/-- The pieces on the two sides of a break are found apart. -/
theorem pieces_append_cons {isBreak : Char → Bool} {c : Char} (breaks : isBreak c = true)
    (left right : List Char) :
    pieces isBreak (left ++ c :: right) = pieces isBreak left ++ pieces isBreak right := by
  induction left with
  | nil =>
      refine pieces_append_break ?_ breaks right
      intro other other_mem
      cases other_mem
  | cons first rest ih =>
      rw [List.cons_append, pieces, pieces, ih]
      split
      · rfl
      · cases found : pieces isBreak rest with
        | nil => exact absurd found (pieces_ne_nil isBreak rest)
        | cons next more => rfl

/-- The pieces of a text are made of its characters, without those that break it. -/
theorem mem_of_mem_pieces {isBreak : Char → Bool} {text piece : List Char} {c : Char}
    (piece_mem : piece ∈ pieces isBreak text) (c_mem : c ∈ piece) :
    c ∈ text ∧ isBreak c = false := by
  induction text generalizing piece with
  | nil =>
      simp only [pieces, List.mem_singleton] at piece_mem
      simp [piece_mem] at c_mem
  | cons first rest ih =>
      rw [pieces] at piece_mem
      split at piece_mem
      · rcases List.mem_cons.mp piece_mem with rfl | later
        · simp at c_mem
        · exact (ih later c_mem).imp_left (List.mem_cons_of_mem first)
      · rename_i unbroken
        split at piece_mem
        · rename_i none
          exact absurd none (pieces_ne_nil isBreak rest)
        · rename_i next more found
          rw [found] at ih
          rcases List.mem_cons.mp piece_mem with rfl | later
          · rcases List.mem_cons.mp c_mem with rfl | inNext
            · exact ⟨List.mem_cons_self, by simpa using unbroken⟩
            · exact (ih List.mem_cons_self inNext).imp_left (List.mem_cons_of_mem first)
          · exact (ih (List.mem_cons_of_mem next later) c_mem).imp_left
              (List.mem_cons_of_mem first)

/-! ## White space between words -/

theorem blankSeparated_append_of_blank {left : List Char} (blank : ∀ c ∈ left, isBlank c = true)
    (right : List Char) : blankSeparated (left ++ right) = blankSeparated right := by
  induction left with
  | nil => rfl
  | cons c left ih =>
      rw [List.forall_mem_cons] at blank
      rw [List.cons_append, blankSeparated_cons_of_isBlank blank.1, ih blank.2]

theorem blankSeparated_append_singleton {c : Char} (blank : isBlank c = true) (text : List Char) :
    blankSeparated (text ++ [c]) = blankSeparated text := by
  have last : (pieces isBlank []).filter (· ≠ []) = [] := rfl
  rw [blankSeparated, pieces_append_cons blank, List.filter_append, last, List.append_nil,
    blankSeparated]

theorem blankSeparated_trimEnd (text : List Char) :
    blankSeparated (trimEnd text) = blankSeparated text := by
  induction text using List.reverseRecOn with
  | nil => rfl
  | append_singleton text c ih =>
      rw [trimEnd, List.reverse_append, List.reverse_singleton, List.singleton_append,
        List.dropWhile_cons]
      split
      · rename_i blank
        rw [blankSeparated_append_singleton blank, ← ih, trimEnd]
      · rw [List.reverse_cons, List.reverse_reverse]

/-- Trimming leaves the words of a text. -/
theorem blankSeparated_trim (text : List Char) :
    blankSeparated (trim text) = blankSeparated text := by
  have spaces : ∀ c ∈ text.takeWhile isBlank, isBlank c = true := fun _ => List.mem_takeWhile_imp
  have skipped := blankSeparated_append_of_blank spaces (text.dropWhile isBlank)
  rw [List.takeWhile_append_dropWhile] at skipped
  rw [trim, blankSeparated_trimEnd, trimStart, skipped]

end Tabula.Text
