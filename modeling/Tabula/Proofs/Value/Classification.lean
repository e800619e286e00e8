import Tabula.Proofs.Value.Literal

/-!
# What a text writes

Without the white space around it, a text that is not empty writes exactly one value. It writes a
truth value if it is the word for it, in any case; an integer if it is a decimal numeral with at
most one sign and the number is in the signed 64-bit range; the text between two equal quotes; and
itself in all other cases. So every value is read back from what it is written with, whatever white
space stands around it.
-/

namespace Tabula

namespace Text

/-- The digits denote the number in base ten. -/
inductive Numeral : List Char → Nat → Prop
  | one {digit : Nat} (small : digit < 10) : Numeral [digit.digitChar] digit
  | more {front : List Char} {number digit : Nat} (numeral : Numeral front number)
      (small : digit < 10) : Numeral (front ++ [digit.digitChar]) (10 * number + digit)

/-- Digits after at most one sign denote the number. -/
inductive Signed : List Char → Int → Prop
  | unsigned {digits : List Char} {number : Nat} (numeral : Numeral digits number) :
      Signed digits number
  | plus {digits : List Char} {number : Nat} (numeral : Numeral digits number) :
      Signed ('+' :: digits) number
  | minus {digits : List Char} {number : Nat} (numeral : Numeral digits number) :
      Signed ('-' :: digits) (-number)

/-- The signed 64-bit integers. -/
def InRange (value : Int) : Prop :=
  -2 ^ 63 ≤ value ∧ value ≤ 2 ^ 63 - 1

/-! ## Numerals -/

section Numerals

variable {text : List Char} {number : Nat} {value : Int}

theorem exists_digitChar_of_isDigit {c : Char} (digit : c.isDigit = true) :
    ∃ value, value < 10 ∧ c = value.digitChar := by
  simp only [Char.isDigit, Bool.and_eq_true, decide_eq_true_eq] at digit
  have lower : 48 ≤ c.toNat := digit.1
  have upper : c.toNat ≤ 57 := digit.2
  refine ⟨c.toNat - 48, by omega, ?_⟩
  rw [← Char.toNat_inj, Nat.toNat_digitChar_of_lt_ten (by omega)]
  omega

theorem Numeral.ne_nil (numeral : Numeral text number) : text ≠ [] := by
  cases numeral with
  | one => exact List.cons_ne_nil _ _
  | more => exact List.append_ne_nil_of_right_ne_nil _ (List.cons_ne_nil _ _)

theorem Numeral.isDigit_of_mem {c : Char} (numeral : Numeral text number) (c_mem : c ∈ text) :
    c.isDigit = true := by
  induction numeral with
  | one small =>
      rw [List.mem_singleton.mp c_mem, Nat.isDigit_digitChar, decide_eq_true small]
  | more numeral small ih =>
      rcases List.mem_append.mp c_mem with before | last
      · exact ih before
      · rw [List.mem_singleton.mp last, Nat.isDigit_digitChar, decide_eq_true small]

theorem Numeral.ofDigitChars (numeral : Numeral text number) :
    Nat.ofDigitChars 10 text 0 = number := by
  have ones {digit : Nat} (small : digit < 10) (tens : Nat) :
      Nat.ofDigitChars 10 [digit.digitChar] tens = 10 * tens + digit := by
    rw [Nat.ofDigitChars_cons, Nat.ofDigitChars_nil]
    exact congrArg _ (Nat.toNat_digitChar_sub_48_of_lt_ten small)
  induction numeral with
  | one small => rw [ones small, Nat.mul_zero, Nat.zero_add]
  | more numeral small ih => rw [Nat.ofDigitChars_append, ih, ones small]

theorem exists_numeral (nonempty : text ≠ []) (digits : ∀ c ∈ text, c.isDigit = true) :
    ∃ number, Numeral text number := by
  induction text using List.reverseRecOn with
  | nil => exact absurd rfl nonempty
  | append_singleton front c ih =>
      have last := digits c List.mem_concat_self
      rcases exists_digitChar_of_isDigit last with ⟨digit, small, rfl⟩
      by_cases alone : front = []
      · rw [alone]
        exact ⟨digit, .one small⟩
      · rcases ih alone fun c c_mem => digits c (List.mem_append_left _ c_mem) with
          ⟨number, numeral⟩
        exact ⟨_, numeral.more small⟩

theorem natural?_eq_some_iff : natural? text = some number ↔ Numeral text number := by
  rw [natural?]
  constructor
  · intro read
    split at read
    · rename_i digits
      rcases exists_numeral digits.1 (List.all_eq_true.mp digits.2) with ⟨other, numeral⟩
      rw [numeral.ofDigitChars, Option.some.injEq] at read
      rwa [← read]
    · cases read
  · intro numeral
    rw [if_pos ⟨numeral.ne_nil, List.all_eq_true.mpr fun _ => numeral.isDigit_of_mem⟩,
      numeral.ofDigitChars]

/-- A numeral begins with a digit, and with a sign before it if it is signed. -/
theorem Signed.head_mem (signed : Signed text value) :
    ∃ c rest, text = c :: rest ∧
      c ∈ ['+', '-', '0', '1', '2', '3', '4', '5', '6', '7', '8', '9'] := by
  cases signed with
  | plus | minus => exact ⟨_, _, rfl, by decide⟩
  | unsigned numeral =>
      rcases List.exists_cons_of_ne_nil numeral.ne_nil with ⟨c, rest, rfl⟩
      rcases exists_digitChar_of_isDigit (numeral.isDigit_of_mem List.mem_cons_self) with
        ⟨digit, small, rfl⟩
      refine ⟨_, _, rfl, ?_⟩
      interval_cases digit <;> decide

theorem integer?_eq_some_iff : integer? text = some value ↔ Signed text value := by
  constructor
  · intro read
    unfold integer? at read
    split at read
    · rcases Option.map_eq_some_iff.mp read with ⟨number, digits, rfl⟩
      exact .plus (natural?_eq_some_iff.mp digits)
    · rcases Option.map_eq_some_iff.mp read with ⟨number, digits, rfl⟩
      exact .minus (natural?_eq_some_iff.mp digits)
    · rcases Option.map_eq_some_iff.mp read with ⟨number, digits, rfl⟩
      exact .unsigned (natural?_eq_some_iff.mp digits)
  · intro signed
    cases signed with
    | plus numeral | minus numeral =>
        rw [integer?, natural?_eq_some_iff.mpr numeral]
        rfl
    | unsigned numeral =>
        have digits : ∀ c ∈ text, c.isDigit = true := fun _ => numeral.isDigit_of_mem
        unfold integer?
        split
        · exact absurd (digits '+' List.mem_cons_self) (by decide)
        · exact absurd (digits '-' List.mem_cons_self) (by decide)
        · rw [natural?_eq_some_iff.mpr numeral]
          rfl

theorem inRange_iff :
    InRange value ↔ Int64.minValue.toInt ≤ value ∧ value ≤ Int64.maxValue.toInt := by
  rw [Int64.toInt_minValue, Int64.toInt_maxValue]
  rfl

theorem int64?_eq_some_iff {number : Int64} :
    int64? value = some number ↔ InRange value ∧ Int64.ofInt value = number := by
  rw [int64?, Option.ite_none_right_eq_some, Option.some.injEq, inRange_iff]

theorem int64?_eq_none_iff : int64? value = none ↔ ¬InRange value := by
  rw [int64?, inRange_iff, ite_eq_right_iff]
  simp

theorem inRange_toInt (number : Int64) : InRange number.toInt :=
  inRange_iff.mpr ⟨number.minValue_le_toInt, number.toInt_le⟩

end Numerals

end Text

namespace Value

/-- The text is another one between two equal quotes, single or double. -/
def Quotes (text inner : List Char) : Prop :=
  ∃ quote, (quote = '\x22' ∨ quote = '\x27') ∧ text = quote :: (inner ++ [quote])

/-- The text is the word for a truth value, in any case. -/
def NamesTruth (text : List Char) (truth : Bool) : Prop :=
  Text.foldCase text = (Value.bool truth).display.toList

/-- What a text that is not empty and has no white space around it writes. -/
inductive Writes (text : List Char) : Value → Prop
  | bool {truth : Bool} (named : NamesTruth text truth) : Writes text (.bool truth)
  | int {value : Int} (signed : Text.Signed text value) (inRange : Text.InRange value) :
      Writes text (.int (Int64.ofInt value))
  | quoted {inner : String} (quotes : Quotes text inner.toList) : Writes text (.str inner)
  | itself (unnamed : ∀ truth, ¬NamesTruth text truth)
      (unnumbered : ∀ value, Text.Signed text value → ¬Text.InRange value)
      (unquoted : ∀ inner, ¬Quotes text inner) : Writes text (.str (String.ofList text))

/-- What a value can be written with: an integer with its decimal text, a truth value with its word,
and a text with either kind of quotes around it, whatever it holds. -/
inductive Spelling : Value → List Char → Prop
  | int (number : Int64) : Spelling (.int number) (Text.decimal number)
  | bool (truth : Bool) : Spelling (.bool truth) (Value.bool truth).display.toList
  | str (text : String) {quote : Char} (quotes : quote = '\x22' ∨ quote = '\x27') :
      Spelling (.str text) (quote :: (text.toList ++ [quote]))

/-! ## Reading one text -/

section Reading

variable {text inner literal : List Char} {value : Value} {truth : Bool}

theorem unquote?_eq_some_iff : unquote? text = some inner ↔ Quotes text inner := by
  constructor
  · intro read
    cases text with
    | nil => cases read
    | cons quote rest =>
        rw [unquote?] at read
        split at read
        · rename_i wrapped
          rcases List.getLast?_eq_some_iff.mp wrapped.2 with ⟨front, rfl⟩
          rw [List.dropLast_concat, Option.some.injEq] at read
          exact ⟨quote, wrapped.1, by rw [read]⟩
        · cases read
  · rintro ⟨quote, quotes, rfl⟩
    rw [unquote?, if_pos ⟨quotes, List.getLast?_concat⟩, List.dropLast_concat]

theorem unquote?_eq_none_iff : unquote? text = none ↔ ∀ inner, ¬Quotes text inner := by
  simp only [Option.eq_none_iff_forall_ne_some, ne_eq, unquote?_eq_some_iff]

theorem sameIgnoringCase_true_iff :
    Text.sameIgnoringCase text "true".toList = true ↔ NamesTruth text true := by
  rw [Text.sameIgnoringCase, beq_iff_eq]
  rfl

theorem sameIgnoringCase_false_iff :
    Text.sameIgnoringCase text "false".toList = true ↔ NamesTruth text false := by
  rw [Text.sameIgnoringCase, beq_iff_eq]
  rfl

theorem writes_ofTrimmed (text : List Char) : Writes text (ofTrimmed text) := by
  rw [ofTrimmed]
  split
  · rename_i named
    exact .bool (sameIgnoringCase_true_iff.mp named)
  split
  · rename_i named
    exact .bool (sameIgnoringCase_false_iff.mp named)
  rename_i untrue unfalse
  split
  · rename_i inner unquoted
    apply Writes.quoted
    rw [String.toList_ofList]
    exact unquote?_eq_some_iff.mp unquoted
  · rename_i unquoted
    split
    · rename_i number read
      rcases Option.bind_eq_some_iff.mp read with ⟨value, signed, narrowed⟩
      rcases Text.int64?_eq_some_iff.mp narrowed with ⟨inRange, rfl⟩
      exact .int (Text.integer?_eq_some_iff.mp signed) inRange
    · rename_i unread
      refine .itself ?_ ?_ (unquote?_eq_none_iff.mp unquoted)
      · rintro (_ | _)
        · exact mt sameIgnoringCase_false_iff.mpr unfalse
        · exact mt sameIgnoringCase_true_iff.mpr untrue
      · intro value signed
        have beyond := Option.bind_eq_none_iff.mp unread value
          (Text.integer?_eq_some_iff.mpr signed)
        exact Text.int64?_eq_none_iff.mp beyond

theorem ofTrimmed_of_writes (writes : Writes text value) : ofTrimmed text = value := by
  cases writes with
  | @bool truth named =>
      cases truth with
      | true => rw [ofTrimmed, if_pos (sameIgnoringCase_true_iff.mpr named)]
      | false =>
          have untrue : ¬Text.sameIgnoringCase text "true".toList = true := by
            rw [sameIgnoringCase_true_iff]
            intro other
            exact absurd (named.symm.trans other) (by decide)
          rw [ofTrimmed, if_neg untrue, if_pos (sameIgnoringCase_false_iff.mpr named)]
  | @int value signed inRange =>
      have read := Text.integer?_eq_some_iff.mpr signed
      rcases signed.head_mem with ⟨c, rest, rfl, first⟩
      apply ofTrimmed_of_integer first
      rw [read, Option.bind_some, Text.int64?_eq_some_iff]
      exact ⟨inRange, rfl⟩
  | quoted quotes =>
      rcases quotes with ⟨quote, quotes, rfl⟩
      rw [ofTrimmed_of_quotes quotes, String.ofList_toList]
  | itself unnamed unnumbered unquoted =>
      have unread : (Text.integer? text).bind Text.int64? = none := by
        rw [Option.bind_eq_none_iff]
        intro value read
        exact Text.int64?_eq_none_iff.mpr (unnumbered value (Text.integer?_eq_some_iff.mp read))
      rw [ofTrimmed, if_neg (mt sameIgnoringCase_true_iff.mp (unnamed true)),
        if_neg (mt sameIgnoringCase_false_iff.mp (unnamed false)),
        unquote?_eq_none_iff.mpr unquoted, unread]

theorem ofTrimmed_eq_iff : ofTrimmed text = value ↔ Writes text value := by
  refine ⟨?_, ofTrimmed_of_writes⟩
  rintro rfl
  exact writes_ofTrimmed text

theorem Spelling.writes (spelling : Spelling value literal) : Writes literal value := by
  cases spelling with
  | int number =>
      have signed := Text.integer?_eq_some_iff.mp (Text.integer?_decimal number)
      have writes := Writes.int signed (Text.inRange_toInt number)
      rwa [Int64.ofInt_toInt] at writes
  | bool truth =>
      apply Writes.bool
      cases truth <;> rfl
  | str text quotes => exact .quoted ⟨_, quotes, rfl⟩

theorem Spelling.trimmed (spelling : Spelling value literal) : Text.Trimmed literal := by
  cases spelling with
  | int number =>
      have trimmed := trimmed_displayQuoted (.int number)
      rwa [toList_displayQuoted_int] at trimmed
  | bool truth => exact trimmed_displayQuoted (.bool truth)
  | str text quotes =>
      have dark : ∀ quote, quote = '\x22' ∨ quote = '\x27' → Text.isBlank quote = false := by
        rintro _ (rfl | rfl)
        · decide
        · decide
      refine ⟨List.cons_ne_nil _ _, ?_, ?_⟩
      · rintro _ ⟨⟩
        exact dark _ quotes
      · rw [← List.cons_append, List.getLast?_concat]
        rintro _ ⟨⟩
        exact dark _ quotes

theorem ofLiteral?_eq_some_iff :
    ofLiteral? text = some value ↔ Text.trim text ≠ [] ∧ Writes (Text.trim text) value := by
  rw [ofLiteral?, ← ofTrimmed_eq_iff]
  split
  · rename_i nothing
    simp [nothing]
  · rename_i something
    simp [something]

theorem ofLiteral?_eq_none_iff : ofLiteral? text = none ↔ Text.trim text = [] := by
  rw [ofLiteral?]
  split
  · rename_i nothing
    simp [nothing]
  · rename_i something
    simp [something]

theorem ofLiteral?_padded {before after : List Char} (spelling : Spelling value literal)
    (blankBefore : ∀ c ∈ before, Text.isBlank c = true)
    (blankAfter : ∀ c ∈ after, Text.isBlank c = true) :
    ofLiteral? (before ++ (literal ++ after)) = some value := by
  have trimmed : Text.trim (before ++ (literal ++ after)) = literal := by
    rw [Text.trim_gap_append blankBefore, spelling.trimmed.trim_append blankAfter]
  rw [ofLiteral?_eq_some_iff, trimmed]
  exact ⟨spelling.trimmed.nonempty, spelling.writes⟩

end Reading

/-- A text writes no value if it is blank, and otherwise the one value that is written by what
trimming leaves of it. Every value can be written, with white space around it or not. -/
theorem ofLiteral?_classifies (text : List Char) :
    (ofLiteral? text = none ↔ Text.trim text = []) ∧
      (∀ value, ofLiteral? text = some value ↔
        Text.trim text ≠ [] ∧ Writes (Text.trim text) value) ∧
      ∀ value literal before after, Spelling value literal →
        (∀ c ∈ before, Text.isBlank c = true) → (∀ c ∈ after, Text.isBlank c = true) →
          ofLiteral? (before ++ (literal ++ after)) = some value :=
  ⟨ofLiteral?_eq_none_iff, fun _ => ofLiteral?_eq_some_iff,
    fun _ _ _ _ spelling blankBefore blankAfter =>
      ofLiteral?_padded spelling blankBefore blankAfter⟩

/-- A text that holds the very quotes it stands in is read back whole. -/
theorem ofLiteral?_classifies_quotes :
    Spelling (.str "a\" \"b") ('\x22' :: ("a\" \"b".toList ++ ['\x22'])) ∧
      (∀ c ∈ ['\t', ' '], Text.isBlank c = true) ∧ (∀ c ∈ ['\n'], Text.isBlank c = true) ∧
      ofLiteral? (['\t', ' '] ++ ('\x22' :: ("a\" \"b".toList ++ ['\x22']) ++ ['\n'])) =
        some (.str "a\" \"b") := by
  have spelling : Spelling (.str "a\" \"b") ('\x22' :: ("a\" \"b".toList ++ ['\x22'])) :=
    .str _ (.inl rfl)
  have blankBefore : ∀ c ∈ ['\t', ' '], Text.isBlank c = true := List.all_eq_true.mp (by decide)
  have blankAfter : ∀ c ∈ ['\n'], Text.isBlank c = true := List.all_eq_true.mp (by decide)
  exact ⟨spelling, blankBefore, blankAfter,
    (ofLiteral?_classifies []).2.2 _ _ _ _ spelling blankBefore blankAfter⟩

/-- The first number beyond the range stays text, sign and all. -/
example : ofLiteral? "+9223372036854775808".toList = some (.str "+9223372036854775808") := by
  decide

end Value

end Tabula
