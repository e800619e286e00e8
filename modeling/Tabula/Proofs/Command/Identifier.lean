import Tabula.Proofs.Command.Parser
import Tabula.Proofs.Text.Words.Ending

/-!
# Commands on identifiers

A command on identifiers is read from the quoted words of its line, but only after the white space
around the line has been taken away. White space before a line has no part in its words, and white
space behind it has none unless a backslash escapes it. So the words of the whole line decide what
is read, except where the last word ends in escaped white space: such a line has words, but it is
refused for the backslash that trimming leaves at its end.
-/

namespace Tabula

namespace Text

/-- The white space at the end of the text begins with an escaped character, which belongs to the
last word. -/
def EndsInEscapedBlank (text : List Char) : Prop :=
  ∃ left c right, text = left ++ '\\' :: c :: right ∧ Complete left ∧ isBlank c = true ∧
    ∀ other ∈ right, isBlank other = true

/-! ## White space around a line -/

section Padding

variable {text gap after inside : List Char} {found : List (List Char)} {opened : Nat} {quote : Char}

theorem words_gap_append_eq_ok_iff (blank : ∀ c ∈ gap, isBlank c = true) :
    words (gap ++ text) = .ok found ↔ words text = .ok found := by
  rw [words_gap_append_eq blank]
  cases words text <;> simp

theorem endsInEscape_gap_append_iff (blank : ∀ c ∈ gap, isBlank c = true) :
    EndsInEscape (gap ++ text) ↔ EndsInEscape text := by
  rw [← words_eq_danglingEscape_iff, ← words_eq_danglingEscape_iff, words_gap_append_eq blank]
  cases words text with
  | ok found => simp
  | error fault => cases fault <;> simp [WordFault.moved]

theorem Complete.gap_append (blank : ∀ c ∈ gap, isBlank c = true) (complete : Complete text) :
    Complete (gap ++ text) := by
  induction gap with
  | nil => exact complete
  | cons c gap ih =>
      rw [List.forall_mem_cons] at blank
      rcases ih blank.2 with ⟨segments, whole⟩
      refine ⟨.blank c blank.1 :: segments, ?_⟩
      rw [List.cons_append, whole, List.flatMap_cons]
      rfl

/-- White space between double quotes denotes itself. -/
theorem encloses_of_blank (blank : ∀ c ∈ after, isBlank c = true) : Encloses after after := by
  induction after with
  | nil => exact .nil
  | cons c after ih =>
      rw [List.forall_mem_cons] at blank
      refine .plain ?_ ?_ (ih blank.2)
      · rintro rfl
        exact absurd blank.1 (by decide)
      · rintro rfl
        exact absurd blank.1 (by decide)

theorem Unclosed.append_blank (unclosed : Unclosed quote inside)
    (blank : ∀ c ∈ after, isBlank c = true) : Unclosed quote (inside ++ after) := by
  cases unclosed with
  | single unquoted =>
      refine .single ?_
      rw [List.mem_append, not_or]
      exact ⟨unquoted, fun quote_mem => absurd (blank _ quote_mem) (by decide)⟩
  | double encloses => exact .double (encloses.append (encloses_of_blank blank))
  | @doubleEscaped raw _ encloses =>
      cases after with
      | nil =>
          rw [List.append_nil]
          exact .doubleEscaped encloses
      | cons c after =>
          -- The white space is not escaped here, so that the backslash denotes itself.
          rw [List.forall_mem_cons] at blank
          have ordinary : ¬(c = '\x22' ∨ c = '\\') := by
            rintro (rfl | rfl)
            · exact absurd blank.1 (by decide)
            · exact absurd blank.1 (by decide)
          rw [List.append_assoc]
          exact .double (encloses.append (.backslash ordinary (encloses_of_blank blank.2)))

theorem EndsInQuotation.append_blank (ends : EndsInQuotation text opened)
    (blank : ∀ c ∈ after, isBlank c = true) : EndsInQuotation (text ++ after) opened := by
  rcases ends with ⟨left, quote, inside, rfl, rfl, complete, unclosed⟩
  refine ⟨left, quote, inside ++ after, ?_, rfl, complete, unclosed.append_blank blank⟩
  rw [List.append_assoc, List.cons_append]

/-- Trimming leaves the backslash that escaped the white space. -/
theorem EndsInEscapedBlank.endsInEscape_trim (ends : EndsInEscapedBlank text) :
    EndsInEscape (trim text) := by
  rcases ends with ⟨left, c, right, rfl, complete, blank, allBlank⟩
  have trimmed : trim (left ++ '\\' :: c :: right) = trim (left ++ ['\\']) := by
    rw [List.append_cons]
    exact trim_append_of_blank (List.forall_mem_cons.mpr ⟨blank, allBlank⟩) _
  rcases exists_append_trim (left ++ ['\\']) with ⟨before, after, whole, blankBefore, blankAfter⟩
  have stops : after = [] := by
    rcases after.eq_nil_or_concat with rfl | ⟨init, last, rfl⟩
    · rfl
    · rw [List.concat_eq_append] at whole blankAfter
      rw [← List.append_assoc, ← List.append_assoc] at whole
      have same := (List.append_inj' whole rfl).2
      have lastBlank := blankAfter last List.mem_concat_self
      rw [← (List.cons.inj same).1] at lastBlank
      exact absurd lastBlank (by decide)
  rw [stops, List.append_nil] at whole
  have ends : EndsInEscape (left ++ ['\\']) := ⟨left, rfl, complete⟩
  rw [whole, endsInEscape_gap_append_iff blankBefore] at ends
  rwa [trimmed]

/-- The words of a trimmed line are those of the line, unless the line ends in escaped white
space. -/
theorem words_trim_eq_ok_iff :
    words (trim text) = .ok found ↔ words text = .ok found ∧ ¬EndsInEscapedBlank text := by
  rcases exists_append_trim text with ⟨before, after, whole, blankBefore, blankAfter⟩
  have wordsOf : words text = words (before ++ (trim text ++ after)) := congrArg words whole
  have kept {found : List (List Char)} (read : words (trim text) = .ok found) :
      words text = .ok found := by
    rw [wordsOf, words_gap_append_eq_ok_iff blankBefore]
    by_cases ended : after = []
    · rwa [ended, List.append_nil]
    · simpa using words_append_gap ended blankAfter read words_nil
  constructor
  · intro read
    refine ⟨kept read, fun ends => ?_⟩
    rw [words_of_endsInEscape ends.endsInEscape_trim] at read
    cases read
  · rintro ⟨read, unescaped⟩
    cases trimmed : words (trim text) with
    | ok other =>
        rw [← read, kept trimmed]
    | error fault =>
        exfalso
        rw [wordsOf, words_gap_append_eq_ok_iff blankBefore] at read
        rcases ends_of_words trimmed with ⟨opened, -, ends⟩ | ⟨-, ends⟩
        · rw [words_of_endsInQuotation (ends.append_blank blankAfter)] at read
          cases read
        · cases after with
          | nil =>
              rw [List.append_nil, trimmed] at read
              cases read
          | cons c after =>
              rcases ends with ⟨left, written, complete⟩
              rw [List.forall_mem_cons] at blankAfter
              refine unescaped ⟨before ++ left, c, after, ?_, complete.gap_append blankBefore,
                blankAfter⟩
              rw [whole, written]
              simp

end Padding

/-! ## The first word -/

section FirstWord

variable {text word : List Char} {others found : List (List Char)}

/-- A character that is itself outside quotes. -/
structure Ordinary (c : Char) : Prop where
  dark : isBlank c = false
  single : c ≠ '\x27'
  double : c ≠ '\x22'
  backslash : c ≠ '\\'

theorem words_of_ordinary (nonempty : word ≠ []) (ordinary : ∀ c ∈ word, Ordinary c) :
    words word = .ok [word] := by
  have spelled : ∃ pieces : List Piece, pieces.flatMap Piece.spelling = word ∧
      pieces.flatMap Piece.meaning = word := by
    clear nonempty
    induction word with
    | nil => exact ⟨[], rfl, rfl⟩
    | cons c word ih =>
        rw [List.forall_mem_cons] at ordinary
        rcases ih ordinary.2 with ⟨pieces, spelling, meaning⟩
        rcases ordinary.1 with ⟨dark, single, double, backslash⟩
        refine ⟨.plain c dark single double backslash :: pieces, ?_, ?_⟩
        · rw [List.flatMap_cons, spelling]
          rfl
        · rw [List.flatMap_cons, meaning]
          rfl
  rcases spelled with ⟨pieces, spelling, meaning⟩
  have present : pieces ≠ [] := by
    rintro rfl
    exact nonempty spelling.symm
  have read := words_pieces present
  rwa [spelling, meaning] at read

theorem exists_append_of_first_word (first : blankSeparated text = word :: others) :
    ∃ before after, text = before ++ (word ++ after) ∧ (∀ c ∈ before, isBlank c = true) ∧
      ∀ c ∈ after.head?, isBlank c = true := by
  have blank : ∀ c ∈ text.takeWhile isBlank, isBlank c = true := fun _ => List.mem_takeWhile_imp
  have whole : text.takeWhile isBlank ++ trimStart text = text := List.takeWhile_append_dropWhile
  rw [← whole, blankSeparated_append_of_blank blank] at first
  rcases exists_append_of_blankSeparated (fun _ => isBlank_head_trimStart) first with
    ⟨after, written, apart⟩
  refine ⟨_, after, ?_, blank, apart⟩
  rw [← written, whole]

/-- A first word without quotes and backslashes is the first of the quoted words. -/
theorem head?_words (first : blankSeparated text = word :: others) (nonempty : word ≠ [])
    (ordinary : ∀ c ∈ word, Ordinary c) (read : words text = .ok found) :
    found.head? = some word := by
  rcases exists_append_of_first_word first with ⟨before, after, rfl, blank, apart⟩
  have alone := words_of_ordinary nonempty ordinary
  rw [words_gap_append_eq_ok_iff blank] at read
  cases after with
  | nil =>
      rw [List.append_nil, alone, Except.ok.injEq] at read
      rw [← read]
      rfl
  | cons c after =>
      rw [words_append_blank (apart c rfl) alone] at read
      split at read
      · cases read
        rfl
      · cases read

end FirstWord

end Text

theorem Verb.ordinary_of_mem_spelled {verb : Verb} {word : List Char}
    (spelled : Text.foldCase word = verb.word.toList) {c : Char} (c_mem : c ∈ word) :
    Text.Ordinary c := by
  have lower_mem : c.toLower ∈ verb.word.toList := by
    rw [← spelled]
    exact List.mem_map_of_mem c_mem
  refine ⟨isBlank_of_mem_spelled spelled c_mem, ?_, ?_, ?_⟩
  all_goals
    rintro rfl
    revert lower_mem
    cases verb <;> decide

namespace Command

/-- What the quoted words of a line say. The first of them is the verb. -/
inductive OfWords : List String → Command → Prop
  | createTable {verb table : String} {definitions : List String} (some : definitions ≠ []) :
      OfWords (verb :: table :: definitions) (.createTable table definitions)
  | dropTable {verb table : String} : OfWords [verb, table] (.dropTable table)
  | info {verb table : String} : OfWords [verb, table] (.info table)

def identifierVerbs : List Verb :=
  [.createTable, .dropTable, .info]

section

variable {text : List Char} {found : List String} {verb : Verb} {command : Command}

theorem quotedWords_eq_ok_iff :
    quotedWords text = .ok found ↔
      ∃ read, Text.words text = .ok read ∧ read.map String.ofList = found := by
  rw [quotedWords]
  cases Text.words text <;> simp [refuse]

theorem quotedWords_trim_eq_ok_iff :
    quotedWords (Text.trim text) = .ok found ↔
      quotedWords text = .ok found ∧ ¬Text.EndsInEscapedBlank text := by
  simp only [quotedWords_eq_ok_iff, Text.words_trim_eq_ok_iff]
  constructor
  · rintro ⟨read, ⟨ofLine, unescaped⟩, same⟩
    exact ⟨⟨read, ofLine, same⟩, unescaped⟩
  · rintro ⟨⟨read, ofLine, same⟩, unescaped⟩
    exact ⟨read, ⟨ofLine, unescaped⟩, same⟩

theorem parseTable_eq_ok_iff {table : String} :
    parseTable text = .ok table ↔ ∃ verb, quotedWords text = .ok [verb, table] := by
  rw [parseTable, bind_eq_ok_iff]
  constructor
  · rintro ⟨found, read, named⟩
    split at named
    · cases named
      exact ⟨_, read⟩
    · cases named
    · cases named
  · rintro ⟨verb, read⟩
    exact ⟨_, read, rfl⟩

theorem map_parseTable_eq_ok_iff {make : String → Command} :
    (parseTable text).map make = .ok command ↔
      ∃ verb table, quotedWords text = .ok [verb, table] ∧ make table = command := by
  have mapped : (parseTable text).map make = .ok command ↔
      ∃ table, parseTable text = .ok table ∧ make table = command := by
    cases parseTable text <;> simp [Except.map]
  simp only [mapped, parseTable_eq_ok_iff]
  constructor
  · rintro ⟨table, ⟨verb, read⟩, made⟩
    exact ⟨verb, table, read, made⟩
  · rintro ⟨verb, table, read, made⟩
    exact ⟨table, ⟨verb, read⟩, made⟩

theorem parseCreateTable_eq_ok_iff :
    parseCreateTable text = .ok command ↔ ∃ verb table definitions, definitions ≠ [] ∧
      quotedWords text = .ok (verb :: table :: definitions) ∧
        command = .createTable table definitions := by
  rw [parseCreateTable, bind_eq_ok_iff]
  constructor
  · rintro ⟨found, read, named⟩
    split at named
    · cases named
      exact ⟨_, _, _, List.cons_ne_nil _ _, read, rfl⟩
    · cases named
  · rintro ⟨verb, table, definitions, some, read, rfl⟩
    rcases List.exists_cons_of_ne_nil some with ⟨definition, rest, rfl⟩
    exact ⟨_, read, rfl⟩

/-- The parser of a verb makes of the quoted words what they say. -/
theorem parseVerb_eq_ok_iff_ofWords (identifier : verb ∈ identifierVerbs) :
    parseVerb text verb = .ok command ↔
      command.verb = verb ∧ ∃ found, quotedWords text = .ok found ∧ OfWords found command := by
  simp only [identifierVerbs, List.mem_cons, List.not_mem_nil, or_false] at identifier
  rcases identifier with rfl | rfl | rfl
  · rw [parseVerb, parseCreateTable_eq_ok_iff]
    constructor
    · rintro ⟨verb, table, definitions, some, read, rfl⟩
      exact ⟨rfl, _, read, .createTable some⟩
    · rintro ⟨sameVerb, found, read, meant⟩
      cases meant with
      | createTable some => exact ⟨_, _, _, some, read, rfl⟩
      | dropTable | info => cases sameVerb
  · rw [parseVerb, map_parseTable_eq_ok_iff]
    constructor
    · rintro ⟨verb, table, read, rfl⟩
      exact ⟨rfl, _, read, .dropTable⟩
    · rintro ⟨sameVerb, found, read, meant⟩
      cases meant with
      | dropTable => exact ⟨_, _, read, rfl⟩
      | createTable | info => cases sameVerb
  · rw [parseVerb, map_parseTable_eq_ok_iff]
    constructor
    · rintro ⟨verb, table, read, rfl⟩
      exact ⟨rfl, _, read, .info⟩
    · rintro ⟨sameVerb, found, read, meant⟩
      cases meant with
      | info => exact ⟨_, _, read, rfl⟩
      | createTable | dropTable => cases sameVerb

theorem parseVerb_of_words_eq_error {fault : Text.WordFault} (identifier : verb ∈ identifierVerbs)
    (failed : Text.words text = .error fault) : parseVerb text verb = refuse (.words fault) := by
  have refused : quotedWords text = refuse (.words fault) := by
    rw [quotedWords, failed]
  simp only [identifierVerbs, List.mem_cons, List.not_mem_nil, or_false] at identifier
  rcases identifier with rfl | rfl | rfl
  · rw [parseVerb, parseCreateTable, refused]
    rfl
  · rw [parseVerb, parseTable, refused]
    rfl
  · rw [parseVerb, parseTable, refused]
    rfl

end

theorem parse_eq_parseVerb_of_first_word {line : String} {word : List Char}
    {others : List (List Char)} {verb : Verb}
    (first : Text.blankSeparated line.toList = word :: others)
    (spelled : Text.foldCase word = verb.word.toList) :
    parse line = parseVerb (Text.trim line.toList) verb := by
  rw [← Text.blankSeparated_trim] at first
  have nonempty : Text.trim line.toList ≠ [] := by
    intro nothing
    rw [nothing] at first
    cases first
  rcases Text.exists_append_of_blankSeparated (Text.trimmed_trim nonempty).head first with
    ⟨after, written, apart⟩
  exact parse_eq_parseVerb_of_trim written spelled apart

/-- A line of a command on identifiers is read as what its quoted words say, the first of which is
the verb as it is spelled, unless the line ends in escaped white space. Then it is refused for a
backslash without a character after it. -/
theorem parse_eq_ok_iff_ofWords {line : String} {word : List Char} {others : List (List Char)}
    {verb : Verb} (identifier : verb ∈ identifierVerbs)
    (first : Text.blankSeparated line.toList = word :: others)
    (spelled : Text.foldCase word = verb.word.toList) :
    (∀ command, parse line = .ok command ↔
      command.verb = verb ∧
        (∃ found, quotedWords line.toList = .ok found ∧ OfWords found command) ∧
          ¬Text.EndsInEscapedBlank line.toList) ∧
      (∀ found, quotedWords line.toList = .ok found → found.head? = some (String.ofList word)) ∧
        (Text.EndsInEscapedBlank line.toList →
          parse line = refuse (.words .danglingEscape)) := by
  rw [parse_eq_parseVerb_of_first_word first spelled]
  refine ⟨fun command => ?_, fun found read => ?_, fun ends => ?_⟩
  · rw [parseVerb_eq_ok_iff_ofWords identifier]
    simp only [quotedWords_trim_eq_ok_iff]
    constructor
    · rintro ⟨sameVerb, found, ⟨read, unescaped⟩, meant⟩
      exact ⟨sameVerb, ⟨found, read, meant⟩, unescaped⟩
    · rintro ⟨sameVerb, ⟨found, read, meant⟩, unescaped⟩
      exact ⟨sameVerb, found, ⟨read, unescaped⟩, meant⟩
  · rcases quotedWords_eq_ok_iff.mp read with ⟨raw, rawRead, rfl⟩
    have nonempty := (Verb.trimmed_spelled spelled).nonempty
    have ordinary : ∀ c ∈ word, Text.Ordinary c := fun _ => Verb.ordinary_of_mem_spelled spelled
    rw [List.head?_map, Text.head?_words first nonempty ordinary rawRead, Option.map_some]
  · exact parseVerb_of_words_eq_error identifier
      (Text.words_of_endsInEscape ends.endsInEscape_trim)

/-- The escaped space stands inside the name, and the white space around the line does not count. -/
theorem parse_eq_ok_iff_ofWords_space :
    Verb.info ∈ identifierVerbs ∧
      Text.blankSeparated "\tINFO a\\ b ".toList = ["INFO".toList, "a\\".toList, "b".toList] ∧
      Text.foldCase "INFO".toList = Verb.info.word.toList ∧
      parse "\tINFO a\\ b " = .ok (.info "a b") ∧
      ¬Text.EndsInEscapedBlank "\tINFO a\\ b ".toList := by
  have identifier : Verb.info ∈ identifierVerbs := by decide
  have first : Text.blankSeparated "\tINFO a\\ b ".toList =
      ["INFO".toList, "a\\".toList, "b".toList] := by
    decide
  have spelled : Text.foldCase "INFO".toList = Verb.info.word.toList := by decide
  have read : parse "\tINFO a\\ b " = .ok (.info "a b") := by decide
  have asked := (parse_eq_ok_iff_ofWords identifier first spelled).1 (.info "a b")
  exact ⟨identifier, first, spelled, read, (asked.mp read).2.2⟩

/-- The words of the line are a verb and a table, but the space that ends the name of the table is
trimmed away. -/
theorem exists_escaped_space_refused :
    Text.blankSeparated "info a\\ ".toList = ["info".toList, "a\\".toList] ∧
      quotedWords "info a\\ ".toList = .ok ["info", "a "] ∧
      parse "info a\\ " ≠ .ok (.info "a ") := by
  decide

end Command

end Tabula
