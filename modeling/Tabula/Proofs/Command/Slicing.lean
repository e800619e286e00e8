import Tabula.Command.Parser
import Tabula.Proofs.Text.Utf8

/-!
# Cutting lines in bytes

The data commands are read by places that count characters. Here they are read by offsets that
count bytes: a keyword is looked for in the bytes of the line with its ASCII capitals made small,
and the line itself is cut at the offsets found. Some cuts are checked, and a line that has no such
part is refused; the last part of a line is taken without a check, and a line without it has no
reading at all. It turns out that the last part is always there, that a checked cut fails only when
its ends are out of order, and that both readings are the same.
-/

namespace Tabula.Command

namespace Bytewise

/-- The line that is read. -/
def input (line : String) : List Char :=
  Text.trim line.toList

def part (line : List Char) (start stop : Nat) : Except Error (List Char) :=
  match Utf8.slice? line start stop with
  | some text => .ok text
  | none => refuse .keywordOrder

def tableBetween (line : List Char) (start stop : Nat) : Except Error String :=
  match part line start stop with
  | .error error => .error error
  | .ok text =>
      let name := Text.trim text
      if name = [] then refuse .missingTable else .ok (String.ofList name)

/-- Everything from an offset on. There is no reading of a line that has no such part. -/
def rest (line : List Char) (start : Nat) : ExceptT Error Option (List Char) :=
  ExceptT.lift (Utf8.slice? line start (Utf8.size line))

/-- The offset of the first white space. -/
def blank? (line : List Char) : Option Nat :=
  (line.findIdx? Text.isBlank).map fun place => Utf8.size (line.take place)

def parseInsert (line : List Char) : ExceptT Error Option Command := do
  match Utf8.offset? intoKeyword line, Utf8.offset? valuesKeyword line with
  | some into, some values =>
      let table ← tableBetween line (into + Utf8.size intoKeyword) values
      let values ← parseValues (← rest line (values + Utf8.size valuesKeyword))
      return .insert table values
  | _, _ => refuse (.usage .insert)

def parseSelect (line : List Char) : ExceptT Error Option Command := do
  match Utf8.offset? fromKeyword line with
  | none => refuse (.usage .select)
  | some source =>
      match Utf8.offset? whereKeyword line with
      | none =>
          let table ← tableBetween line (source + Utf8.size fromKeyword) (Utf8.size line)
          return .select table none
      | some condition =>
          let table ← tableBetween line (source + Utf8.size fromKeyword) condition
          let condition ← Condition.parse (← rest line (condition + Utf8.size whereKeyword))
          return .select table (some (.ofCondition condition))

def parseUpdate (line : List Char) : ExceptT Error Option Command := do
  match Utf8.offset? setKeyword line, Utf8.offset? whereKeyword line, blank? line with
  | some set, some condition, some verbEnd =>
      if set < condition then
        let table ← tableBetween line verbEnd set
        let assignment ← Condition.parse (← part line (set + Utf8.size setKeyword) condition)
        let condition ← Condition.parse (← rest line (condition + Utf8.size whereKeyword))
        return .update table (.ofCondition assignment) (.ofCondition condition)
      else refuse (.usage .update)
  | _, _, _ => refuse (.usage .update)

def parseDelete (line : List Char) : ExceptT Error Option Command := do
  match Utf8.offset? fromKeyword line, Utf8.offset? whereKeyword line with
  | some source, some condition =>
      let table ← tableBetween line (source + Utf8.size fromKeyword) condition
      let condition ← Condition.parse (← rest line (condition + Utf8.size whereKeyword))
      return .delete table (.ofCondition condition)
  | _, _ => refuse (.usage .delete)

/-- Read the command of a verb. Only the data commands cut their line at offsets. -/
def parseVerb (line : List Char) : Verb → ExceptT Error Option Command
  | .insert => parseInsert line
  | .select => parseSelect line
  | .update => parseUpdate line
  | .delete => parseDelete line
  | verb => Command.parseVerb line verb

def parse (line : String) : ExceptT Error Option Command :=
  match Text.blankSeparated (input line) with
  | [] => refuse .emptyCommand
  | first :: _ =>
      let word := String.ofList (Text.foldCase first)
      match Verb.ofWord? word with
      | none => throw (.unknownCommand word)
      | some verb => parseVerb (input line) verb

/-- The keywords at which lines are cut. -/
def keywords : List (List Char) :=
  [intoKeyword, valuesKeyword, fromKeyword, whereKeyword, setKeyword]

/-- The offsets from which the rest of a line is taken without a check. -/
inductive Rests (line : List Char) : Nat → Prop
  | values {values : Nat} (found : Utf8.offset? valuesKeyword line = some values) :
      Rests line (values + Utf8.size valuesKeyword)
  | condition {condition : Nat} (found : Utf8.offset? whereKeyword line = some condition) :
      Rests line (condition + Utf8.size whereKeyword)

/-- The ends of the cuts that are checked. -/
inductive Cuts (line : List Char) : Nat → Nat → Prop
  | insertTable {into values : Nat} (start : Utf8.offset? intoKeyword line = some into)
      (stop : Utf8.offset? valuesKeyword line = some values) :
      Cuts line (into + Utf8.size intoKeyword) values
  | wholeTable {source : Nat} (start : Utf8.offset? fromKeyword line = some source) :
      Cuts line (source + Utf8.size fromKeyword) (Utf8.size line)
  | filteredTable {source condition : Nat} (start : Utf8.offset? fromKeyword line = some source)
      (stop : Utf8.offset? whereKeyword line = some condition) :
      Cuts line (source + Utf8.size fromKeyword) condition
  | updatedTable {verbEnd set : Nat} (start : blank? line = some verbEnd)
      (stop : Utf8.offset? setKeyword line = some set) : Cuts line verbEnd set
  | assignment {set condition : Nat} (start : Utf8.offset? setKeyword line = some set)
      (stop : Utf8.offset? whereKeyword line = some condition) :
      Cuts line (set + Utf8.size setKeyword) condition

/-! ## Keywords -/

theorem ascii_of_mem_keywords {keyword : List Char} (known : keyword ∈ keywords) :
    ∀ c ∈ keyword, c.toNat < 0x80 := by
  have ascii : ∀ keyword ∈ keywords, keyword.all (fun c => decide (c.toNat < 0x80)) = true := by
    decide
  intro c c_mem
  exact of_decide_eq_true (List.all_eq_true.mp (ascii keyword known) c c_mem)

theorem nonempty_of_mem_keywords {keyword : List Char} (known : keyword ∈ keywords) :
    keyword ≠ [] := by
  revert keyword
  decide

section

variable {line : List Char}

theorem offset?_eq {keyword : List Char} (known : keyword ∈ keywords) :
    Utf8.offset? keyword line =
      (Text.position? keyword line).map fun place => Utf8.size (line.take place) :=
  Utf8.offset?_eq (ascii_of_mem_keywords known) (nonempty_of_mem_keywords known)

/-! ## Parts -/

theorem part_eq {start stop : Nat} (start_le : start ≤ line.length)
    (stop_le : stop ≤ line.length) :
    part line (Utf8.size (line.take start)) (Utf8.size (line.take stop)) =
      Command.part line start stop := by
  rw [part, Utf8.slice?_size_take start_le stop_le]
  rfl

theorem tableBetween_eq {start stop : Nat} (start_le : start ≤ line.length)
    (stop_le : stop ≤ line.length) :
    tableBetween line (Utf8.size (line.take start)) (Utf8.size (line.take stop)) =
      Command.tableBetween line start stop := by
  rw [tableBetween, part_eq start_le stop_le]
  rfl

theorem rest_eq {start : Nat} (start_le : start ≤ line.length) :
    rest line (Utf8.size (line.take start)) = pure (line.drop start) := by
  have cut := Utf8.slice?_size_take start_le (Nat.le_refl line.length)
  rw [List.take_length] at cut
  rw [rest, cut, Text.slice?, if_pos ⟨start_le, Nat.le_refl _⟩, List.take_of_length_le]
  · rfl
  · rw [List.length_drop]

theorem part_keyword_eq {keyword : List Char} (known : keyword ∈ keywords) {place stop : Nat}
    (found : Text.position? keyword line = some place) (stop_le : stop ≤ line.length) :
    part line (Utf8.size (line.take place) + Utf8.size keyword) (Utf8.size (line.take stop)) =
      Command.part line (place + keyword.length) stop := by
  have ends := Utf8.size_take_add_length (nonempty_of_mem_keywords known) found
  rw [← ends.2, part_eq ends.1 stop_le]

theorem tableBetween_keyword_eq {keyword : List Char} (known : keyword ∈ keywords)
    {place stop : Nat} (found : Text.position? keyword line = some place)
    (stop_le : stop ≤ line.length) :
    tableBetween line (Utf8.size (line.take place) + Utf8.size keyword)
        (Utf8.size (line.take stop)) =
      Command.tableBetween line (place + keyword.length) stop := by
  have ends := Utf8.size_take_add_length (nonempty_of_mem_keywords known) found
  rw [← ends.2, tableBetween_eq ends.1 stop_le]

theorem rest_keyword_eq {keyword : List Char} (known : keyword ∈ keywords) {place : Nat}
    (found : Text.position? keyword line = some place) :
    rest line (Utf8.size (line.take place) + Utf8.size keyword) =
      pure (line.drop (place + keyword.length)) := by
  have ends := Utf8.size_take_add_length (nonempty_of_mem_keywords known) found
  rw [← ends.2, rest_eq ends.1]

/-! ## Commands -/

theorem parseInsert_eq : parseInsert line = liftM (Command.parseInsert line) := by
  rw [parseInsert, Command.parseInsert]
  simp (disch := decide) only [offset?_eq]
  cases start : Text.position? intoKeyword line with
  | none => rfl
  | some into =>
      cases stop : Text.position? valuesKeyword line with
      | none => rfl
      | some values =>
          have inside := (Text.prefix_of_position? stop).1
          simp only [Option.map_some, tableBetween_keyword_eq (by decide) start inside,
            rest_keyword_eq (by decide) stop, pure_bind, liftM_bind, liftM_pure]

theorem parseSelect_eq : parseSelect line = liftM (Command.parseSelect line) := by
  rw [parseSelect, Command.parseSelect]
  simp (disch := decide) only [offset?_eq]
  cases start : Text.position? fromKeyword line with
  | none => rfl
  | some source =>
      cases stop : Text.position? whereKeyword line with
      | none =>
          have table := tableBetween_keyword_eq (by decide) start (Nat.le_refl line.length)
          rw [List.take_length] at table
          simp only [Option.map_some, Option.map_none, table, liftM_bind, liftM_pure]
      | some condition =>
          have inside := (Text.prefix_of_position? stop).1
          simp only [Option.map_some, tableBetween_keyword_eq (by decide) start inside,
            rest_keyword_eq (by decide) stop, pure_bind, liftM_bind, liftM_pure]

theorem parseUpdate_eq : parseUpdate line = liftM (Command.parseUpdate line) := by
  rw [parseUpdate, Command.parseUpdate, blank?]
  simp (disch := decide) only [offset?_eq]
  cases middle : Text.position? setKeyword line with
  | none => rfl
  | some set =>
      cases stop : Text.position? whereKeyword line with
      | none => rfl
      | some condition =>
          cases start : line.findIdx? Text.isBlank with
          | none => rfl
          | some verbEnd =>
              have condition_le := (Text.prefix_of_position? stop).1
              have set_le := (Text.prefix_of_position? middle).1
              have verbEnd_le := Nat.le_of_lt (List.findIdx?_eq_some_iff_getElem.mp start).1
              -- The guard compares offsets, which are in the order of the places.
              simp only [Option.map_some, Utf8.size_take_lt_iff condition_le]
              split
              · simp only [tableBetween_eq verbEnd_le set_le,
                  part_keyword_eq (by decide) middle condition_le,
                  rest_keyword_eq (by decide) stop, pure_bind, liftM_bind, liftM_pure]
              · rfl

theorem parseDelete_eq : parseDelete line = liftM (Command.parseDelete line) := by
  rw [parseDelete, Command.parseDelete]
  simp (disch := decide) only [offset?_eq]
  cases start : Text.position? fromKeyword line with
  | none => rfl
  | some source =>
      cases stop : Text.position? whereKeyword line with
      | none => rfl
      | some condition =>
          have inside := (Text.prefix_of_position? stop).1
          simp only [Option.map_some, tableBetween_keyword_eq (by decide) start inside,
            rest_keyword_eq (by decide) stop, pure_bind, liftM_bind, liftM_pure]

theorem parseVerb_eq (verb : Verb) :
    parseVerb line verb = liftM (Command.parseVerb line verb) := by
  cases verb with
  | insert => exact parseInsert_eq
  | select => exact parseSelect_eq
  | update => exact parseUpdate_eq
  | delete => exact parseDelete_eq
  | _ => rfl

end

theorem parse_eq (line : String) : parse line = liftM (Command.parse line) := by
  rw [parse, Command.parse, Command.parseTrimmed, input]
  cases Text.blankSeparated (Text.trim line.toList) with
  | nil => rfl
  | cons first others =>
      cases known : Verb.ofWord? (String.ofList (Text.foldCase first)) with
      | none => simp only [known]; rfl
      | some verb => simp only [known, parseVerb_eq]

section

variable {line : List Char}

theorem between_of_blank? {offset : Nat} (found : blank? line = some offset) :
    Utf8.Between line offset := by
  rw [blank?, Option.map_eq_some_iff] at found
  rcases found with ⟨place, located, rfl⟩
  exact ⟨place, Nat.le_of_lt (List.findIdx?_eq_some_iff_getElem.mp located).1, rfl⟩

theorem between_of_offset? {keyword : List Char} (known : keyword ∈ keywords) {offset : Nat}
    (found : Utf8.offset? keyword line = some offset) :
    Utf8.Between line offset ∧ Utf8.Between line (offset + Utf8.size keyword) :=
  Utf8.between_of_offset? (ascii_of_mem_keywords known) (nonempty_of_mem_keywords known) found

theorem Rests.between {start : Nat} (taken : Rests line start) : Utf8.Between line start := by
  cases taken with
  | values found => exact (between_of_offset? (by decide) found).2
  | condition found => exact (between_of_offset? (by decide) found).2

theorem Cuts.between {start stop : Nat} (cut : Cuts line start stop) :
    Utf8.Between line start ∧ Utf8.Between line stop := by
  cases cut with
  | insertTable into values =>
      exact ⟨(between_of_offset? (by decide) into).2,
        (between_of_offset? (by decide) values).1⟩
  | wholeTable source =>
      exact ⟨(between_of_offset? (by decide) source).2, Utf8.between_size line⟩
  | filteredTable source condition =>
      exact ⟨(between_of_offset? (by decide) source).2,
        (between_of_offset? (by decide) condition).1⟩
  | updatedTable verbEnd set =>
      exact ⟨between_of_blank? verbEnd, (between_of_offset? (by decide) set).1⟩
  | assignment set condition =>
      exact ⟨(between_of_offset? (by decide) set).2,
        (between_of_offset? (by decide) condition).1⟩

end

end Bytewise

/-- Reading a line never takes a part of it that is not there: what follows a keyword begins and
ends between characters of the line, and a checked cut fails only when its ends are out of order.
The places at which a keyword is found in the bytes with small letters are those at which it occurs
in the line, in any case, and the search finds the first. -/
theorem slices_sound (line : String) :
    (Bytewise.parse line).run = some (parse line) ∧
      (∀ start, Bytewise.Rests (Bytewise.input line) start →
        start ≤ Utf8.size (Bytewise.input line) ∧
          Utf8.isBoundary (Utf8.encode (Bytewise.input line)) start = true ∧
          Utf8.isBoundary (Utf8.encode (Bytewise.input line)) (Utf8.size (Bytewise.input line)) =
            true) ∧
      (∀ start stop, Bytewise.Cuts (Bytewise.input line) start stop →
        (Utf8.slice? (Bytewise.input line) start stop = none ↔ stop < start)) ∧
      ∀ keyword ∈ Bytewise.keywords, ∀ offset,
        (Utf8.encode keyword <+:
            ((Utf8.encode (Bytewise.input line)).map Utf8.foldByte).drop offset ↔
          Utf8.OccursAt keyword (Bytewise.input line) offset) ∧
        (Utf8.offset? keyword (Bytewise.input line) = some offset ↔
          Utf8.OccursAt keyword (Bytewise.input line) offset ∧
            ∀ other, Utf8.OccursAt keyword (Bytewise.input line) other → offset ≤ other) := by
  refine ⟨?_, fun start taken => ?_, fun start stop cut => ?_, fun keyword known offset => ?_⟩
  · rw [Bytewise.parse_eq]
    rfl
  · exact ⟨taken.between.le_size, taken.between.isBoundary,
      (Utf8.between_size _).isBoundary⟩
  · exact Utf8.slice?_eq_none_iff cut.between.1 cut.between.2
  · have ascii := Bytewise.ascii_of_mem_keywords known
    have nonempty := Bytewise.nonempty_of_mem_keywords known
    exact ⟨Utf8.encode_prefix_drop_map_iff ascii nonempty,
      Utf8.offset?_eq_some_iff ascii nonempty⟩

/-- In this line the condition stands before the table, and two of its letters take two bytes. -/
theorem slices_sound_crossed :
    let line := "delete where ß = 1 from é"
    (Bytewise.parse line).run = some (parse line) ∧
      Bytewise.Rests (Bytewise.input line) 13 ∧ 13 ≤ Utf8.size (Bytewise.input line) ∧
      Bytewise.Cuts (Bytewise.input line) 25 6 ∧
      Utf8.slice? (Bytewise.input line) 25 6 = none ∧
      fromKeyword ∈ Bytewise.keywords ∧ Utf8.OccursAt fromKeyword (Bytewise.input line) 20 := by
  intro line
  obtain ⟨read, rests, cuts, searched⟩ := slices_sound line
  have source : Utf8.offset? fromKeyword (Bytewise.input line) = some 20 := by decide +kernel
  have condition : Utf8.offset? whereKeyword (Bytewise.input line) = some 6 := by decide +kernel
  have known : fromKeyword ∈ Bytewise.keywords := by decide
  have taken := Bytewise.Rests.condition condition
  have cut := Bytewise.Cuts.filteredTable source condition
  exact ⟨read, taken, (rests 13 taken).1, cut, (cuts 25 6 cut).mpr (by decide),
    known, ((searched fromKeyword known 20).2.mp source).1⟩

end Tabula.Command
