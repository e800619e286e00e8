import Tabula.Proofs.Command.Insertable

/-!
# Lines that are accepted

The keyword behind the verb of a command on data is looked for in all of the line, and so is the
keyword behind its table. Hence a line may say anything between its verb and the first of them, and
it is ignored, as long as it mentions neither. What stands behind the first keyword is never
ignored: up to the first occurrence of the second it is the table, and from there on the values or
the condition. Neither keyword is looked for as a word, except for the white space that is part of
it.
-/

namespace Tabula

namespace Text

theorem eq_space_of_toLower {c : Char} (small : c.toLower = ' ') : c = ' ' := by
  unfold Char.toLower at small
  split at small
  · rename_i capital
    have codes := congrArg (fun c : Char => c.val.toNat) small
    have upper : c.val.toNat ≤ 90 := capital.2
    have lower : 65 ≤ c.val.toNat := capital.1
    simp only [UInt32.toNat_add] at codes
    change (c.val.toNat + 32) % 4294967296 = 32 at codes
    omega
  · exact small

/-- A keyword with a space behind it is cut out with that space. -/
theorem CutAt.exists_link {link text before after : List Char}
    (cut : CutAt (link ++ [' ']) text before after) :
    ∃ spelling, text = before ++ (spelling ++ ' ' :: after) ∧ foldCase spelling = link := by
  rcases cut with ⟨spelling, whole, spelled, -⟩
  rcases List.eq_nil_or_concat spelling with rfl | ⟨spelling, c, rfl⟩
  · simp at spelled
  · simp only [List.concat_eq_append, foldCase_append, foldCase_cons, foldCase_nil] at spelled
    rcases List.append_inj' spelled rfl with ⟨linked, space⟩
    rw [eq_space_of_toLower (List.singleton_inj.mp space)] at whole
    exact ⟨spelling, by simpa using whole, linked⟩

theorem CutAt.not_mentions {keyword text before after : List Char}
    (cut : CutAt keyword text before after) : ¬ Mentions before keyword := by
  rcases cut with ⟨spelling, -, -, first⟩
  exact fun mentioned => first (mentioned.of_infix (List.prefix_append _ _).isInfix)

end Text

namespace Command

open Text (Trimmed Mentions CutAt)

/-! ## What a line means -/

/-- The word behind the verb of a command on data, and the keyword behind the table. -/
inductive Linked : Verb → List Char → List Char → Prop
  | insert : Linked .insert "into".toList valuesKeyword
  | select : Linked .select "from".toList whereKeyword
  | delete : Linked .delete "from".toList whereKeyword

/-- A text names a table, with white space around the name or not. -/
def Names (text : List Char) (table : String) : Prop :=
  Text.trim text = table.toList ∧ table.toList ≠ []

/-- What a text behind the first keyword of a command on data means. -/
inductive Means (text : List Char) : Command → Prop
  | insert {name rest : List Char} {table : String} {row : List Value}
      (cut : CutAt valuesKeyword text name rest) (named : Names name table)
      (valued : parseValues rest = .ok row) : Means text (.insert table row)
  /-- A select without a condition. -/
  | select {table : String} (uncut : ¬ Mentions text whereKeyword) (named : Names text table) :
      Means text (.select table none)
  | selectWhere {name rest : List Char} {table : String} {condition : Condition}
      (cut : CutAt whereKeyword text name rest) (named : Names name table)
      (tested : Condition.parse rest = .ok condition) :
      Means text (.select table (some (.ofCondition condition)))
  | deleteWhere {name rest : List Char} {table : String} {condition : Condition}
      (cut : CutAt whereKeyword text name rest) (named : Names name table)
      (tested : Condition.parse rest = .ok condition) :
      Means text (.delete table (.ofCondition condition))

/-- A line begins with a verb, and something is passed over between the verb and the first
occurrence of the word behind it. -/
structure Skips (line : String) (verb : Verb) (link closing skipped rest : List Char) : Prop where
  /-- The verb is a word of its own, and the word behind it has a space behind it. -/
  begins : ∃ word after, Text.trim line.toList = word ++ after ∧
    Text.foldCase word = verb.word.toList ∧ (∀ c ∈ after.head?, Text.isBlank c = true) ∧
      CutAt (link ++ [' ']) after skipped rest
  /-- What is passed over does not mention the keyword behind the table. -/
  clean : ¬ Mentions skipped closing

/-! ## Behind the first keyword -/

section

variable {left rest : List Char} {table : String}

/-- The space that ends the first keyword may be read as part of the name behind it. -/
theorem tableBetween_iff_names {name after : List Char} {stop : Nat}
    (written : ' ' :: rest = name ++ after) (stops : stop = name.length + left.length) :
    tableBetween (left ++ ' ' :: rest) (left.length + 1) stop = .ok table ↔ Names name table := by
  cases name with
  | nil =>
      constructor
      · intro read
        rcases tableBetween_eq_ok_iff.mp read with ⟨text, parted, -⟩
        have ordered := (part_eq_ok_iff.mp parted).1
        simp only [List.length_nil] at stops
        omega
      · rintro ⟨trimmed, nonempty⟩
        exact absurd trimmed.symm nonempty
  | cons c name =>
      rw [List.cons_append, List.cons.injEq] at written
      rcases written with ⟨rfl, rfl⟩
      have whole : left ++ ' ' :: (name ++ after) = (left ++ [' ']) ++ (name ++ after) := by simp
      have parted : part (left ++ ' ' :: (name ++ after)) (left.length + 1) stop = .ok name := by
        apply part_of_append whole
        · simp
        · rw [stops, List.length_cons]
          omega
      rw [tableBetween_eq_ok_iff, Names, Text.trim_cons_of_isBlank rfl]
      simp only [parted, Except.ok.injEq, exists_eq_left']

theorem exists_stop_iff_exists_cut {keyword : List Char} (reads : List Char → Prop)
    (nonempty : keyword ≠ [])
    (closes : Text.position? keyword (left ++ ' ' :: rest) =
      (Text.position? keyword (' ' :: rest)).map (· + left.length)) :
    (∃ stop, Text.position? keyword (left ++ ' ' :: rest) = some stop ∧
        tableBetween (left ++ ' ' :: rest) (left.length + 1) stop = .ok table ∧
        reads ((left ++ ' ' :: rest).drop (stop + keyword.length))) ↔
      ∃ name tail, CutAt keyword (' ' :: rest) name tail ∧ Names name table ∧ reads tail := by
  have dropped {name tail : List Char} (cut : CutAt keyword (' ' :: rest) name tail) :
      (left ++ ' ' :: rest).drop (name.length + left.length + keyword.length) = tail := by
    rw [← cut.drop_eq, List.drop_append, List.drop_eq_nil_of_le (by omega), List.nil_append]
    congr 1
    omega
  constructor
  · rintro ⟨stop, found, named, read⟩
    rw [closes, Option.map_eq_some_iff] at found
    rcases found with ⟨place, found, rfl⟩
    rcases Text.exists_cutAt nonempty found with ⟨name, tail, cut, rfl⟩
    rw [dropped cut] at read
    have ⟨_, written, _⟩ := cut
    exact ⟨name, tail, cut, (tableBetween_iff_names written rfl).mp named, read⟩
  · rintro ⟨name, tail, cut, named, read⟩
    have ⟨_, written, _⟩ := cut
    refine ⟨name.length + left.length, ?_, (tableBetween_iff_names written rfl).mpr named, ?_⟩
    · rw [closes, cut.position?_eq nonempty]
      rfl
    · rwa [dropped cut]

variable {place : Nat}

theorem parseInsert_iff_means {row : List Value}
    (into : Text.position? intoKeyword (left ++ ' ' :: rest) = some place)
    (ends : place + intoKeyword.length = left.length + 1)
    (closes : Text.position? valuesKeyword (left ++ ' ' :: rest) =
      (Text.position? valuesKeyword (' ' :: rest)).map (· + left.length)) :
    parseInsert (left ++ ' ' :: rest) = .ok (.insert table row) ↔
      Means (' ' :: rest) (.insert table row) := by
  rw [parseInsert_eq_ok_iff into, ends,
    exists_stop_iff_exists_cut (fun tail => parseValues tail = .ok row) (by decide) closes]
  constructor
  · rintro ⟨name, tail, cut, named, valued⟩
    exact .insert cut named valued
  · intro means
    cases means with
    | insert cut named valued => exact ⟨_, _, cut, named, valued⟩

section

variable (source : Text.position? fromKeyword (left ++ ' ' :: rest) = some place)
  (ends : place + fromKeyword.length = left.length + 1)
  (closes : Text.position? whereKeyword (left ++ ' ' :: rest) =
    (Text.position? whereKeyword (' ' :: rest)).map (· + left.length))

include ends closes

theorem exists_stop_iff_exists_condition {condition : Condition} :
    (∃ stop, Text.position? whereKeyword (left ++ ' ' :: rest) = some stop ∧
        tableBetween (left ++ ' ' :: rest) (place + fromKeyword.length) stop = .ok table ∧
        Condition.parse ((left ++ ' ' :: rest).drop (stop + whereKeyword.length)) =
          .ok condition) ↔
      ∃ name tail, CutAt whereKeyword (' ' :: rest) name tail ∧ Names name table ∧
        Condition.parse tail = .ok condition := by
  rw [ends]
  exact exists_stop_iff_exists_cut (fun tail => Condition.parse tail = .ok condition) (by decide)
    closes

include source

theorem parseSelect_iff_means {predicate : Option Predicate} :
    parseSelect (left ++ ' ' :: rest) = .ok (.select table predicate) ↔
      Means (' ' :: rest) (.select table predicate) := by
  have unfiltered : parseSelect (left ++ ' ' :: rest) = .ok (.select table none) ↔
      ¬ Mentions (' ' :: rest) whereKeyword ∧ Names (' ' :: rest) table := by
    have long : (left ++ ' ' :: rest).length = (' ' :: rest).length + left.length := by
      rw [List.length_append, Nat.add_comm]
    rw [parseSelect_none_eq_ok_iff source, ends,
      tableBetween_iff_names (List.append_nil _).symm long, closes, Option.map_eq_none_iff,
      Text.position?_eq_none_iff]
  constructor
  · intro read
    rcases (exists_place_of_parseSelect read).2 with ⟨_, same | ⟨condition, same⟩⟩
    · cases same
      rcases unfiltered.mp read with ⟨uncut, named⟩
      exact .select uncut named
    · cases same
      rw [parseSelect_eq_ok_iff source, exists_stop_iff_exists_condition ends closes] at read
      rcases read with ⟨name, tail, cut, named, tested⟩
      exact .selectWhere cut named tested
  · intro means
    cases means with
    | select uncut named => exact unfiltered.mpr ⟨uncut, named⟩
    | selectWhere cut named tested =>
        rw [parseSelect_eq_ok_iff source, exists_stop_iff_exists_condition ends closes]
        exact ⟨_, _, cut, named, tested⟩

theorem parseDelete_iff_means {predicate : Predicate} :
    parseDelete (left ++ ' ' :: rest) = .ok (.delete table predicate) ↔
      Means (' ' :: rest) (.delete table predicate) := by
  constructor
  · intro read
    rcases (exists_place_of_parseDelete read).2 with ⟨_, condition, same⟩
    cases same
    rw [parseDelete_eq_ok_iff source, exists_stop_iff_exists_condition ends closes] at read
    rcases read with ⟨name, tail, cut, named, tested⟩
    exact .deleteWhere cut named tested
  · intro means
    cases means with
    | deleteWhere cut named tested =>
        rw [parseDelete_eq_ok_iff source, exists_stop_iff_exists_condition ends closes]
        exact ⟨_, _, cut, named, tested⟩

end

end

/-! ## Up to the first keyword -/

namespace Linked

variable {verb : Verb} {link closing word spelling : List Char}

theorem closing_ne_nil (linked : Linked verb link closing) : closing ≠ [] := by
  cases linked <;> decide

/-- Neither keyword begins in the word of the verb. -/
theorem position?_verb (linked : Linked verb link closing)
    (spelled : Text.foldCase word = verb.word.toList) {keyword : List Char}
    (either : keyword = link ++ [' '] ∨ keyword = closing) (right : List Char) :
    Text.position? keyword (word ++ right) =
      (Text.position? keyword right).map (· + word.length) := by
  refine Text.position?_append_of_apart ?_ right
  rw [spelled]
  cases linked <;> rcases either with rfl | rfl <;> decide

/-- The second keyword does not begin in the first. -/
theorem position?_link (linked : Linked verb link closing)
    (spelled : Text.foldCase spelling = link) (right : List Char) :
    Text.position? closing (spelling ++ right) =
      (Text.position? closing right).map (· + spelling.length) := by
  refine Text.position?_append_of_apart ?_ right
  rw [spelled]
  cases linked <;> decide

/-- No keyword that is not mentioned in what is passed over begins there, for the first keyword
begins with a letter that the keywords do not have elsewhere. -/
theorem position?_skipped (linked : Linked verb link closing)
    (spelled : Text.foldCase spelling = link) {keyword skipped : List Char}
    (either : keyword = link ++ [' '] ∨ keyword = closing) (clean : ¬ Mentions skipped keyword)
    (right : List Char) :
    Text.position? keyword (skipped ++ (spelling ++ right)) =
      (Text.position? keyword (spelling ++ right)).map (· + skipped.length) := by
  cases spelling with
  | nil => cases linked <;> cases spelled
  | cons c spelling =>
      have first : link.head? = some c.toLower := by
        rw [← spelled]
        rfl
      refine Text.position?_append_of_fresh clean ?_
      generalize c.toLower = letter at first
      cases linked <;> cases first <;> rcases either with rfl | rfl <;> decide

end Linked

section

variable {line : String} {command : Command} {link closing skipped rest : List Char}

/-- What a line that is passed over up to the first keyword is read as. -/
theorem parse_iff_means_of_skips (linked : Linked command.verb link closing)
    (skips : Skips line command.verb link closing skipped rest) :
    parse line = .ok command ↔ Means (' ' :: rest) command := by
  rcases skips with ⟨⟨word, after, written, spelled, apart, cut⟩, clean⟩
  rcases cut.exists_link with ⟨spelling, rfl, spelledLink⟩
  have places {keyword : List Char} (either : keyword = link ++ [' '] ∨ keyword = closing)
      (unmentioned : ¬ Mentions skipped keyword) :
      Text.position? keyword (word ++ (skipped ++ (spelling ++ ' ' :: rest))) =
        (Text.position? keyword (spelling ++ ' ' :: rest)).map
          (· + (word.length + skipped.length)) := by
    rw [linked.position?_verb spelled either,
      linked.position?_skipped spelledLink either unmentioned, Option.map_map]
    congr
    funext place
    simp only [Function.comp_apply]
    omega
  have whole : word ++ (skipped ++ (spelling ++ ' ' :: rest)) =
      (word ++ (skipped ++ spelling)) ++ ' ' :: rest := by
    simp
  have source : Text.position? (link ++ [' ']) ((word ++ (skipped ++ spelling)) ++ ' ' :: rest) =
      some (word.length + skipped.length) := by
    have starts : link ++ [' '] <+: Text.foldCase (spelling ++ ' ' :: rest) :=
      prefix_foldCase_of_spelled spelledLink rest
    rw [← whole, places (.inl rfl) cut.not_mentions, Text.position?_of_prefix (by simp) starts,
      Option.map_some, Nat.zero_add]
  have closes : Text.position? closing ((word ++ (skipped ++ spelling)) ++ ' ' :: rest) =
      (Text.position? closing (' ' :: rest)).map
        (· + (word ++ (skipped ++ spelling)).length) := by
    rw [← whole, places (.inr rfl) clean, linked.position?_link spelledLink, Option.map_map]
    congr
    funext place
    simp only [Function.comp_apply, List.length_append]
    omega
  have ends : word.length + skipped.length + (link ++ [' ']).length =
      (word ++ (skipped ++ spelling)).length + 1 := by
    simp only [← spelledLink, List.length_append, Text.length_foldCase, List.length_singleton]
    omega
  rw [parse_eq_parseVerb_of_trim written spelled apart, written, whole]
  clear places written whole spelled apart
  cases command with
  | insert table row =>
      cases linked
      exact parseInsert_iff_means source ends closes
  | select table predicate =>
      cases linked
      exact parseSelect_iff_means source ends closes
  | delete table predicate =>
      cases linked
      exact parseDelete_iff_means source ends closes
  | createTable | dropTable | listTables | info | update | help | exit => cases linked

theorem lt_of_tableBetween {text : List Char} {keyword : List Char} {place stop : Nat}
    {table : String} (nonempty : keyword ≠ [])
    (named : tableBetween text (place + keyword.length) stop = .ok table) : place < stop := by
  have ordered := add_length_le_of_tableBetween named
  have positive := List.length_pos_iff.mpr nonempty
  omega

/-- In a line that is read, the first keyword is found, and the second no sooner. -/
theorem exists_place_of_parseVerb {text : List Char} (linked : Linked command.verb link closing)
    (read : parseVerb text command.verb = .ok command) :
    ∃ place, Text.position? (link ++ [' ']) text = some place ∧
      ∀ stop, Text.position? closing text = some stop → place < stop := by
  cases command with
  | insert table row =>
      cases linked
      cases into : Text.position? intoKeyword text with
      | none =>
          rw [verb, parseVerb, parseInsert, into] at read
          cases read
      | some place =>
          rcases (parseInsert_eq_ok_iff into).mp read with ⟨stop, found, named, -⟩
          refine ⟨place, into, fun other same => ?_⟩
          cases found.symm.trans same
          exact lt_of_tableBetween (by decide) named
  | select table predicate =>
      cases linked
      rcases exists_place_of_parseSelect read with
        ⟨⟨place, source⟩, _, none | ⟨condition, some⟩⟩
      · cases none
        have uncut := ((parseSelect_none_eq_ok_iff source).mp read).1
        refine ⟨place, source, fun other same => ?_⟩
        cases uncut.symm.trans same
      · cases some
        rcases (parseSelect_eq_ok_iff source).mp read with ⟨stop, found, named, -⟩
        refine ⟨place, source, fun other same => ?_⟩
        cases found.symm.trans same
        exact lt_of_tableBetween (by decide) named
  | delete table predicate =>
      cases linked
      rcases exists_place_of_parseDelete read with ⟨⟨place, source⟩, _, condition, same⟩
      cases same
      rcases (parseDelete_eq_ok_iff source).mp read with ⟨stop, found, named, -⟩
      refine ⟨place, source, fun other same => ?_⟩
      cases found.symm.trans same
      exact lt_of_tableBetween (by decide) named
  | createTable | dropTable | listTables | info | update | help | exit => cases linked

theorem exists_skips_of_parse (linked : Linked command.verb link closing)
    (read : parse line = .ok command) :
    ∃ skipped rest, Skips line command.verb link closing skipped rest := by
  rcases exists_verb_of_parse read with ⟨verb, word, after, written, spelled, apart, reads⟩
  cases verb_of_parseVerb reads
  rcases exists_place_of_parseVerb linked reads with ⟨place, source, later⟩
  rw [written, linked.position?_verb spelled (.inl rfl), Option.map_eq_some_iff] at source
  rcases source with ⟨place, source, rfl⟩
  rcases Text.exists_cutAt (by simp) source with ⟨skipped, rest, cut, rfl⟩
  refine ⟨skipped, rest, ⟨word, after, written, spelled, apart, cut⟩, fun mentioned => ?_⟩
  have ⟨spelling, whole, _⟩ := cut
  have inside : Mentions (word ++ skipped) closing :=
    mentioned.of_infix (List.suffix_append _ _).isInfix
  have divided : Text.trim line.toList = (word ++ skipped) ++ (spelling ++ rest) := by
    rw [written, whole, List.append_assoc]
  have everywhere : Mentions (Text.trim line.toList) closing := by
    rw [divided]
    exact inside.of_infix (List.prefix_append _ _).isInfix
  rcases Option.ne_none_iff_exists'.mp (mt Text.position?_eq_none_iff.mp (not_not.mpr everywhere))
    with ⟨stop, found⟩
  have late := later stop found
  rw [divided] at found
  have early := Text.position?_add_length_le linked.closing_ne_nil inside found
  rw [List.length_append] at early
  omega

/-- If only white space is passed over, the first keyword is the second word of the line. -/
theorem Skips.second_word {verb : Verb} (linked : Linked verb link closing)
    (skips : Skips line verb link closing skipped rest)
    (blank : ∀ c ∈ skipped, Text.isBlank c = true) :
    (Text.blankSeparated line.toList)[1]?.map Text.foldCase = some link := by
  rcases skips with ⟨⟨word, after, written, spelled, apart, cut⟩, -⟩
  rcases cut.exists_link with ⟨spelling, rfl, spelledLink⟩
  have unbroken : ∀ c ∈ spelling, Text.isBlank c = false := by
    intro c c_mem
    have plain : ∀ c ∈ link, Text.isBlank c = false := by
      cases linked <;> exact List.all_iff_forall_prop.mp (by decide)
    rw [← Text.isBlank_toLower]
    refine plain c.toLower ?_
    rw [← spelledLink]
    exact List.mem_map_of_mem c_mem
  have nonempty : spelling ≠ [] := by
    rintro rfl
    cases linked <;> cases spelledLink
  rw [← Text.blankSeparated_trim, written,
    Text.blankSeparated_append_of_head (Verb.trimmed_spelled spelled).nonempty
      (fun _ => Verb.isBlank_of_mem_spelled spelled) apart,
    Text.blankSeparated_append_of_blank blank,
    Text.blankSeparated_append_blank nonempty unbroken rfl]
  simp [spelledLink]

end

/-- Which lines are accepted as an insert, a select or a delete, and as which. -/
theorem parse_eq_ok_iff_of_linked {line : String} {command : Command} {link closing : List Char}
    (linked : Linked command.verb link closing) :
    parse line = .ok command ↔
      ∃ skipped rest, Skips line command.verb link closing skipped rest ∧
        Means (' ' :: rest) command ∧
        ((∀ c ∈ skipped, Text.isBlank c = true) →
          (Text.blankSeparated line.toList)[1]?.map Text.foldCase = some link) := by
  constructor
  · intro read
    rcases exists_skips_of_parse linked read with ⟨skipped, rest, skips⟩
    exact ⟨skipped, rest, skips, (parse_iff_means_of_skips linked skips).mp read,
      skips.second_word linked⟩
  · rintro ⟨skipped, rest, skips, means, -⟩
    exact (parse_iff_means_of_skips linked skips).mpr means

/-- Something other than white space is passed over, and the name of the table ends where no word
does. -/
theorem parse_eq_ok_iff_of_linked_t :
    parse "select * from t" = .ok (.select "t" none) ∧
      parse "insert into tvalues (1)" = .ok (.insert "t" [.int 1]) ∧
      ∃ skipped rest, Skips "insert into tvalues (1)" .insert "into".toList valuesKeyword skipped
        rest ∧ Means (' ' :: rest) (.insert "t" [.int 1]) := by
  have skips : Skips "select * from t" .select "from".toList whereKeyword [' ', '*', ' '] ['t'] :=
    ⟨⟨"select".toList, " * from t".toList, by decide, by decide, by rintro _ ⟨⟩; rfl,
      "from ".toList, by decide, by decide, by decide⟩, by decide⟩
  have means : Means [' ', 't'] (.select "t" none) :=
    .select (by decide) ⟨by decide, by decide⟩
  have inserted : parse "insert into tvalues (1)" = .ok (.insert "t" [.int 1]) := rfl
  have selects : Linked (Command.select "t" none).verb "from".toList whereKeyword := .select
  have inserts : Linked (Command.insert "t" [.int 1]).verb "into".toList valuesKeyword := .insert
  refine ⟨?_, inserted, ?_⟩
  · refine (parse_eq_ok_iff_of_linked selects).mpr ⟨_, _, skips, means, fun blank => ?_⟩
    cases blank '*' (by decide)
  · rcases (parse_eq_ok_iff_of_linked inserts).mp inserted with ⟨skipped, rest, skips, means, -⟩
    exact ⟨skipped, rest, skips, means⟩

/-- A line is read as a select although its second word is not `from`, and a line is read as an
insert although no white space stands before `values`. -/
theorem exists_accepted_select_star :
    (parse "select * from t" = .ok (.select "t" none) ∧
        (Text.blankSeparated "select * from t".toList)[1]?.map Text.foldCase = some ['*']) ∧
      parse "insert into tvalues (1)" = .ok (.insert "t" [.int 1]) ∧
      Text.position? valuesKeyword "insert into tvalues (1)".toList = some 13 ∧
      ∃ c, "insert into tvalues (1)".toList[12]? = some c ∧ Text.isBlank c = false :=
  ⟨⟨rfl, by decide⟩, rfl, by decide, 't', by decide, by decide⟩

end Command

end Tabula
