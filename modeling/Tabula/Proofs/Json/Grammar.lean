import Tabula.Json.Reader
import Tabula.Proofs.Json.Spelling

/-!
# The grammar of JSON texts

A text is a JSON value if it is a constant, a number, a quoted string, or an array or an object of
such, however deep, with white space anywhere between its words. The lexer reads a value as tokens,
and the reader that passes over values passes over exactly those tokens, whichever containers it is
in.
-/

namespace Tabula.Json

/-- White space between words. -/
def Blank (text : List Char) : Prop :=
  ∀ c ∈ text, c ∈ [' ', '\t', '\n', '\r']

/-- A text with white space around it. -/
inductive Padded (text : List Char) : List Char → Prop
  | intro {before after : List Char} (leading : Blank before) (trailing : Blank after) :
      Padded text (before ++ (text ++ after))

/-- The parts of a JSON text. An element is a value with the white space around it. -/
inductive Part
  | value
  | element
  | elements
  | member
  | members

/-- The texts of JSON values of all kinds and of their parts. -/
inductive Grammatical : Part → List Char → Prop
  | null : Grammatical .value "null".toList
  | truth {truth : Bool} : Grammatical .value (writeTruth truth)
  | number {text : List Char} (numeral : Numeral text) : Grammatical .value text
  | string {units : List StringUnit} {body : List Char} (quoted : Quoted units body) :
      Grammatical .value (quote body)
  | emptyArray {inner : List Char} (blank : Blank inner) :
      Grammatical .value ('[' :: (inner ++ [']']))
  | array {inner : List Char} (elements : Grammatical .elements inner) :
      Grammatical .value ('[' :: (inner ++ [']']))
  | emptyObject {inner : List Char} (blank : Blank inner) :
      Grammatical .value ('\x7b' :: (inner ++ ['\x7d']))
  | object {inner : List Char} (members : Grammatical .members inner) :
      Grammatical .value ('\x7b' :: (inner ++ ['\x7d']))
  | element {text padded : List Char} (value : Grammatical .value text)
      (around : Padded text padded) : Grammatical .element padded
  | lastElement {text : List Char} (element : Grammatical .element text) :
      Grammatical .elements text
  | moreElements {text more : List Char} (element : Grammatical .element text)
      (elements : Grammatical .elements more) : Grammatical .elements (text ++ ',' :: more)
  | member {units : List StringUnit} {body key text : List Char} (quoted : Quoted units body)
      (around : Padded (quote body) key) (element : Grammatical .element text) :
      Grammatical .member (key ++ ':' :: text)
  | lastMember {text : List Char} (member : Grammatical .member text) : Grammatical .members text
  | moreMembers {text more : List Char} (member : Grammatical .member text)
      (members : Grammatical .members more) : Grammatical .members (text ++ ',' :: more)

/-! ## Tokens -/

/-- A text is read as tokens, whatever comes next, if only a number may end there. -/
def ReadAs (text : List Char) (tokens : List Token) : Prop :=
  ∀ rest more, EndsNumber rest → Lexed rest more → Lexed (text ++ rest) (tokens ++ more)

theorem endsNumber_mark {token : Token} {c : Char} (marked : (token, c) ∈ marks)
    (rest : List Char) : EndsNumber (c :: rest) := by
  rintro _ ⟨⟩
  simp only [marks, List.mem_cons, Prod.mk.injEq, List.not_mem_nil, or_false] at marked
  rcases marked with ⟨rfl, rfl⟩ | ⟨rfl, rfl⟩ | ⟨rfl, rfl⟩ | ⟨rfl, rfl⟩ | ⟨rfl, rfl⟩ | ⟨rfl, rfl⟩ <;>
    decide

theorem Blank.endsNumber_append {blank rest : List Char} (isBlank : Blank blank)
    (ends : EndsNumber rest) : EndsNumber (blank ++ rest) := by
  cases blank with
  | nil => exact ends
  | cons c more =>
      rintro _ ⟨⟩
      have first := isBlank c List.mem_cons_self
      simp only [List.mem_cons, List.not_mem_nil, or_false] at first
      rcases first with rfl | rfl | rfl | rfl <;> decide

theorem Blank.lexed_append {blank text : List Char} {tokens : List Token} (isBlank : Blank blank)
    (lexed : Lexed text tokens) : Lexed (blank ++ text) tokens := by
  induction blank with
  | nil => exact lexed
  | cons c blank ih =>
      rw [Blank, List.forall_mem_cons] at isBlank
      exact (ih isBlank.2).blank isBlank.1

theorem readAs_blank {blank : List Char} (isBlank : Blank blank) : ReadAs blank [] :=
  fun _ _ _ lexed => isBlank.lexed_append lexed

section

variable {text : List Char} {tokens : List Token}

theorem ReadAs.padded (readAs : ReadAs text tokens) {padded : List Char}
    (around : Padded text padded) : ReadAs padded tokens := by
  intro rest more ends lexed
  cases around with
  | intro leading trailing =>
      have behind := readAs _ _ (trailing.endsNumber_append ends) (trailing.lexed_append lexed)
      have whole := leading.lexed_append behind
      simpa using whole

/-- Two texts with a mark between them. -/
theorem ReadAs.join (readAs : ReadAs text tokens) {mark : Token} {c : Char}
    (marked : (mark, c) ∈ marks) {next : List Char} {nextTokens : List Token}
    (nextReadAs : ReadAs next nextTokens) :
    ReadAs (text ++ c :: next) (tokens ++ mark :: nextTokens) := by
  intro rest more ends lexed
  have behind := (nextReadAs _ _ ends lexed).mark marked
  have whole := readAs _ _ (endsNumber_mark marked _) behind
  simpa using whole

/-- A text between two marks. -/
theorem ReadAs.enclose (readAs : ReadAs text tokens) {opening closing : Token} {first last : Char}
    (opens : (opening, first) ∈ marks) (closes : (closing, last) ∈ marks) :
    ReadAs (first :: (text ++ [last])) (opening :: (tokens ++ [closing])) := by
  intro rest more _ lexed
  have behind := readAs _ _ (endsNumber_mark closes _) (lexed.mark closes)
  have whole := behind.mark opens
  simpa using whole

theorem lex_of_readAs (readAs : ReadAs text tokens) : lex text = tokens := by
  have lexed := readAs _ _ endsNumber_nil lexed_nil
  rw [List.append_nil, List.append_nil] at lexed
  exact lex_of_lexed lexed

end

theorem readAs_null : ReadAs "null".toList [.null] :=
  fun _ _ _ lexed => lexed.null

theorem readAs_truth (truth : Bool) : ReadAs (writeTruth truth) [.bool truth] :=
  fun _ _ _ lexed => lexed.truth truth

theorem Quoted.readAs {units : List StringUnit} {body : List Char} (quoted : Quoted units body) :
    ReadAs (quote body) [.string ((decodeUnits units).map String.ofList)] :=
  fun _ _ _ lexed => lexed.quoted quoted

theorem readAs_of_spelled {content : String} {body : List Char}
    (spelled : Spelled content.toList body) : ReadAs (quote body) [.string (some content)] :=
  fun _ _ _ lexed => lexed.spelled spelled

theorem Numeral.exists_readAs {text : List Char} (numeral : Numeral text) :
    ∃ value, ReadAs text [.number value] := by
  rcases numeral.exists_run with ⟨place, complete, run⟩
  exact ⟨_, fun _ _ ends lexed => lexed.number ends complete run⟩

/-! ## Passing over -/

/-- Whether a token is a value by itself. -/
def Token.isScalar : Token → Bool
  | .null | .bool _ | .number _ | .string _ => true
  | _ => false

namespace Reader

/-- From each of the given places on, tokens are passed over inside of containers. -/
def PassedFrom (places : List Expected) (outer : List Container) (tokens : List Token) : Prop :=
  ∀ place ∈ places, ∀ rest,
    skipFrom outer place (tokens ++ rest) = skipFrom outer .next rest

/-- The tokens of a part of a text are passed over where the part may stand. -/
def Passed : Part → List Token → Prop
  | .value, tokens | .element, tokens => ∀ outer, PassedFrom [.value, .firstItem] outer tokens
  | .elements, tokens => ∀ outer, PassedFrom [.value, .firstItem] (.array :: outer) tokens
  | .member, tokens => ∀ outer, PassedFrom [.key, .firstKey] outer tokens
  | .members, tokens => ∀ outer, PassedFrom [.key, .firstKey] (.object :: outer) tokens

section

variable {outer : List Container} {tokens rest : List Token}

theorem skipFrom_firstItem {token : Token} (other : token ≠ .closeBracket) :
    skipFrom outer .firstItem (token :: rest) = skipFrom outer .value (token :: rest) := by
  cases token with
  | closeBracket => exact absurd rfl other
  | _ => rcases outer with _ | ⟨_ | _, outer⟩ <;> rfl

theorem skipFrom_firstKey {key : Option String} :
    skipFrom outer .firstKey (.string key :: rest) = skipFrom outer .key (.string key :: rest) := by
  rcases outer with _ | ⟨_ | _, outer⟩ <;> rfl

/-- A value can come first in an array, since it does not begin with what closes one. -/
theorem passedFrom_of_value {token : Token} (other : token ≠ .closeBracket)
    (passed : ∀ rest,
      skipFrom outer .value (token :: (tokens ++ rest)) = skipFrom outer .next rest) :
    PassedFrom [.value, .firstItem] outer (token :: tokens) := by
  intro place place_mem rest
  simp only [List.mem_cons, List.not_mem_nil, or_false] at place_mem
  rcases place_mem with rfl | rfl
  · exact passed rest
  · rw [List.cons_append, skipFrom_firstItem other, passed]

theorem passed_scalar {token : Token} (scalar : token.isScalar = true) : Passed .value [token] := by
  intro outer
  refine passedFrom_of_value ?_ fun rest => ?_
  · rintro rfl
    cases scalar
  · cases token with
    | null | bool | number | string => rw [skipFrom, List.nil_append]
    | _ => cases scalar

theorem passed_emptyArray : Passed .value [.openBracket, .closeBracket] := by
  intro outer
  refine passedFrom_of_value nofun fun rest => ?_
  simp [skipFrom]

theorem passed_array (elements : Passed .elements tokens) :
    Passed .value (.openBracket :: (tokens ++ [.closeBracket])) := by
  intro outer
  refine passedFrom_of_value nofun fun rest => ?_
  have inside := elements outer .firstItem (by decide) (.closeBracket :: rest)
  simpa [skipFrom] using inside

theorem passed_emptyObject : Passed .value [.openBrace, .closeBrace] := by
  intro outer
  refine passedFrom_of_value nofun fun rest => ?_
  simp [skipFrom]

theorem passed_object (members : Passed .members tokens) :
    Passed .value (.openBrace :: (tokens ++ [.closeBrace])) := by
  intro outer
  refine passedFrom_of_value nofun fun rest => ?_
  have inside := members outer .firstKey (by decide) (.closeBrace :: rest)
  simpa [skipFrom] using inside

theorem passed_elements (element : Passed .element tokens) : Passed .elements tokens :=
  fun outer => element (.array :: outer)

theorem passed_moreElements {more : List Token} (element : Passed .element tokens)
    (elements : Passed .elements more) : Passed .elements (tokens ++ .comma :: more) := by
  intro outer place place_mem rest
  have first := element (.array :: outer) place place_mem (.comma :: (more ++ rest))
  have others := elements outer .value (by decide) rest
  rw [List.append_assoc, List.cons_append, first, skipFrom, others]

theorem passed_member {key : Option String} (element : Passed .element tokens) :
    Passed .member (.string key :: .colon :: tokens) := by
  intro outer place place_mem rest
  have valued := element outer .value (by decide) rest
  simp only [List.mem_cons, List.not_mem_nil, or_false] at place_mem
  rcases place_mem with rfl | rfl
  · simpa [skipFrom] using valued
  · simpa [skipFrom, skipFrom_firstKey] using valued

theorem passed_members (member : Passed .member tokens) : Passed .members tokens :=
  fun outer => member (.object :: outer)

theorem passed_moreMembers {more : List Token} (member : Passed .member tokens)
    (members : Passed .members more) : Passed .members (tokens ++ .comma :: more) := by
  intro outer place place_mem rest
  have first := member (.object :: outer) place place_mem (.comma :: (more ++ rest))
  have others := members outer .key (by decide) rest
  rw [List.append_assoc, List.cons_append, first, skipFrom, others]

end

/-! ## Whole values -/

/-- Each part of a JSON text is read as tokens that are passed over. -/
theorem exists_passed {part : Part} {text : List Char} (grammatical : Grammatical part text) :
    ∃ tokens, ReadAs text tokens ∧ Passed part tokens := by
  induction grammatical with
  | null => exact ⟨_, readAs_null, passed_scalar rfl⟩
  | truth => exact ⟨_, readAs_truth _, passed_scalar rfl⟩
  | number numeral =>
      rcases numeral.exists_readAs with ⟨value, readAs⟩
      exact ⟨_, readAs, passed_scalar rfl⟩
  | string quoted => exact ⟨_, quoted.readAs, passed_scalar rfl⟩
  | @emptyArray inner blank =>
      have enclosed : ReadAs ('[' :: (inner ++ [']'])) [.openBracket, .closeBracket] :=
        (readAs_blank blank).enclose (by decide) (by decide)
      exact ⟨_, enclosed, passed_emptyArray⟩
  | array _ ih =>
      rcases ih with ⟨tokens, readAs, passed⟩
      exact ⟨_, readAs.enclose (by decide) (by decide), passed_array passed⟩
  | emptyObject blank =>
      exact ⟨_, (readAs_blank blank).enclose (by decide) (by decide), passed_emptyObject⟩
  | object _ ih =>
      rcases ih with ⟨tokens, readAs, passed⟩
      exact ⟨_, readAs.enclose (by decide) (by decide), passed_object passed⟩
  | element _ around ih =>
      rcases ih with ⟨tokens, readAs, passed⟩
      exact ⟨_, readAs.padded around, passed⟩
  | lastElement _ ih =>
      rcases ih with ⟨tokens, readAs, passed⟩
      exact ⟨_, readAs, passed_elements passed⟩
  | moreElements _ _ elementIh elementsIh =>
      rcases elementIh with ⟨tokens, readAs, passed⟩
      rcases elementsIh with ⟨more, moreReadAs, morePassed⟩
      exact ⟨_, readAs.join (by decide) moreReadAs, passed_moreElements passed morePassed⟩
  | @member _ _ key text quoted around _ ih =>
      rcases ih with ⟨tokens, readAs, passed⟩
      have named : ReadAs (key ++ ':' :: text) (.string _ :: .colon :: tokens) :=
        (quoted.readAs.padded around).join (by decide) readAs
      exact ⟨_, named, passed_member passed⟩
  | lastMember _ ih =>
      rcases ih with ⟨tokens, readAs, passed⟩
      exact ⟨_, readAs, passed_members passed⟩
  | moreMembers _ _ memberIh membersIh =>
      rcases memberIh with ⟨tokens, readAs, passed⟩
      rcases membersIh with ⟨more, moreReadAs, morePassed⟩
      exact ⟨_, readAs.join (by decide) moreReadAs, passed_moreMembers passed morePassed⟩

end Reader

end Tabula.Json
