import Tabula.Json.Reader
import Tabula.Proofs.Json.Layout

/-!
# Readers of written values

A reader reads a value from a JSON value if it takes the tokens of that JSON value for the value,
whatever follows them. Containers are read from what their items or members are read from, so a
reader for a kind of document follows the shape of the document. What is read from a JSON value is
read from either of its layouts as a whole text.
-/

namespace Tabula.Json

/-! ## First tokens -/

theorem exists_tokens_eq_cons (json : Json) :
    ∃ first more, json.tokens = first :: more ∧ first ≠ .closeBracket := by
  cases json with
  | null | bool | int | string => exact ⟨_, _, rfl, nofun⟩
  | array items => exact ⟨.openBracket, itemTokens items, rfl, nofun⟩
  | object members => exact ⟨.openBrace, memberTokens members, rfl, nofun⟩

theorem exists_itemTokens_eq_cons (item : Json) (items : List Json) :
    ∃ first more, itemTokens (item :: items) = first :: more ∧ first ≠ .closeBracket := by
  rcases exists_tokens_eq_cons item with ⟨first, more, tokens_eq, notClosing⟩
  cases items with
  | nil => exact ⟨first, more ++ [.closeBracket], by simp [itemTokens, tokens_eq], notClosing⟩
  | cons next items =>
      rw [itemTokens_cons_cons, tokens_eq]
      exact ⟨first, _, rfl, notClosing⟩

theorem length_lt_itemTokens (items : List Json) : items.length < (itemTokens items).length := by
  induction items with
  | nil => simp [itemTokens]
  | cons item items ih =>
      rcases exists_tokens_eq_cons item with ⟨first, more, tokens_eq, -⟩
      cases items with
      | nil => simp [itemTokens, tokens_eq]
      | cons next items =>
          rw [itemTokens_cons_cons, tokens_eq]
          simp only [List.length_append, List.length_cons] at ih ⊢
          omega

namespace Reader

variable {α β : Type}

/-- A reader takes tokens for a value, whatever follows them. -/
def Takes (reader : Reader α) (tokens : List Token) (value : α) : Prop :=
  ∀ rest, reader (tokens ++ rest) = .ok (value, rest)

/-- A reader takes the tokens of a JSON value for a value, whatever follows them. -/
def Reads (reader : Reader α) (json : Json) (value : α) : Prop :=
  ∀ rest, reader (json.tokens ++ rest) = .ok (value, rest)

/-! ## Arrays -/

variable {item : Reader α} {toJson : α → Json}

theorem itemsFrom_itemTokens (rest : List Token) {values : List α} (nonempty : values ≠ [])
    (reads : ∀ value ∈ values, item.Reads (toJson value) value) {budget : List Token}
    (enough : values.length ≤ budget.length) :
    itemsFrom item budget (itemTokens (values.map toJson) ++ rest) = .ok (values, rest) := by
  induction values generalizing budget with
  | nil => exact absurd rfl nonempty
  | cons value values ih =>
      have first := reads value List.mem_cons_self
      have others := fun other other_mem => reads other (List.mem_cons_of_mem value other_mem)
      cases budget with
      | nil => exact absurd enough (Nat.not_succ_le_zero _)
      | cons token budget =>
          cases values with
          | nil =>
              rw [List.map_cons, List.map_nil, itemTokens, List.append_assoc, itemsFrom, first]
              rfl
          | cons next values =>
              have more := ih nofun others (Nat.le_of_succ_le_succ enough)
              rw [List.map_cons] at more
              rw [List.map_cons, List.map_cons, itemTokens_cons_cons, List.append_assoc, itemsFrom,
                first, List.cons_append]
              simp only [more]

theorem reads_array {values : List α} (reads : ∀ value ∈ values, item.Reads (toJson value) value) :
    (array item).Reads (.array (values.map toJson)) values := by
  intro rest
  cases values with
  | nil => rfl
  | cons value values =>
      rcases exists_itemTokens_eq_cons (toJson value) (values.map toJson)
        with ⟨first, more, tokens_eq, notClosing⟩
      have enough : (value :: values).length ≤
          (itemTokens ((value :: values).map toJson) ++ rest).length := by
        have longer := length_lt_itemTokens ((value :: values).map toJson)
        rw [List.length_map] at longer
        rw [List.length_append]
        omega
      have read := itemsFrom_itemTokens rest (List.cons_ne_nil value values) reads enough
      rw [tokens, List.cons_append, array]
      · exact read
      · rw [List.map_cons, tokens_eq]
        intro remaining same
        exact notClosing (List.cons.inj same).1

/-! ## Objects -/

/-- Tokens are taken for the members of an object, one at least. -/
inductive TakesMembers (member : Option String → Reader α) : List Token → List α → Prop
  | last {key : String} {tokens : List Token} {value : α}
      (takes : (member (some key)).Takes tokens value) :
      TakesMembers member (.string (some key) :: .colon :: tokens) [value]
  | more {key : String} {tokens others : List Token} {value : α} {values : List α}
      (takes : (member (some key)).Takes tokens value)
      (rest : TakesMembers member others values) :
      TakesMembers member (.string (some key) :: .colon :: (tokens ++ .comma :: others))
        (value :: values)

section

variable {member : Option String → Reader α} {tokens : List Token} {values : List α}

theorem TakesMembers.length_le (taken : TakesMembers member tokens values) :
    values.length ≤ tokens.length := by
  induction taken with
  | last _ => simp
  | more _ _ ih =>
      simp only [List.length_cons, List.length_append]
      omega

theorem TakesMembers.membersFrom (taken : TakesMembers member tokens values) (rest : List Token)
    {budget : List Token} (enough : values.length ≤ budget.length) :
    membersFrom member budget (tokens ++ .closeBrace :: rest) = .ok (values, rest) := by
  induction taken generalizing budget with
  | last takes =>
      cases budget with
      | nil => exact absurd enough (Nat.not_succ_le_zero _)
      | cons token budget => rw [List.cons_append, List.cons_append, Reader.membersFrom, takes]
  | more takes _ ih =>
      cases budget with
      | nil => exact absurd enough (Nat.not_succ_le_zero _)
      | cons token budget =>
          have others := ih (Nat.le_of_succ_le_succ enough)
          rw [List.cons_append, List.cons_append, List.append_assoc, Reader.membersFrom, takes,
            List.cons_append]
          simp only [others]

/-- Members between braces are taken for an object. -/
theorem TakesMembers.object (taken : TakesMembers member tokens values) :
    (object member).Takes (.openBrace :: (tokens ++ [.closeBrace])) values := by
  intro rest
  have enough : values.length ≤ (tokens ++ .closeBrace :: rest).length := by
    rw [List.length_append]
    exact Nat.le_add_right_of_le taken.length_le
  have read := taken.membersFrom rest enough
  rw [List.cons_append, List.append_assoc, List.singleton_append, Reader.object]
  · exact read
  · cases taken <;> nofun

end

section

variable {member : Option String → Reader α} {key : β → String} {toJson : β → Json} {value : β → α}

theorem exists_takesMembers {entries : List β} (nonempty : entries ≠ [])
    (reads : ∀ entry ∈ entries, (member (some (key entry))).Reads (toJson entry) (value entry)) :
    ∃ tokens, memberTokens (entries.map fun entry => (key entry, toJson entry)) =
        tokens ++ [.closeBrace] ∧ TakesMembers member tokens (entries.map value) := by
  induction entries with
  | nil => exact absurd rfl nonempty
  | cons entry entries ih =>
      rw [List.forall_mem_cons] at reads
      cases entries with
      | nil => exact ⟨_, rfl, .last reads.1⟩
      | cons next entries =>
          rcases ih (List.cons_ne_nil next entries) reads.2 with ⟨tokens, others, taken⟩
          rw [List.map_cons] at others
          refine ⟨_, ?_, .more reads.1 taken⟩
          rw [List.map_cons, List.map_cons, memberTokens_cons_cons, others]
          simp

theorem reads_object {entries : List β}
    (reads : ∀ entry ∈ entries, (member (some (key entry))).Reads (toJson entry) (value entry)) :
    (object member).Reads (.object (entries.map fun entry => (key entry, toJson entry)))
      (entries.map value) := by
  cases entries with
  | nil => exact fun _ => rfl
  | cons entry entries =>
      rcases exists_takesMembers (List.cons_ne_nil entry entries) reads with
        ⟨tokens, written, taken⟩
      intro rest
      rw [Json.tokens, written]
      exact taken.object rest

end

theorem reads_keyed {value : Reader α} {json : Json} {result : α} (reads : value.Reads json result)
    (key : String) : (keyed value (some key)).Reads json (key, result) := by
  intro rest
  rw [keyed, reads]

theorem reads_keyed_entries {value : Reader α} {toJson : α → Json}
    (reads : ∀ result, value.Reads (toJson result) result) (entries : List (String × α)) :
    (object (keyed value)).Reads
      (.object (entries.map fun entry => (entry.1, toJson entry.2))) entries := by
  have read : (object (keyed value)).Reads
      (.object (entries.map fun entry => (entry.1, toJson entry.2))) (entries.map id) := by
    refine reads_object ?_
    intro entry _
    exact reads_keyed (reads entry.2) entry.1
  rw [List.map_id] at read
  exact read

/-! ## Whole texts -/

theorem readAll_of_takes {reader : Reader α} {tokens : List Token} {value : α}
    (takes : reader.Takes tokens value) {text : String} (written : lex text.toList = tokens) :
    readAll reader text = .ok value := by
  have read := takes []
  rw [List.append_nil] at read
  rw [readAll, written, read]

theorem readAll_of_reads {reader : Reader α} {json : Json} {value : α}
    (reads : reader.Reads json value) {text : String} (written : lex text.toList = json.tokens) :
    readAll reader text = .ok value :=
  readAll_of_takes reads written

theorem readAll_write {reader : Reader α} {json : Json} {value : α}
    (reads : reader.Reads json value) (layout : Layout) :
    readAll reader (json.write layout) = .ok value :=
  readAll_of_reads reads (json.lex_write layout)

end Reader

end Tabula.Json
