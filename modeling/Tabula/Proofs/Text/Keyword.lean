import Mathlib.Data.List.Infix
import Tabula.Proofs.Text.Blank
import Tabula.Text.Keyword

/-!
# Where keywords are found

A keyword is found at its first occurrence, so it is found where it was written unless it occurs
before: in what stands before it, or across the border of the two. Which texts hide a keyword in
this way is a question of infixes, and an infix is cut at the characters it does not have. The
keywords between spaces overlap each other by a space, and so a text divides at its spaces into
words, each with the spaces around it.
-/

namespace Tabula.Text

/-! ## Case -/

@[simp]
theorem foldCase_nil : foldCase [] = [] :=
  rfl

@[simp]
theorem foldCase_cons (c : Char) (text : List Char) :
    foldCase (c :: text) = c.toLower :: foldCase text :=
  rfl

@[simp]
theorem foldCase_append (left right : List Char) :
    foldCase (left ++ right) = foldCase left ++ foldCase right :=
  List.map_append

@[simp]
theorem length_foldCase (text : List Char) : (foldCase text).length = text.length :=
  List.length_map _

/-- White space has no case. -/
@[simp]
theorem isBlank_toLower (c : Char) : isBlank c.toLower = isBlank c := by
  unfold Char.toLower
  split
  · rename_i capital
    have lower : 65 ≤ c.toNat := capital.1
    have upper : c.toNat ≤ 90 := capital.2
    have small : (c.val + ('a'.val - 'A'.val)).toNat = c.toNat + 32 := by
      rw [UInt32.toNat_add]
      exact Nat.mod_eq_of_lt (by change c.toNat + 32 < 2 ^ 32; omega)
    rw [isBlank_of_visible (c := c) (by omega) (by omega), isBlank_of_visible]
    · change 0x21 ≤ (c.val + ('a'.val - 'A'.val)).toNat
      omega
    · change (c.val + ('a'.val - 'A'.val)).toNat ≤ 0x7E
      omega
  · rfl

/-! ## Occurrences -/

/-- A keyword, given in small letters, occurs in a text in any case. -/
def Mentions (text keyword : List Char) : Prop :=
  keyword <:+: foldCase text

instance (text keyword : List Char) : Decidable (Mentions text keyword) :=
  inferInstanceAs (Decidable (keyword <:+: foldCase text))

theorem startsWithKeyword_iff {keyword text : List Char} :
    startsWithKeyword keyword text = true ↔ keyword <+: foldCase text := by
  induction keyword generalizing text with
  | nil => simp [startsWithKeyword]
  | cons k keyword ih =>
      cases text with
      | nil => simp [startsWithKeyword]
      | cons c text => simp [startsWithKeyword, ih]

theorem position?_cons (keyword : List Char) (c : Char) (text : List Char) :
    position? keyword (c :: text) =
      if keyword <+: foldCase (c :: text) then some 0
      else (position? keyword text).map (· + 1) := by
  simp only [position?, startsWithKeyword_iff]

theorem position?_of_prefix {keyword text : List Char} (nonempty : keyword ≠ [])
    (starts : keyword <+: foldCase text) : position? keyword text = some 0 := by
  cases text with
  | nil => exact absurd (List.prefix_nil.mp starts) nonempty
  | cons c rest => rw [position?_cons, if_pos starts]

/-- A keyword is found where it was written exactly if it occurs nowhere before, not even across the
border. -/
theorem position?_append_eq_length_iff {keyword left right : List Char} (nonempty : keyword ≠ [])
    (starts : keyword <+: foldCase right) :
    position? keyword (left ++ right) = some left.length ↔
      ¬ keyword <:+: foldCase left ++ keyword.dropLast := by
  induction left with
  | nil =>
      have found := position?_of_prefix nonempty starts
      have short : keyword.dropLast.length < keyword.length := by
        have positive := List.length_pos_iff.mpr nonempty
        rw [List.length_dropLast]
        omega
      simp only [List.nil_append, found, List.length_nil, foldCase_nil, true_iff]
      exact fun occurs => absurd occurs.length_le (Nat.not_le_of_lt short)
  | cons c left ih =>
      -- What follows the border is long enough for no prefix to see past the keyword written there.
      have border : keyword <+: foldCase (c :: (left ++ right)) ↔
          keyword <+: c.toLower :: (foldCase left ++ keyword.dropLast) := by
        rcases starts with ⟨more, written⟩
        have whole : foldCase (c :: (left ++ right)) =
            (c.toLower :: (foldCase left ++ keyword.dropLast)) ++
              (keyword.getLast nonempty :: more) := by
          rw [foldCase_cons, foldCase_append, ← written]
          conv => lhs; rw [← List.dropLast_append_getLast nonempty]
          simp
        rw [whole, List.isPrefix_append_of_length]
        simp only [List.length_cons, List.length_append, List.length_dropLast]
        omega
      rw [foldCase_cons, List.cons_append, List.cons_append, List.infix_cons_iff, ← border, not_or,
        ← ih, position?_cons]
      split
      · rename_i first
        simp only [first, not_true_eq_false, false_and, iff_false, Option.some.injEq]
        exact (Nat.succ_ne_zero _).symm
      · rename_i first
        simp only [first, not_false_eq_true, true_and, Option.map_eq_some_iff, List.length_cons,
          Nat.add_right_cancel_iff, exists_eq_right]

/-- A keyword is found no later than anywhere it occurs. -/
theorem position?_add_length_le {keyword left right : List Char} {place : Nat}
    (nonempty : keyword ≠ []) (mentioned : Mentions left keyword)
    (found : position? keyword (left ++ right) = some place) :
    place + keyword.length ≤ left.length := by
  induction left generalizing place with
  | nil => exact absurd (List.infix_nil.mp mentioned) nonempty
  | cons c left ih =>
      rw [List.cons_append, position?_cons] at found
      have bound := mentioned.length_le
      rw [length_foldCase] at bound
      split at found
      · cases found
        omega
      · rename_i notFirst
        rw [Option.map_eq_some_iff] at found
        rcases found with ⟨earlier, found, rfl⟩
        rcases List.infix_cons_iff.mp mentioned with first | later
        · rw [← List.cons_append, foldCase_append] at notFirst
          exact absurd (List.prefix_append_of_prefix first) notFirst
        · have shorter := ih later found
          rw [List.length_cons]
          omega

theorem position?_eq_none_iff {keyword text : List Char} :
    position? keyword text = none ↔ ¬ Mentions text keyword := by
  induction text with
  | nil => simp [position?, Mentions]
  | cons c text ih =>
      rw [position?_cons, Mentions, foldCase_cons, List.infix_cons_iff, ← foldCase_cons, not_or]
      split
      · rename_i first
        exact iff_of_false nofun fun unmentioned => unmentioned.1 first
      · rename_i first
        rw [Option.map_eq_none_iff, ih]
        exact (and_iff_right first).symm

theorem prefix_of_position? {keyword text : List Char} {place : Nat}
    (found : position? keyword text = some place) :
    place ≤ text.length ∧ keyword <+: foldCase (text.drop place) := by
  induction text generalizing place with
  | nil =>
      rw [position?] at found
      split at found
      · rename_i empty
        cases found
        rw [List.isEmpty_iff.mp empty]
        exact ⟨Nat.le_refl 0, List.nil_prefix⟩
      · cases found
  | cons c text ih =>
      rw [position?_cons] at found
      split at found
      · rename_i first
        cases found
        exact ⟨Nat.zero_le _, first⟩
      · rw [Option.map_eq_some_iff] at found
        rcases found with ⟨earlier, found, rfl⟩
        rcases ih found with ⟨inside, starts⟩
        exact ⟨Nat.succ_le_succ inside, starts⟩

/-! ## Skipping -/

/-- Where no occurrence of a keyword begins in a text, it is found behind it. -/
theorem position?_append {keyword left right : List Char}
    (unfound : ∀ part, part <:+ left → part ≠ [] → ¬ keyword <+: foldCase (part ++ right)) :
    position? keyword (left ++ right) = (position? keyword right).map (· + left.length) := by
  induction left with
  | nil => simp
  | cons c left ih =>
      have later := ih fun part ends => unfound part (ends.trans (List.suffix_cons c left))
      have first := unfound (c :: left) (List.suffix_refl _) (List.cons_ne_nil c left)
      rw [List.cons_append] at first ⊢
      rw [position?_cons, if_neg first, later, Option.map_map, List.length_cons]
      congr

/-- A keyword does not begin in a text if no end of the text is comparable with it. -/
theorem position?_append_of_apart {keyword left : List Char}
    (apart : ∀ part ∈ (foldCase left).tails, part ≠ [] → ¬ keyword <+: part ∧ ¬ part <+: keyword)
    (right : List Char) :
    position? keyword (left ++ right) = (position? keyword right).map (· + left.length) := by
  refine position?_append fun part ends nonempty starts => ?_
  have incomparable := apart (foldCase part) (List.mem_tails _ _ |>.mpr (ends.map Char.toLower))
    (by simpa [foldCase] using nonempty)
  rw [foldCase_append] at starts
  rcases List.prefix_or_prefix_of_prefix starts (List.prefix_append _ _) with inside | beyond
  · exact incomparable.1 inside
  · exact incomparable.2 beyond

/-- A keyword does not begin in a text that does not mention it if the character behind the text
can only be its first. -/
theorem position?_append_of_fresh {keyword left right : List Char} {c : Char}
    (clean : ¬ Mentions left keyword) (fresh : c.toLower ∉ keyword.tail) :
    position? keyword (left ++ c :: right) =
      (position? keyword (c :: right)).map (· + left.length) := by
  refine position?_append fun part ends nonempty starts => ?_
  rw [foldCase_append] at starts
  rcases List.prefix_or_prefix_of_prefix starts (List.prefix_append _ _) with inside | ⟨more, rfl⟩
  · exact clean (inside.isInfix.trans (ends.map Char.toLower).isInfix)
  · rcases List.exists_cons_of_ne_nil nonempty with ⟨first, part, rfl⟩
    rw [List.prefix_append_right_inj, foldCase_cons] at starts
    rcases List.prefix_cons_iff.mp starts with rfl | ⟨more, rfl, -⟩
    · refine clean ?_
      rw [List.append_nil]
      exact (ends.map Char.toLower).isInfix
    · refine fresh ?_
      simp

/-! ## The first occurrence -/

/-- The first occurrence of a keyword, in any case, divides a text. -/
def CutAt (keyword text before after : List Char) : Prop :=
  ∃ spelling, text = before ++ (spelling ++ after) ∧ foldCase spelling = keyword ∧
    ¬ Mentions (before ++ spelling.dropLast) keyword

section

variable {keyword text before after : List Char}

theorem exists_eq_append_of_prefix (starts : keyword <+: foldCase text) :
    ∃ spelling after, text = spelling ++ after ∧ foldCase spelling = keyword := by
  refine ⟨text.take keyword.length, text.drop keyword.length,
    (List.take_append_drop _ _).symm, ?_⟩
  rw [foldCase, List.map_take]
  exact (List.prefix_iff_eq_take.mp starts).symm

theorem CutAt.drop_eq (cut : CutAt keyword text before after) :
    text.drop (before.length + keyword.length) = after := by
  rcases cut with ⟨spelling, rfl, rfl, -⟩
  rw [length_foldCase, ← List.append_assoc, ← List.length_append, List.drop_left]

theorem foldCase_dropLast (text : List Char) : foldCase text.dropLast = (foldCase text).dropLast :=
  List.map_dropLast

theorem CutAt.position?_eq (cut : CutAt keyword text before after) (nonempty : keyword ≠ []) :
    position? keyword text = some before.length := by
  rcases cut with ⟨spelling, rfl, rfl, first⟩
  rw [position?_append_eq_length_iff nonempty]
  · rwa [Mentions, foldCase_append, foldCase_dropLast] at first
  · rw [foldCase_append]
    exact List.prefix_append _ _

theorem exists_cutAt {place : Nat} (nonempty : keyword ≠ [])
    (found : position? keyword text = some place) :
    ∃ before after, CutAt keyword text before after ∧ before.length = place := by
  rcases prefix_of_position? found with ⟨inside, starts⟩
  have long : (text.take place).length = place := List.length_take_of_le inside
  have first : ¬ keyword <:+: foldCase (text.take place) ++ keyword.dropLast := by
    rw [← position?_append_eq_length_iff nonempty starts, List.take_append_drop, long]
    exact found
  rcases exists_eq_append_of_prefix starts with ⟨spelling, after, whole, spelled⟩
  refine ⟨text.take place, after, ⟨spelling, ?_, spelled, ?_⟩, long⟩
  · rw [← whole, List.take_append_drop]
  · rwa [Mentions, foldCase_append, foldCase_dropLast, spelled]

end

/-! ## Dividing a text -/

/-- A text without some character does not occur across it. -/
theorem infix_append_cons_iff {α : Type} {text left right : List α} {c : α} (absent : c ∉ text) :
    text <:+: left ++ c :: right ↔ text <:+: left ∨ text <:+: right := by
  rw [List.infix_append_iff_ne_nil, List.infix_cons_iff]
  constructor
  · rintro (inLeft | (first | inRight) | ⟨before, after, -, nonempty, rfl, -, first⟩)
    · exact .inl inLeft
    · rcases List.prefix_cons_iff.mp first with rfl | ⟨rest, rfl, -⟩
      · exact .inl List.nil_infix
      · exact absurd List.mem_cons_self absent
    · exact .inr inRight
    · rcases List.prefix_cons_iff.mp first with rfl | ⟨rest, rfl, -⟩
      · exact absurd rfl nonempty
      · exact absurd (List.mem_append_right before List.mem_cons_self) absent
  · rintro (inLeft | inRight)
    · exact .inl inLeft
    · exact .inr (.inl (.inr inRight))

/-- A text between two spaces. -/
def padded (text : List Char) : List Char :=
  ' ' :: (text ++ [' '])

theorem padded_infix_append_space_iff {word left right : List Char} (plain : ' ' ∉ word) :
    padded word <:+: left ++ ' ' :: right ↔
      padded word <:+: left ++ [' '] ∨ padded word <:+: ' ' :: right := by
  constructor
  · intro occurs
    rw [List.append_cons, List.infix_append_iff_ne_nil] at occurs
    rcases occurs with inLeft | inRight | ⟨before, after, inhabited, nonempty, cut, ends, starts⟩
    · exact .inl inLeft
    · exact .inr (List.infix_cons inRight)
    · -- The part before the border ends with a space, which only the first of the two can be.
      rcases List.suffix_concat_iff.mp ends with none | ⟨rest, rfl, -⟩
      · exact absurd none inhabited
      cases rest with
      | nil =>
          rw [cut]
          exact .inr (List.cons_prefix_cons.mpr ⟨rfl, starts⟩).isInfix
      | cons c rest =>
          rcases List.eq_nil_or_concat after with none | ⟨inner, last, rfl⟩
          · exact absurd none nonempty
          · rw [padded, List.cons_append, List.cons_append, List.cons.injEq, List.concat_eq_append,
              ← List.append_assoc] at cut
            have inside := (List.append_inj' cut.2 rfl).1
            refine absurd ?_ plain
            rw [inside]
            simp
  · rintro (inLeft | inRight)
    · refine inLeft.trans ⟨[], right, ?_⟩
      simp
    · exact inRight.trans ⟨left, [], by simp⟩

section

variable {word left right : List Char}

/-- A keyword between spaces occurs in a text exactly if it occurs in one of the two parts that a
space of the text divides it into, where the space belongs to both. -/
theorem mentions_append_space_iff (plain : ' ' ∉ word) :
    Mentions (left ++ ' ' :: right) (padded word) ↔
      Mentions (left ++ [' ']) (padded word) ∨ Mentions (' ' :: right) (padded word) := by
  have space : ' '.toLower = ' ' := rfl
  simp only [Mentions, foldCase_append, foldCase_cons, foldCase_nil, space]
  exact padded_infix_append_space_iff plain

theorem mentions_padded_append_iff (plain : ' ' ∉ word) :
    Mentions (padded (left ++ ' ' :: right)) (padded word) ↔
      Mentions (padded left) (padded word) ∨ Mentions (padded right) (padded word) := by
  have whole : padded (left ++ ' ' :: right) = (' ' :: left) ++ ' ' :: (right ++ [' ']) := by
    simp [padded]
  rw [whole, mentions_append_space_iff plain]
  rfl

/-- A keyword between spaces is found where it was written exactly if it does not occur before, nor
together with the space it begins with. -/
theorem position?_padded_eq_length_iff (plain : ' ' ∉ word)
    (starts : word ++ [' '] <+: foldCase right) :
    position? (padded word) (left ++ ' ' :: right) = some left.length ↔
      ¬ Mentions (left ++ [' ']) (padded word) := by
  have inhabited : padded word ≠ [] := List.cons_ne_nil _ _
  have written : padded word <+: foldCase (' ' :: right) := List.cons_prefix_cons.mpr ⟨rfl, starts⟩
  have border : (padded word).dropLast = ' ' :: word := by
    rw [padded, ← List.cons_append, List.dropLast_concat]
  rw [position?_append_eq_length_iff inhabited written, border, padded_infix_append_space_iff plain,
    Mentions, foldCase_append, or_iff_left]
  · rfl
  · intro occurs
    have short := occurs.length_le
    simp only [padded, List.length_cons, List.length_append, List.length_nil] at short
    omega

end

section

variable {word head middle rest : List Char}

/-- A keyword between spaces that is written after a text, itself after a space, is found there
exactly if it occurs neither before the text nor in the padded text. -/
theorem position?_padded_eq_iff (plain : ' ' ∉ word)
    (clean : ¬ Mentions (head ++ [' ']) (padded word)) (starts : word ++ [' '] <+: foldCase rest) :
    position? (padded word) (head ++ ' ' :: (middle ++ ' ' :: rest)) =
        some (head.length + 1 + middle.length) ↔
      ¬ Mentions (padded middle) (padded word) := by
  have whole : head ++ ' ' :: (middle ++ ' ' :: rest) = (head ++ ' ' :: middle) ++ ' ' :: rest := by
    rw [List.append_assoc, List.cons_append]
  have place : head.length + 1 + middle.length = (head ++ ' ' :: middle).length := by
    rw [List.length_append, List.length_cons]
    omega
  rw [whole, place, position?_padded_eq_length_iff plain starts, List.append_assoc,
    List.cons_append, mentions_append_space_iff plain, or_iff_right clean]
  rfl

/-- A keyword between spaces that occurs in the padded text is found no later than there. -/
theorem position?_padded_le {place : Nat} (mentioned : Mentions (padded middle) (padded word))
    (found : position? (padded word) (head ++ ' ' :: (middle ++ ' ' :: rest)) = some place) :
    place + word.length ≤ head.length + middle.length := by
  have whole : head ++ ' ' :: (middle ++ ' ' :: rest) = (head ++ padded middle) ++ rest := by
    simp [padded]
  have inside : Mentions (head ++ padded middle) (padded word) := by
    rw [Mentions, foldCase_append]
    exact List.infix_append_of_infix_right mentioned
  rw [whole] at found
  have bound := position?_add_length_le (List.cons_ne_nil _ _) inside found
  simp only [padded, List.length_cons, List.length_append, List.length_nil] at bound
  omega

end

end Tabula.Text
