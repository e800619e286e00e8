import Mathlib.Data.List.Infix
import Tabula.Proofs.Text.Keyword

/-!
# Texts in bytes

A text is written in bytes, one to four for each character. The bytes that continue a character
begin none, so the places between characters can be told from the bytes alone, and the bytes of
ASCII characters stand for nothing else. So a keyword occurs in the bytes of a text just where it
occurs in the text, and making ASCII capitals small goes along with both.
-/

namespace Tabula.Utf8

open Text (foldCase)

/-- The bytes in which a text is written. -/
def encode (text : List Char) : List UInt8 :=
  text.flatMap String.utf8EncodeChar

/-- The number of bytes in which a text is written. -/
def size (text : List Char) : Nat :=
  (encode text).length

/-- The byte of a small letter for that of an ASCII capital, and any other byte as it is. -/
def foldByte (byte : UInt8) : UInt8 :=
  if 0x41 ≤ byte ∧ byte ≤ 0x5A then byte + 0x20 else byte

/-- Whether a byte continues a character. -/
def continues (byte : UInt8) : Bool :=
  0x80 ≤ byte && byte < 0xC0

/-- Whether an offset lies in a text between two characters or at one of its ends. -/
def isBoundary (written : List UInt8) (offset : Nat) : Bool :=
  offset == 0 ||
    match written[offset]? with
    | none => offset == written.length
    | some byte => !continues byte

/-- The offset of the first occurrence of bytes in others. -/
def find? (sought written : List UInt8) : Option Nat :=
  written.tails.findIdx? sought.isPrefixOf

/-- The text from an offset on. -/
def drop : Nat → List Char → List Char
  | _, [] => []
  | offset, c :: rest => if offset = 0 then c :: rest else drop (offset - c.utf8Size) rest

/-- The text up to an offset. -/
def take : Nat → List Char → List Char
  | _, [] => []
  | offset, c :: rest => if offset = 0 then [] else c :: take (offset - c.utf8Size) rest

/-- The text between two offsets, which must be in order and lie between characters. -/
def slice? (text : List Char) (start stop : Nat) : Option (List Char) :=
  if start ≤ stop ∧ isBoundary (encode text) start = true ∧ isBoundary (encode text) stop = true then
    some (take (stop - start) (drop start text))
  else none

/-! ## Characters -/

theorem size_cons (c : Char) (text : List Char) : size (c :: text) = c.utf8Size + size text := by
  rw [size, encode, List.flatMap_cons, List.length_append, String.length_utf8EncodeChar]
  rfl

@[simp]
theorem encode_nil : encode [] = [] :=
  rfl

theorem encode_cons (c : Char) (text : List Char) :
    encode (c :: text) = String.utf8EncodeChar c ++ encode text :=
  List.flatMap_cons

theorem encode_append (left right : List Char) :
    encode (left ++ right) = encode left ++ encode right :=
  List.flatMap_append

theorem size_append (left right : List Char) : size (left ++ right) = size left + size right := by
  rw [size, encode_append, List.length_append]
  rfl

theorem utf8EncodeChar_of_ascii {c : Char} (ascii : c.toNat < 0x80) :
    String.utf8EncodeChar c = [UInt8.ofNat c.toNat] := by
  have small : c.val.toNat ≤ 127 := Nat.le_of_lt_succ ascii
  rw [String.utf8EncodeChar, if_pos small]
  rfl

theorem continues_ofNat (digit : Nat) : continues (UInt8.ofNat (digit % 64 + 128)) = true := by
  simp only [continues, Bool.and_eq_true, decide_eq_true_eq, UInt8.le_iff_toNat_le,
    UInt8.lt_iff_toNat_lt, UInt8.toNat_ofNat']
  constructor
  · change 128 ≤ _
    omega
  · change _ < 192
    omega

theorem le_ofNat {number : Nat} (lower : 0xC0 ≤ number) (upper : number < 0x100) :
    0xC0 ≤ UInt8.ofNat number := by
  rw [UInt8.le_iff_toNat_le, UInt8.toNat_ofNat']
  change 192 ≤ _
  omega

/-- Every character beyond ASCII is written as a byte that begins one and bytes that continue it. -/
theorem exists_utf8EncodeChar_eq_cons {c : Char} (wide : 0x80 ≤ c.toNat) :
    ∃ first more, String.utf8EncodeChar c = first :: more ∧ 0xC0 ≤ first ∧
      ∀ byte ∈ more, continues byte = true := by
  have large : ¬c.val.toNat ≤ 127 := Nat.not_le_of_gt wide
  rw [String.utf8EncodeChar, if_neg large]
  split
  · refine ⟨_, _, rfl, le_ofNat (by omega) (by omega), ?_⟩
    exact List.forall_mem_singleton.mpr (continues_ofNat _)
  · split
    · refine ⟨_, _, rfl, le_ofNat (by omega) (by omega), ?_⟩
      exact List.forall_mem_cons.mpr
        ⟨continues_ofNat _, List.forall_mem_singleton.mpr (continues_ofNat _)⟩
    · refine ⟨_, _, rfl, le_ofNat (by omega) (by omega), ?_⟩
      refine List.forall_mem_cons.mpr ⟨continues_ofNat _, List.forall_mem_cons.mpr ?_⟩
      exact ⟨continues_ofNat _, List.forall_mem_singleton.mpr (continues_ofNat _)⟩

theorem toNat_ofNat_of_ascii {c : Char} (ascii : c.toNat < 0x80) :
    (UInt8.ofNat c.toNat).toNat = c.toNat := by
  rw [UInt8.toNat_ofNat']
  omega

theorem continues_eq_false_of_lt {byte : UInt8} (small : byte < 0x80) : continues byte = false := by
  rw [continues, decide_eq_false (UInt8.not_le.mpr small), Bool.false_and]

theorem continues_eq_false_of_le {byte : UInt8} (large : 0xC0 ≤ byte) : continues byte = false := by
  rw [continues, decide_eq_false (UInt8.not_lt.mpr large), Bool.and_false]

theorem ofNat_lt_of_ascii {c : Char} (ascii : c.toNat < 0x80) : UInt8.ofNat c.toNat < 0x80 := by
  rw [UInt8.lt_iff_toNat_lt, toNat_ofNat_of_ascii ascii]
  exact ascii

theorem continues_getElem_utf8EncodeChar {c : Char} {place : Nat} (positive : 0 < place)
    (inside : place < (String.utf8EncodeChar c).length) :
    continues (String.utf8EncodeChar c)[place] = true := by
  by_cases ascii : c.toNat < 0x80
  · rw [utf8EncodeChar_of_ascii ascii] at inside
    exact absurd inside (Nat.not_lt.mpr positive)
  · rcases exists_utf8EncodeChar_eq_cons (Nat.le_of_not_lt ascii) with
      ⟨lead, more, written, -, continued⟩
    cases place with
    | zero => cases positive
    | succ place =>
        simp only [written, List.getElem_cons_succ]
        exact continued _ (List.getElem_mem _)

/-- The first byte of a text continues no character. -/
theorem continues_of_mem_head?_encode {text : List Char} {byte : UInt8}
    (first : byte ∈ (encode text).head?) : continues byte = false := by
  cases text with
  | nil => cases first
  | cons c rest =>
      rw [encode_cons] at first
      by_cases ascii : c.toNat < 0x80
      · rw [utf8EncodeChar_of_ascii ascii] at first
        cases first
        exact continues_eq_false_of_lt (ofNat_lt_of_ascii ascii)
      · rcases exists_utf8EncodeChar_eq_cons (Nat.le_of_not_lt ascii) with
          ⟨lead, more, written, large, -⟩
        rw [written] at first
        cases first
        exact continues_eq_false_of_le large

theorem isBoundary_size (left right : List Char) :
    isBoundary (encode (left ++ right)) (size left) = true := by
  have behind : (encode (left ++ right))[size left]? = (encode right).head? := by
    rw [encode_append, size, List.getElem?_append_right (Nat.le_refl _), Nat.sub_self,
      List.head?_eq_getElem?]
  rw [isBoundary, behind, Bool.or_eq_true]
  right
  cases first : (encode right).head? with
  | none =>
      rw [List.head?_eq_none_iff] at first
      rw [encode_append, first, List.append_nil, size]
      exact beq_self_eq_true _
  | some byte =>
      have begins := continues_of_mem_head?_encode first
      simp [begins]

/-! ## Keywords -/

section

variable {keyword : List Char}

theorem encode_prefix_iff (ascii : ∀ c ∈ keyword, c.toNat < 0x80) {text : List Char} :
    encode keyword <+: encode text ↔ keyword <+: text := by
  induction keyword generalizing text with
  | nil => simp
  | cons k keyword ih =>
      rw [List.forall_mem_cons] at ascii
      rw [encode_cons, utf8EncodeChar_of_ascii ascii.1, List.singleton_append]
      cases text with
      | nil => simp
      | cons c text =>
          rw [encode_cons, List.cons_prefix_cons, ← ih ascii.2]
          by_cases small : c.toNat < 0x80
          · rw [utf8EncodeChar_of_ascii small, List.singleton_append, List.cons_prefix_cons]
            have same : UInt8.ofNat k.toNat = UInt8.ofNat c.toNat ↔ k = c := by
              rw [← UInt8.toNat_inj, toNat_ofNat_of_ascii ascii.1, toNat_ofNat_of_ascii small,
                Char.toNat_inj]
            rw [same]
          · rcases exists_utf8EncodeChar_eq_cons (Nat.le_of_not_lt small) with
              ⟨lead, more, written, large, -⟩
            rw [written, List.cons_append, List.cons_prefix_cons]
            constructor
            · rintro ⟨same, -⟩
              have begins := ofNat_lt_of_ascii ascii.1
              rw [same] at begins
              exact absurd (UInt8.lt_of_lt_of_le begins (by decide)) (UInt8.not_lt.mpr large)
            · rintro ⟨rfl, -⟩
              exact absurd ascii.1 small

/-- No keyword begins inside of a character. -/
theorem not_encode_prefix_drop (ascii : ∀ c ∈ keyword, c.toNat < 0x80) (nonempty : keyword ≠ [])
    {c : Char} {rest : List Char} {offset : Nat} (positive : 0 < offset)
    (inside : offset < c.utf8Size) : ¬encode keyword <+: (encode (c :: rest)).drop offset := by
  rcases List.exists_cons_of_ne_nil nonempty with ⟨k, others, rfl⟩
  have small := ascii k List.mem_cons_self
  have long : offset < (String.utf8EncodeChar c).length := by rwa [String.length_utf8EncodeChar]
  rw [encode_cons c, List.drop_append_of_le_length (Nat.le_of_lt long),
    List.drop_eq_getElem_cons long, encode_cons, utf8EncodeChar_of_ascii small,
    List.singleton_append, List.cons_append, List.cons_prefix_cons]
  rintro ⟨same, -⟩
  have inner := continues_getElem_utf8EncodeChar positive long
  rw [← same, continues_eq_false_of_lt (ofNat_lt_of_ascii small)] at inner
  cases inner

/-- In the bytes of a text a keyword occurs only where it occurs in the text. -/
theorem encode_prefix_drop_iff (ascii : ∀ c ∈ keyword, c.toNat < 0x80) (nonempty : keyword ≠ [])
    {text : List Char} {offset : Nat} :
    encode keyword <+: (encode text).drop offset ↔
      ∃ before after, text = before ++ (keyword ++ after) ∧ size before = offset := by
  constructor
  · intro occurs
    -- The offset is before the first character, inside of it, or behind it.
    induction text generalizing offset with
    | nil =>
        rw [encode_nil, List.drop_nil, ← encode_nil, encode_prefix_iff ascii] at occurs
        exact absurd (List.prefix_nil.mp occurs) nonempty
    | cons c rest ih =>
        cases offset with
        | zero =>
            rw [List.drop_zero, encode_prefix_iff ascii] at occurs
            rcases occurs with ⟨after, whole⟩
            exact ⟨[], after, whole.symm, rfl⟩
        | succ offset =>
            by_cases inside : offset + 1 < c.utf8Size
            · exact absurd occurs (not_encode_prefix_drop ascii nonempty (Nat.succ_pos _) inside)
            · have beyond : c.utf8Size ≤ offset + 1 := Nat.le_of_not_lt inside
              rw [encode_cons, List.drop_append, List.drop_eq_nil_of_le, List.nil_append,
                String.length_utf8EncodeChar] at occurs
              · rcases ih occurs with ⟨before, after, rfl, place⟩
                refine ⟨c :: before, after, rfl, ?_⟩
                rw [size_cons, place]
                omega
              · rwa [String.length_utf8EncodeChar]
  · rintro ⟨before, after, rfl, rfl⟩
    rw [encode_append, size, List.drop_left, encode_append]
    exact List.prefix_append _ _

end

theorem foldByte_of_le {byte : UInt8} (large : 0x80 ≤ byte) : foldByte byte = byte := by
  refine if_neg fun capital => ?_
  exact absurd (UInt8.le_trans large capital.2) (by decide)

theorem le_of_continues {byte : UInt8} (continued : continues byte = true) : 0x80 ≤ byte := by
  rw [continues, Bool.and_eq_true, decide_eq_true_eq] at continued
  exact continued.1

theorem map_foldByte_utf8EncodeChar (c : Char) :
    (String.utf8EncodeChar c).map foldByte = String.utf8EncodeChar c.toLower := by
  by_cases ascii : c.toNat < 0x80
  · have folded : ∀ code < 0x80, (String.utf8EncodeChar (Char.ofNat code)).map foldByte =
        String.utf8EncodeChar (Char.ofNat code).toLower := by
      decide +kernel
    rw [← Char.ofNat_toNat c]
    exact folded c.toNat ascii
  · have wide := Nat.le_of_not_lt ascii
    have alone : c.toLower = c := by
      refine dif_neg fun capital => ?_
      have upper : c.toNat ≤ 90 := capital.2
      omega
    rcases exists_utf8EncodeChar_eq_cons wide with ⟨lead, more, written, large, continued⟩
    have unchanged : ∀ byte ∈ lead :: more, foldByte byte = id byte := by
      rw [List.forall_mem_cons]
      refine ⟨foldByte_of_le (UInt8.le_trans (by decide) large), fun byte byte_mem => ?_⟩
      exact foldByte_of_le (le_of_continues (continued byte byte_mem))
    rw [alone, written, List.map_congr_left unchanged, List.map_id]

/-- Making the ASCII capitals small can be done in the bytes. -/
theorem map_foldByte_encode (text : List Char) :
    (encode text).map foldByte = encode (foldCase text) := by
  rw [encode, List.map_flatMap, encode, foldCase, List.flatMap_map]
  simp only [map_foldByte_utf8EncodeChar]

theorem size_foldCase (text : List Char) : size (foldCase text) = size text := by
  rw [size, ← map_foldByte_encode, List.length_map]
  rfl

/-! ## Slices -/

theorem drop_size (left right : List Char) : drop (size left) (left ++ right) = right := by
  induction left with
  | nil => cases right <;> rfl
  | cons c left ih =>
      have positive := c.utf8Size_pos
      rw [List.cons_append, drop, size_cons, if_neg (by omega), Nat.add_sub_cancel_left, ih]

theorem take_size (left right : List Char) : take (size left) (left ++ right) = left := by
  induction left with
  | nil => cases right <;> rfl
  | cons c left ih =>
      have positive := c.utf8Size_pos
      rw [List.cons_append, take, size_cons, if_neg (by omega), Nat.add_sub_cancel_left, ih]

theorem slice?_append (left middle right : List Char) :
    slice? (left ++ (middle ++ right)) (size left) (size (left ++ middle)) = some middle := by
  have starts := isBoundary_size left (middle ++ right)
  have stops := isBoundary_size (left ++ middle) right
  rw [List.append_assoc] at stops
  have ordered : size left ≤ size (left ++ middle) := by
    rw [size_append]
    omega
  rw [slice?, if_pos ⟨ordered, starts, stops⟩, drop_size, size_append, Nat.add_sub_cancel_left,
    take_size]

theorem size_pos {text : List Char} (nonempty : text ≠ []) : 0 < size text := by
  cases text with
  | nil => exact absurd rfl nonempty
  | cons c rest =>
      have positive := c.utf8Size_pos
      rw [size_cons]
      omega

theorem take_append_middle {text : List Char} {start stop : Nat} (ordered : start ≤ stop) :
    text.take start ++ (text.drop start).take (stop - start) = text.take stop := by
  rw [← List.take_add, Nat.add_sub_cancel' ordered]

theorem size_take_le {text : List Char} {start stop : Nat} (ordered : start ≤ stop) :
    size (text.take start) ≤ size (text.take stop) := by
  rw [← take_append_middle ordered, size_append]
  exact Nat.le_add_right _ _

theorem size_take_lt {text : List Char} {start stop : Nat} (less : start < stop)
    (inside : stop ≤ text.length) : size (text.take start) < size (text.take stop) := by
  have between : (text.drop start).take (stop - start) ≠ [] := by
    rw [← List.length_pos_iff, List.length_take, List.length_drop]
    omega
  have positive := size_pos between
  rw [← take_append_middle (Nat.le_of_lt less), size_append]
  omega

theorem size_take_lt_iff {text : List Char} {start stop : Nat} (inside : stop ≤ text.length) :
    size (text.take start) < size (text.take stop) ↔ start < stop := by
  refine ⟨fun less => ?_, fun less => size_take_lt less inside⟩
  by_contra ordered
  exact absurd (size_take_le (Nat.le_of_not_lt ordered)) (Nat.not_le_of_gt less)

theorem slice?_eq_none_of_lt {text : List Char} {start stop : Nat} (crossed : stop < start) :
    slice? text start stop = none :=
  if_neg fun sound => Nat.not_lt.mpr sound.1 crossed

/-- Cutting a text at characters or at their offsets is the same. -/
theorem slice?_size_take {text : List Char} {start stop : Nat} (start_le : start ≤ text.length)
    (stop_le : stop ≤ text.length) :
    slice? text (size (text.take start)) (size (text.take stop)) = Text.slice? text start stop := by
  by_cases ordered : start ≤ stop
  · have cut := slice?_append (text.take start) ((text.drop start).take (stop - start))
      (text.drop stop)
    have whole : text.take start ++ ((text.drop start).take (stop - start) ++ text.drop stop) =
        text := by
      rw [← List.append_assoc, take_append_middle ordered, List.take_append_drop]
    rw [whole, take_append_middle ordered] at cut
    rw [cut, Text.slice?, if_pos ⟨ordered, stop_le⟩]
  · have crossed := Nat.lt_of_not_le ordered
    rw [slice?_eq_none_of_lt (size_take_lt crossed start_le), Text.slice?,
      if_neg fun sound => ordered sound.1]

/-- An offset lies between two characters of a text or at one of its ends. -/
def Between (text : List Char) (offset : Nat) : Prop :=
  ∃ place ≤ text.length, size (text.take place) = offset

section

variable {text : List Char}

theorem between_size (text : List Char) : Between text (size text) :=
  ⟨text.length, Nat.le_refl _, by rw [List.take_length]⟩

theorem Between.le_size {offset : Nat} (between : Between text offset) : offset ≤ size text := by
  rcases between with ⟨place, inside, rfl⟩
  have below : size (text.take place) ≤ size (text.take text.length) := size_take_le inside
  rwa [List.take_length] at below

theorem Between.isBoundary {offset : Nat} (between : Between text offset) :
    isBoundary (encode text) offset = true := by
  rcases between with ⟨place, -, rfl⟩
  have bound := isBoundary_size (text.take place) (text.drop place)
  rwa [List.take_append_drop] at bound

/-- A cut between characters fails only when its ends are out of order. -/
theorem slice?_eq_none_iff {start stop : Nat} (starts : Between text start)
    (stops : Between text stop) : slice? text start stop = none ↔ stop < start := by
  rcases starts with ⟨first, first_le, rfl⟩
  rcases stops with ⟨last, last_le, rfl⟩
  rw [slice?_size_take first_le last_le, size_take_lt_iff first_le, Text.slice?]
  simp only [last_le, and_true, ite_eq_right_iff, reduceCtorEq, imp_false, Nat.not_le]

end

/-! ## Occurrences -/

/-- A keyword, given in small letters, occurs in a text at an offset, in any case. -/
def OccursAt (keyword text : List Char) (offset : Nat) : Prop :=
  ∃ before spelling after, text = before ++ (spelling ++ after) ∧ foldCase spelling = keyword ∧
    size before = offset

/-- The offset of the first occurrence of a keyword in the bytes of a text, with the ASCII capitals
among them made small. -/
def offset? (keyword text : List Char) : Option Nat :=
  find? (encode keyword) ((encode text).map foldByte)

theorem find?_eq_some_iff {sought written : List UInt8} {offset : Nat} :
    find? sought written = some offset ↔ offset ≤ written.length ∧
      sought <+: written.drop offset ∧ ∀ earlier < offset, ¬sought <+: written.drop earlier := by
  simp only [find?, List.findIdx?_eq_some_iff_getElem, List.length_tails, Nat.lt_succ_iff,
    List.getElem_tails, List.isPrefixOf_iff_prefix, exists_prop]

section

variable {keyword text : List Char}

theorem encode_prefix_drop_map_iff (ascii : ∀ c ∈ keyword, c.toNat < 0x80)
    (nonempty : keyword ≠ []) {offset : Nat} :
    encode keyword <+: ((encode text).map foldByte).drop offset ↔ OccursAt keyword text offset := by
  rw [map_foldByte_encode, encode_prefix_drop_iff ascii nonempty]
  constructor
  · rintro ⟨folded, foldedAfter, cut, place⟩
    rcases List.map_eq_append_iff.mp cut with ⟨before, rest, rfl, rfl, foldedRest⟩
    rcases List.map_eq_append_iff.mp foldedRest with ⟨spelling, after, rfl, spelled, -⟩
    exact ⟨before, spelling, after, rfl, spelled, (size_foldCase before).symm.trans place⟩
  · rintro ⟨before, spelling, after, rfl, rfl, place⟩
    refine ⟨foldCase before, foldCase after, ?_, (size_foldCase before).trans place⟩
    simp

theorem OccursAt.le_size {offset : Nat} (occurs : OccursAt keyword text offset) :
    offset ≤ size text := by
  rcases occurs with ⟨before, spelling, after, rfl, -, rfl⟩
  rw [size_append]
  exact Nat.le_add_right _ _

theorem OccursAt.mentions {offset : Nat} (occurs : OccursAt keyword text offset) :
    Text.Mentions text keyword := by
  rcases occurs with ⟨before, spelling, after, rfl, rfl, -⟩
  refine ⟨foldCase before, foldCase after, ?_⟩
  simp

/-- The search in bytes finds the first occurrence in the text. -/
theorem offset?_eq_some_iff (ascii : ∀ c ∈ keyword, c.toNat < 0x80) (nonempty : keyword ≠ [])
    {offset : Nat} :
    offset? keyword text = some offset ↔
      OccursAt keyword text offset ∧ ∀ other, OccursAt keyword text other → offset ≤ other := by
  rw [offset?, find?_eq_some_iff, List.length_map]
  simp only [encode_prefix_drop_map_iff ascii nonempty]
  constructor
  · rintro ⟨-, occurs, first⟩
    refine ⟨occurs, fun other again => ?_⟩
    by_contra earlier
    exact first other (Nat.lt_of_not_le earlier) again
  · rintro ⟨occurs, first⟩
    refine ⟨occurs.le_size, occurs, fun earlier less again => ?_⟩
    exact absurd (first earlier again) (Nat.not_le_of_gt less)

/-- A keyword that is found in the text is written there whole. -/
theorem exists_spelling_of_position? {place : Nat} (nonempty : keyword ≠ [])
    (found : Text.position? keyword text = some place) :
    ∃ before spelling after, text = before ++ (spelling ++ after) ∧ foldCase spelling = keyword ∧
      before.length = place := by
  rcases Text.exists_cutAt nonempty found with ⟨before, after, ⟨spelling, whole, spelled, -⟩, place⟩
  exact ⟨before, spelling, after, whole, spelled, place⟩

/-- Searching for a keyword in the bytes of a text or among its characters is the same. -/
theorem offset?_eq (ascii : ∀ c ∈ keyword, c.toNat < 0x80) (nonempty : keyword ≠ []) :
    offset? keyword text =
      (Text.position? keyword text).map fun place => size (text.take place) := by
  cases found : Text.position? keyword text with
  | none =>
      rw [Option.map_none, Option.eq_none_iff_forall_ne_some]
      intro offset located
      have occurs := ((offset?_eq_some_iff ascii nonempty).mp located).1
      exact Text.position?_eq_none_iff.mp found occurs.mentions
  | some place =>
      rw [Option.map_some, offset?_eq_some_iff ascii nonempty]
      rcases exists_spelling_of_position? nonempty found with
        ⟨before, spelling, after, whole, spelled, rfl⟩
      have start : text.take before.length = before := by rw [whole, List.take_left]
      rw [start]
      refine ⟨⟨before, spelling, after, whole, spelled, rfl⟩, ?_⟩
      rintro _ ⟨other, otherSpelling, otherAfter, cut, otherSpelled, rfl⟩
      have mentioned : Text.Mentions (other ++ otherSpelling) keyword := by
        rw [Text.Mentions, Text.foldCase_append, otherSpelled]
        exact (List.suffix_append _ _).isInfix
      rw [cut, ← List.append_assoc] at found
      have bound := Text.position?_add_length_le nonempty mentioned found
      rw [List.length_append, ← Text.length_foldCase otherSpelling, otherSpelled] at bound
      have otherStart : text.take other.length = other := by rw [cut, List.take_left]
      rw [← start, ← otherStart]
      exact size_take_le (Nat.le_of_add_le_add_right bound)

/-- The end of a keyword that is found. -/
theorem size_take_add_length {place : Nat} (nonempty : keyword ≠ [])
    (found : Text.position? keyword text = some place) :
    place + keyword.length ≤ text.length ∧
      size (text.take (place + keyword.length)) = size (text.take place) + size keyword := by
  rcases exists_spelling_of_position? nonempty found with
    ⟨before, spelling, after, rfl, rfl, rfl⟩
  have ends : (before ++ (spelling ++ after)).take (before.length + (foldCase spelling).length) =
      before ++ spelling := by
    rw [Text.length_foldCase, ← List.append_assoc, ← List.length_append, List.take_left]
  rw [ends, List.take_left, size_append, size_foldCase, Text.length_foldCase]
  refine ⟨?_, rfl⟩
  rw [List.length_append, List.length_append]
  omega

/-- A keyword that is found begins and ends between characters. -/
theorem between_of_offset? (ascii : ∀ c ∈ keyword, c.toNat < 0x80) (nonempty : keyword ≠ [])
    {offset : Nat} (found : offset? keyword text = some offset) :
    Between text offset ∧ Between text (offset + size keyword) := by
  rw [offset?_eq ascii nonempty, Option.map_eq_some_iff] at found
  rcases found with ⟨place, located, rfl⟩
  rcases size_take_add_length nonempty located with ⟨inside, ends⟩
  exact ⟨⟨place, Nat.le_of_add_right_le inside, rfl⟩, ⟨place + keyword.length, inside, ends⟩⟩

end

end Tabula.Utf8
