/-!
# White space

White space is every character that Unicode gives the property White_Space. Trimming and the
plain division of a line into words go by it.
-/

namespace Tabula.Text

/-- The characters with the Unicode property White_Space. -/
def isBlank (c : Char) : Bool :=
  let code := c.toNat
  (0x09 ≤ code && code ≤ 0x0D) || code == 0x20 || code == 0x85 || code == 0xA0 ||
    code == 0x1680 || (0x2000 ≤ code && code ≤ 0x200A) || code == 0x2028 || code == 0x2029 ||
    code == 0x202F || code == 0x205F || code == 0x3000

/-- The text without white space at its start. -/
def trimStart (text : List Char) : List Char :=
  text.dropWhile isBlank

/-- The text without white space at its end. -/
def trimEnd (text : List Char) : List Char :=
  (text.reverse.dropWhile isBlank).reverse

/-- The text without white space at either end. -/
def trim (text : List Char) : List Char :=
  trimEnd (trimStart text)

/-- The pieces between the characters that satisfy a test: always one more than there are such
characters. -/
def pieces (isBreak : Char → Bool) : List Char → List (List Char)
  | [] => [[]]
  | c :: rest =>
      if isBreak c then [] :: pieces isBreak rest
      else match pieces isBreak rest with
        | [] => [[c]]
        | first :: more => (c :: first) :: more

theorem pieces_of_no_break {isBreak : Char → Bool} {text : List Char}
    (unbroken : ∀ c ∈ text, isBreak c = false) : pieces isBreak text = [text] := by
  induction text with
  | nil => rfl
  | cons c rest ih =>
      rw [pieces, unbroken c List.mem_cons_self, if_neg Bool.false_ne_true,
        ih fun other other_mem => unbroken other (List.mem_cons_of_mem c other_mem)]

theorem pieces_append_break {isBreak : Char → Bool} {left : List Char} {c : Char}
    (unbroken : ∀ c ∈ left, isBreak c = false) (breaks : isBreak c = true) (right : List Char) :
    pieces isBreak (left ++ c :: right) = left :: pieces isBreak right := by
  induction left with
  | nil => rw [List.nil_append, pieces, if_pos breaks]
  | cons first rest ih =>
      rw [List.cons_append, pieces, unbroken first List.mem_cons_self, if_neg Bool.false_ne_true,
        ih fun other other_mem => unbroken other (List.mem_cons_of_mem first other_mem)]

/-- The longest runs of characters that are not white space. -/
def blankSeparated (text : List Char) : List (List Char) :=
  (pieces isBlank text).filter (· ≠ [])

end Tabula.Text
