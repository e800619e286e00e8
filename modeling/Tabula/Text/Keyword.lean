/-!
# Keywords

A keyword is found wherever it is written, in capitals or not. Only the ASCII letters have two
cases here; every other character equals itself alone. Positions count characters from the start
of the text.
-/

namespace Tabula.Text

/-- The text with every ASCII capital made small. -/
def foldCase (text : List Char) : List Char :=
  text.map Char.toLower

/-- Equality up to the case of ASCII letters. -/
def sameIgnoringCase (left right : List Char) : Bool :=
  foldCase left == foldCase right

/-- Whether a text begins with a keyword, up to case. -/
def startsWithKeyword : List Char → List Char → Bool
  | [], _ => true
  | _ :: _, [] => false
  | k :: keyword, c :: text => k == c.toLower && startsWithKeyword keyword text

/-- The place of the first occurrence of a keyword given in small letters. -/
def position? (keyword : List Char) : List Char → Option Nat
  | [] => if keyword.isEmpty then some 0 else none
  | c :: rest =>
      if startsWithKeyword keyword (c :: rest) then some 0
      else (position? keyword rest).map (· + 1)

/-- The text from one place up to another; nothing when they are out of order or beyond its
end. -/
def slice? (text : List Char) (start stop : Nat) : Option (List Char) :=
  if start ≤ stop ∧ stop ≤ text.length then some ((text.drop start).take (stop - start)) else none

/-- The parts before and after the first character equal to a mark. -/
def splitOnce? (mark : Char) : List Char → Option (List Char × List Char)
  | [] => none
  | c :: rest =>
      if c = mark then some ([], rest)
      else (splitOnce? mark rest).map fun parts => (c :: parts.1, parts.2)

end Tabula.Text
