/-!
# JSON tokens

The words of a JSON text. A string whose escapes leave half of a surrogate pair alone denotes no
text, and a number that is not an integer of 64 bits denotes no value; both are still words of a
text. The word `fault` stands where a text stops being JSON, and nothing follows it.
-/

namespace Tabula.Json

inductive Token
  | openBrace
  | closeBrace
  | openBracket
  | closeBracket
  | colon
  | comma
  | null
  | bool (truth : Bool)
  /-- A number, with its value if it is an integer of 64 bits, written as one. -/
  | number (value : Option Int64)
  /-- A string, with its text if it has one. -/
  | string (text : Option String)
  /-- What no word begins with, or a word that does not end. -/
  | fault
deriving DecidableEq

/-- One element of a string: a character, or the unit of UTF-16 that an escape gives by its
number. -/
inductive StringUnit
  | char (c : Char)
  | code (unit : Nat)
deriving DecidableEq

/-- Whether a unit is the first half of a surrogate pair. -/
def isHighSurrogate (unit : Nat) : Bool :=
  0xD800 ≤ unit && unit < 0xDC00

/-- Whether a unit is the second half of a surrogate pair. -/
def isLowSurrogate (unit : Nat) : Bool :=
  0xDC00 ≤ unit && unit < 0xE000

/-- The character of a surrogate pair. -/
def pairChar (high low : Nat) : Char :=
  Char.ofNat (0x10000 + 0x400 * (high - 0xD800) + (low - 0xDC00))

/-- The text of a string, unless half of a surrogate pair stands alone in it. -/
def decodeUnits : List StringUnit → Option (List Char)
  | [] => some []
  | .char c :: rest => (decodeUnits rest).map (c :: ·)
  | .code high :: .code low :: rest =>
      if isHighSurrogate high then
        if isLowSurrogate low then (decodeUnits rest).map (pairChar high low :: ·) else none
      else if isLowSurrogate high then none
      else (decodeUnits (.code low :: rest)).map (Char.ofNat high :: ·)
  | .code unit :: rest =>
      if isHighSurrogate unit || isLowSurrogate unit then none
      else (decodeUnits rest).map (Char.ofNat unit :: ·)

end Tabula.Json
