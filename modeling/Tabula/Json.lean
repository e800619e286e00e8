import Tabula.Text.Decimal

/-!
# JSON values and their written form

A JSON value is written in one of two layouts. The compact one has no white space. The indented one
puts every item of a container on a line of its own, two spaces deeper than the container, and a
space after each colon; empty containers stay on one line. In a string only the double quote, the
backslash and the characters below space are escaped, with a short escape where there is one.
-/

namespace Tabula

/-- A JSON value. The only numbers are signed 64-bit integers. -/
inductive Json
  | null
  | bool (truth : Bool)
  | int (number : Int64)
  | string (text : String)
  | array (items : List Json)
  | object (members : List (String × Json))

namespace Json

/-- A hexadecimal digit in small letters. -/
def hexDigit (digit : Nat) : Char :=
  Char.ofNat (if digit < 10 then 0x30 + digit else 0x57 + digit)

/-- A character as it stands in a string. -/
def escapeChar (c : Char) : List Char :=
  if c = '\x22' then ['\\', '\x22']
  else if c = '\\' then ['\\', '\\']
  else if c = '\x08' then ['\\', 'b']
  else if c = '\x0c' then ['\\', 'f']
  else if c = '\n' then ['\\', 'n']
  else if c = '\r' then ['\\', 'r']
  else if c = '\t' then ['\\', 't']
  else if c.toNat < 0x20 then
    ['\\', 'u', '0', '0', hexDigit (c.toNat / 16), hexDigit (c.toNat % 16)]
  else [c]

def writeString (text : String) : List Char :=
  '\x22' :: (text.toList.flatMap escapeChar ++ ['\x22'])

def writeTruth : Bool → List Char
  | true => "true".toList
  | false => "false".toList

mutual

def compact : Json → List Char
  | .null => "null".toList
  | .bool truth => writeTruth truth
  | .int number => Text.decimal number
  | .string text => writeString text
  | .array items => '[' :: compactItems items
  | .object members => '\x7b' :: compactMembers members

/-- The items of an array and its closing bracket. -/
def compactItems : List Json → List Char
  | [] => [']']
  | [item] => compact item ++ [']']
  | item :: items => compact item ++ ',' :: compactItems items

/-- The members of an object and its closing brace. -/
def compactMembers : List (String × Json) → List Char
  | [] => ['\x7d']
  | [(key, value)] => writeString key ++ ':' :: (compact value ++ ['\x7d'])
  | (key, value) :: members =>
      writeString key ++ ':' :: (compact value ++ ',' :: compactMembers members)

end

/-- A new line at a depth. -/
def newLine (depth : Nat) : List Char :=
  '\n' :: List.replicate (2 * depth) ' '

mutual

/-- The indented layout of a value at a depth. -/
def indentedAt (depth : Nat) : Json → List Char
  | .null => "null".toList
  | .bool truth => writeTruth truth
  | .int number => Text.decimal number
  | .string text => writeString text
  | .array [] => ['[', ']']
  | .array (item :: items) => '[' :: indentedItems (depth + 1) (item :: items)
  | .object [] => ['\x7b', '\x7d']
  | .object (member :: members) => '\x7b' :: indentedMembers (depth + 1) (member :: members)

/-- The items of an array at a depth and its closing bracket. -/
def indentedItems (depth : Nat) : List Json → List Char
  | [] => [']']
  | [item] => newLine depth ++ (indentedAt depth item ++ (newLine (depth - 1) ++ [']']))
  | item :: items => newLine depth ++ (indentedAt depth item ++ ',' :: indentedItems depth items)

/-- The members of an object at a depth and its closing brace. -/
def indentedMembers (depth : Nat) : List (String × Json) → List Char
  | [] => ['\x7d']
  | [(key, value)] =>
      newLine depth ++ (writeString key ++ ':' :: ' ' ::
        (indentedAt depth value ++ (newLine (depth - 1) ++ ['\x7d'])))
  | (key, value) :: members =>
      newLine depth ++ (writeString key ++ ':' :: ' ' ::
        (indentedAt depth value ++ ',' :: indentedMembers depth members))

end

def indented (json : Json) : List Char :=
  indentedAt 0 json

end Json

end Tabula
