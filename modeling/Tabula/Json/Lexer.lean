import Tabula.Json.Token
import Tabula.Text.Decimal

/-!
# The words of a JSON text

Reading words is a walk of one state over the characters, as for quoted words: what a text does to
the reader is the fold of what its characters do. White space between words is space, tab, line
feed and carriage return. A number ends at the first character that cannot continue it, and that
character begins what comes next.
-/

namespace Tabula.Json

/-- How far a number has been read. -/
inductive NumberPart
  | minus
  /-- After a leading zero. -/
  | zero
  | integer
  | point
  | fraction
  | exponent
  | exponentSign
  | exponentDigits
deriving DecidableEq, Repr

namespace NumberPart

/-- Whether a number may end here. -/
def isComplete : NumberPart → Bool
  | .zero | .integer | .fraction | .exponentDigits => true
  | _ => false

/-- Whether the number so far is written as an integer. -/
def isInteger : NumberPart → Bool
  | .zero | .integer => true
  | _ => false

/-- Where a character takes a number that it continues. -/
def next? (place : NumberPart) (c : Char) : Option NumberPart :=
  match place with
  | .minus => if c = '0' then some .zero else if c.isDigit then some .integer else none
  | .zero =>
      if c = '.' then some .point else if c = 'e' ∨ c = 'E' then some .exponent else none
  | .integer =>
      if c.isDigit then some .integer
      else if c = '.' then some .point
      else if c = 'e' ∨ c = 'E' then some .exponent
      else none
  | .point => if c.isDigit then some .fraction else none
  | .fraction =>
      if c.isDigit then some .fraction
      else if c = 'e' ∨ c = 'E' then some .exponent
      else none
  | .exponent =>
      if c = '+' ∨ c = '-' then some .exponentSign
      else if c.isDigit then some .exponentDigits
      else none
  | .exponentSign | .exponentDigits => if c.isDigit then some .exponentDigits else none

end NumberPart

/-- The value of a number written as an integer: none if it is out of range, or minus zero. -/
def integerValue? (digits : List Char) : Option Int64 :=
  if digits = ['-', '0'] then none else (Text.integer? digits).bind Text.int64?

/-- Where the reader stands. What it has of a word is kept newest first. -/
inductive LexMode
  | between
  /-- In the name of a constant, with the letters still to come. -/
  | constant (token : Token) (rest : List Char)
  | number (place : NumberPart) (digits : List Char)
  | string (units : List StringUnit)
  | escape (units : List StringUnit)
  /-- In a string in an escape by number, with how many digits are still to come. -/
  | hex (units : List StringUnit) (count : Nat) (value : Nat)
  /-- Where the text has stopped being JSON. -/
  | fault
deriving DecidableEq

/-- The reader's state: the words completed, newest first, and where it stands. -/
structure Lexer where
  tokens : List Token
  mode : LexMode
deriving DecidableEq

namespace Lexer

def start : Lexer :=
  ⟨[], .between⟩

def hexValue? (c : Char) : Option Nat :=
  if c.isDigit then some (c.toNat - 0x30)
  else if 'a' ≤ c ∧ c ≤ 'f' then some (c.toNat - 0x57)
  else if 'A' ≤ c ∧ c ≤ 'F' then some (c.toNat - 0x37)
  else none

def shortEscape? (c : Char) : Option Char :=
  if c = '\x22' ∨ c = '\\' ∨ c = '/' then some c
  else if c = 'b' then some '\x08'
  else if c = 'f' then some '\x0c'
  else if c = 'n' then some '\n'
  else if c = 'r' then some '\r'
  else if c = 't' then some '\t'
  else none

def begin (tokens : List Token) (c : Char) : Lexer :=
  if c = ' ' ∨ c = '\t' ∨ c = '\n' ∨ c = '\r' then ⟨tokens, .between⟩
  else if c = '\x7b' then ⟨.openBrace :: tokens, .between⟩
  else if c = '\x7d' then ⟨.closeBrace :: tokens, .between⟩
  else if c = '[' then ⟨.openBracket :: tokens, .between⟩
  else if c = ']' then ⟨.closeBracket :: tokens, .between⟩
  else if c = ':' then ⟨.colon :: tokens, .between⟩
  else if c = ',' then ⟨.comma :: tokens, .between⟩
  else if c = '\x22' then ⟨tokens, .string []⟩
  else if c = 't' then ⟨tokens, .constant (.bool true) "rue".toList⟩
  else if c = 'f' then ⟨tokens, .constant (.bool false) "alse".toList⟩
  else if c = 'n' then ⟨tokens, .constant .null "ull".toList⟩
  else if c = '-' then ⟨tokens, .number .minus [c]⟩
  else if c = '0' then ⟨tokens, .number .zero [c]⟩
  else if c.isDigit then ⟨tokens, .number .integer [c]⟩
  else ⟨tokens, .fault⟩

def numberToken (place : NumberPart) (digits : List Char) : Token :=
  .number (if place.isInteger then integerValue? digits.reverse else none)

def stringToken (units : List StringUnit) : Token :=
  .string ((decodeUnits units.reverse).map String.ofList)

def step (lexer : Lexer) (c : Char) : Lexer :=
  match lexer.mode with
  | .between => begin lexer.tokens c
  | .constant token rest =>
      match rest with
      | [] => ⟨lexer.tokens, .fault⟩
      | letter :: more =>
          if c ≠ letter then ⟨lexer.tokens, .fault⟩
          else if more = [] then ⟨token :: lexer.tokens, .between⟩
          else ⟨lexer.tokens, .constant token more⟩
  | .number place digits =>
      match place.next? c with
      | some next => ⟨lexer.tokens, .number next (c :: digits)⟩
      | none =>
          if place.isComplete then begin (numberToken place digits :: lexer.tokens) c
          else ⟨lexer.tokens, .fault⟩
  | .string units =>
      if c = '\x22' then ⟨stringToken units :: lexer.tokens, .between⟩
      else if c = '\\' then ⟨lexer.tokens, .escape units⟩
      else if c.toNat < 0x20 then ⟨lexer.tokens, .fault⟩
      else ⟨lexer.tokens, .string (.char c :: units)⟩
  | .escape units =>
      if c = 'u' then ⟨lexer.tokens, .hex units 4 0⟩
      else match shortEscape? c with
        | some meant => ⟨lexer.tokens, .string (.char meant :: units)⟩
        | none => ⟨lexer.tokens, .fault⟩
  | .hex units count value =>
      match hexValue? c with
      | none => ⟨lexer.tokens, .fault⟩
      | some digit =>
          let value := 16 * value + digit
          if count ≤ 1 then ⟨lexer.tokens, .string (.code value :: units)⟩
          else ⟨lexer.tokens, .hex units (count - 1) value⟩
  | .fault => lexer

def run (lexer : Lexer) (text : List Char) : Lexer :=
  text.foldl step lexer

/-- The words, once the text has ended. -/
def finish (lexer : Lexer) : List Token :=
  match lexer.mode with
  | .between => lexer.tokens.reverse
  | .number place digits =>
      if place.isComplete then (numberToken place digits :: lexer.tokens).reverse
      else (.fault :: lexer.tokens).reverse
  | _ => (.fault :: lexer.tokens).reverse

@[simp]
theorem run_append (lexer : Lexer) (left right : List Char) :
    lexer.run (left ++ right) = (lexer.run left).run right :=
  List.foldl_append

end Lexer

def lex (text : List Char) : List Token :=
  (Lexer.start.run text).finish

end Tabula.Json
