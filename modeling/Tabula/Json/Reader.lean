import Tabula.Error
import Tabula.Json.Lexer

/-!
# Reading values of a known shape

A reader takes the words of a text one after the other and gives what they denote with the words
that remain. It stops at the first word that does not fit, so of two faults in a text the one that
is complete first counts. `object` and `array` read a container item by item; `skip` passes over
any value at all, however deep.
-/

namespace Tabula.Json

/-- What the words of a text denote, with the words that remain. -/
abbrev Reader (α : Type) : Type :=
  List Token → Except DocumentFault (α × List Token)

namespace Reader

variable {α : Type}

/-- Read the items of an array from the first on, at most one for each word of a budget. -/
def itemsFrom (item : Reader α) : List Token → Reader (List α)
  | [], _ => .error .malformed
  | _ :: budget, tokens =>
      match item tokens with
      | .error fault => .error fault
      | .ok (first, .comma :: rest) =>
          match itemsFrom item budget rest with
          | .error fault => .error fault
          | .ok (more, rest) => .ok (first :: more, rest)
      | .ok (first, .closeBracket :: rest) => .ok ([first], rest)
      | .ok _ => .error .malformed

/-- Read an array. Each item takes a word at least, so the words that remain are budget enough. -/
def array (item : Reader α) : Reader (List α)
  | .openBracket :: .closeBracket :: rest => .ok ([], rest)
  | .openBracket :: rest => itemsFrom item rest rest
  | _ => .error .malformed

/-- Read the members of an object from the first on, at most one for each word of a budget. What a
member denotes depends on its key; a key may be a string without text. -/
def membersFrom (member : Option String → Reader α) : List Token → Reader (List α)
  | _ :: budget, .string key :: .colon :: rest =>
      match member key rest with
      | .error fault => .error fault
      | .ok (first, .comma :: rest) =>
          match membersFrom member budget rest with
          | .error fault => .error fault
          | .ok (more, rest) => .ok (first :: more, rest)
      | .ok (first, .closeBrace :: rest) => .ok ([first], rest)
      | .ok _ => .error .malformed
  | _, _ => .error .malformed

/-- Read an object. Each member takes a word at least, so the words that remain are budget
enough. -/
def object (member : Option String → Reader α) : Reader (List α)
  | .openBrace :: .closeBrace :: rest => .ok ([], rest)
  | .openBrace :: rest => membersFrom member rest rest
  | _ => .error .malformed

/-- Read the value of a member together with its key, which must be text. -/
def keyed (value : Reader α) : Option String → Reader (String × α)
  | none, _ => .error .malformed
  | some key, tokens =>
      match value tokens with
      | .error fault => .error fault
      | .ok (value, rest) => .ok ((key, value), rest)

def string : Reader String
  | .string (some text) :: rest => .ok (text, rest)
  | _ => .error .malformed

def bool : Reader Bool
  | .bool truth :: rest => .ok (truth, rest)
  | _ => .error .malformed

/-- Read a text or the word for nothing. -/
def string? : Reader (Option String)
  | .null :: rest => .ok (none, rest)
  | .string (some text) :: rest => .ok (some text, rest)
  | _ => .error .malformed

/-- A container that is being passed over. -/
inductive Container
  | array
  | object
deriving DecidableEq

/-- What may come next while a value is passed over. -/
inductive Expected
  | value
  /-- A value, or the end of an array that has none. -/
  | firstItem
  | key
  /-- A key, or the end of an object that has none. -/
  | firstKey
  | colon
  /-- A comma or the end of the innermost container. -/
  | next
deriving DecidableEq

/-- Pass over what is left of the given containers, innermost first. -/
def skipFrom : List Container → Expected → Reader Unit
  | [], .next, rest => .ok ((), rest)
  | .array :: outer, .next, .comma :: rest => skipFrom (.array :: outer) .value rest
  | .object :: outer, .next, .comma :: rest => skipFrom (.object :: outer) .key rest
  | .array :: outer, .next, .closeBracket :: rest => skipFrom outer .next rest
  | .object :: outer, .next, .closeBrace :: rest => skipFrom outer .next rest
  | .array :: outer, .firstItem, .closeBracket :: rest => skipFrom outer .next rest
  | .object :: outer, .firstKey, .closeBrace :: rest => skipFrom outer .next rest
  | outer, .colon, .colon :: rest => skipFrom outer .value rest
  | outer, .key, .string _ :: rest | outer, .firstKey, .string _ :: rest =>
      skipFrom outer .colon rest
  | outer, .value, token :: rest | outer, .firstItem, token :: rest =>
      match token with
      | .openBracket => skipFrom (.array :: outer) .firstItem rest
      | .openBrace => skipFrom (.object :: outer) .firstKey rest
      | .null | .bool _ | .number _ | .string _ => skipFrom outer .next rest
      | _ => .error .malformed
  | _, _, _ => .error .malformed

def skip : Reader Unit :=
  skipFrom [] .value

/-- Read a whole text, of which nothing may remain. -/
def readAll (reader : Reader α) (text : String) : Except DocumentFault α :=
  match reader (lex text.toList) with
  | .error fault => .error fault
  | .ok (value, []) => .ok value
  | .ok (_, _ :: _) => .error .malformed

end Reader

end Tabula.Json
