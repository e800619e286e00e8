import Mathlib.Tactic.SplitIfs
import Tabula.Json
import Tabula.Json.Lexer

/-!
# Quoted texts

Between double quotes stand pieces, each of which gives one element of the string: a character as
it is, an escape by a letter, or an escape by the four digits of a unit of UTF-16. The elements
denote a text if the units among them are whole characters or surrogate pairs. The lexer reads the
elements that are quoted, and the text that they denote.
-/

namespace Tabula.Json

/-- The letters of escapes, with the characters that they stand for. -/
def shortEscapes : List (Char × Char) :=
  [('\x22', '\x22'), ('\\', '\\'), ('/', '/'), ('b', '\x08'), ('f', '\x0c'), ('n', '\n'),
    ('r', '\r'), ('t', '\t')]

/-- The digits of hexadecimal numbers, with their values. -/
def hexDigits : List (Char × Nat) :=
  "0123456789abcdef".toList.zipIdx ++ "ABCDEF".toList.zipIdx 10

/-- A piece of a quoted text, with the element that it gives. -/
inductive Piece : StringUnit → List Char → Prop
  | plain {c : Char} (visible : 0x20 ≤ c.toNat) (unquoted : c ≠ '\x22') (unescaped : c ≠ '\\') :
      Piece (.char c) [c]
  | short {letter c : Char} (escape : (letter, c) ∈ shortEscapes) : Piece (.char c) ['\\', letter]
  | code {a b c d : Char × Nat} (first : a ∈ hexDigits) (second : b ∈ hexDigits)
      (third : c ∈ hexDigits) (fourth : d ∈ hexDigits) :
      Piece (.code (16 * (16 * (16 * a.2 + b.2) + c.2) + d.2)) ['\\', 'u', a.1, b.1, c.1, d.1]

/-- The elements that are given by what stands between quotes. -/
inductive Quoted : List StringUnit → List Char → Prop
  | nil : Quoted [] []
  | cons {unit : StringUnit} {units : List StringUnit} {piece body : List Char}
      (first : Piece unit piece) (rest : Quoted units body) : Quoted (unit :: units) (piece ++ body)

/-- The text that elements of a string denote. A character beyond 16 bits that is not given as it is
takes two units. -/
inductive Denotes : List StringUnit → List Char → Prop
  | nil : Denotes [] []
  | char {units : List StringUnit} {c : Char} {text : List Char} (rest : Denotes units text) :
      Denotes (.char c :: units) (c :: text)
  | code {units : List StringUnit} {c : Char} {text : List Char} (narrow : c.toNat < 0x10000)
      (rest : Denotes units text) : Denotes (.code c.toNat :: units) (c :: text)
  | pair {units : List StringUnit} {c : Char} {text : List Char} (wide : 0x10000 ≤ c.toNat)
      (rest : Denotes units text) :
      Denotes (.code (0xD800 + (c.toNat - 0x10000) / 0x400) ::
        .code (0xDC00 + (c.toNat - 0x10000) % 0x400) :: units) (c :: text)

/-- A text as it can stand between quotes. -/
def Spelled (text body : List Char) : Prop :=
  ∃ units, Quoted units body ∧ Denotes units text

def quote (body : List Char) : List Char :=
  '\x22' :: (body ++ ['\x22'])

/-! ## Texts -/

theorem isHighSurrogate_toNat (c : Char) : isHighSurrogate c.toNat = false := by
  have valid : c.toNat < 0xD800 ∨ 0xDFFF < c.toNat ∧ c.toNat < 0x110000 := c.valid
  simp only [isHighSurrogate, Bool.and_eq_false_iff, decide_eq_false_iff_not]
  omega

theorem isLowSurrogate_toNat (c : Char) : isLowSurrogate c.toNat = false := by
  have valid : c.toNat < 0xD800 ∨ 0xDFFF < c.toNat ∧ c.toNat < 0x110000 := c.valid
  simp only [isLowSurrogate, Bool.and_eq_false_iff, decide_eq_false_iff_not]
  omega

theorem decodeUnits_code_toNat_cons (c : Char) (units : List StringUnit) :
    decodeUnits (.code c.toNat :: units) = (decodeUnits units).map (c :: ·) := by
  have notHigh := isHighSurrogate_toNat c
  have notLow := isLowSurrogate_toNat c
  -- A unit that is a character is not taken together with a unit behind it.
  cases units with
  | nil => simp [decodeUnits, notHigh, notLow]
  | cons next more =>
      cases next with
      | char _ => simp [decodeUnits, notHigh, notLow]
      | code _ => simp [decodeUnits, notHigh, notLow]

theorem decodeUnits_pair_cons {c : Char} (wide : 0x10000 ≤ c.toNat) (units : List StringUnit) :
    decodeUnits (.code (0xD800 + (c.toNat - 0x10000) / 0x400) ::
      .code (0xDC00 + (c.toNat - 0x10000) % 0x400) :: units) =
        (decodeUnits units).map (c :: ·) := by
  have valid : c.toNat < 0xD800 ∨ 0xDFFF < c.toNat ∧ c.toNat < 0x110000 := c.valid
  have high : isHighSurrogate (0xD800 + (c.toNat - 0x10000) / 0x400) = true := by
    simp only [isHighSurrogate, Bool.and_eq_true, decide_eq_true_eq]
    omega
  have low : isLowSurrogate (0xDC00 + (c.toNat - 0x10000) % 0x400) = true := by
    simp only [isLowSurrogate, Bool.and_eq_true, decide_eq_true_eq]
    omega
  have whole : 0x10000 + 0x400 * (0xD800 + (c.toNat - 0x10000) / 0x400 - 0xD800) +
      (0xDC00 + (c.toNat - 0x10000) % 0x400 - 0xDC00) = c.toNat := by
    omega
  rw [decodeUnits, if_pos high, if_pos low, pairChar, whole, Char.ofNat_toNat]

theorem decodeUnits_of_denotes {units : List StringUnit} {text : List Char}
    (denotes : Denotes units text) : decodeUnits units = some text := by
  induction denotes with
  | nil => rfl
  | char _ ih => rw [decodeUnits, ih, Option.map_some]
  | code _ _ ih => rw [decodeUnits_code_toNat_cons, ih, Option.map_some]
  | pair wide _ ih => rw [decodeUnits_pair_cons wide, ih, Option.map_some]

/-! ## Reading -/

theorem hexValue?_of_mem_hexDigits :
    ∀ digit ∈ hexDigits, Lexer.hexValue? digit.1 = some digit.2 := by
  decide

theorem shortEscape?_of_mem_shortEscapes :
    ∀ escape ∈ shortEscapes, Lexer.shortEscape? escape.1 = some escape.2 ∧ escape.1 ≠ 'u' := by
  decide

theorem Piece.run {unit : StringUnit} {piece : List Char} (written : Piece unit piece)
    (tokens : List Token) (units : List StringUnit) :
    Lexer.run ⟨tokens, .string units⟩ piece = ⟨tokens, .string (unit :: units)⟩ := by
  cases written with
  | plain visible unquoted unescaped =>
      simp [Lexer.run, Lexer.step, unquoted, unescaped, Nat.not_lt.mpr visible]
  | short escape =>
      rcases shortEscape?_of_mem_shortEscapes _ escape with ⟨meant, other⟩
      simp [Lexer.run, Lexer.step, meant, other]
  | code first second third fourth =>
      simp [Lexer.run, Lexer.step, hexValue?_of_mem_hexDigits _ first,
        hexValue?_of_mem_hexDigits _ second, hexValue?_of_mem_hexDigits _ third,
        hexValue?_of_mem_hexDigits _ fourth]

theorem Quoted.run {units : List StringUnit} {body : List Char} (quoted : Quoted units body)
    (tokens : List Token) (read : List StringUnit) :
    Lexer.run ⟨tokens, .string read⟩ body = ⟨tokens, .string (units.reverse ++ read)⟩ := by
  induction quoted generalizing read with
  | nil => rfl
  | cons first _ ih => rw [Lexer.run_append, first.run, ih, List.reverse_cons, List.append_assoc,
      List.singleton_append]

/-- A quoted text is read as a string of the elements that stand between the quotes. -/
theorem Quoted.run_quote {units : List StringUnit} {body : List Char} (quoted : Quoted units body)
    (tokens : List Token) :
    Lexer.run ⟨tokens, .between⟩ (quote body) =
      ⟨.string ((decodeUnits units).map String.ofList) :: tokens, .between⟩ := by
  have opened : Lexer.step ⟨tokens, .between⟩ '\x22' = ⟨tokens, .string []⟩ := rfl
  rw [quote, Lexer.run, List.foldl_cons, opened, ← Lexer.run, Lexer.run_append, quoted.run]
  simp [Lexer.run, Lexer.step, Lexer.stringToken]

theorem run_quote_of_spelled {text body : List Char} (spelled : Spelled text body)
    (tokens : List Token) :
    Lexer.run ⟨tokens, .between⟩ (quote body) =
      ⟨.string (some (String.ofList text)) :: tokens, .between⟩ := by
  rcases spelled with ⟨units, quoted, denotes⟩
  rw [quoted.run_quote, decodeUnits_of_denotes denotes, Option.map_some]

/-! ## Writing -/

/-- The element of a string that a character is read as from its written form. -/
def writtenUnit (c : Char) : StringUnit :=
  if c.toNat < 0x20 ∧ c ∉ ['\x08', '\x0c', '\n', '\r', '\t'] then .code c.toNat else .char c

theorem hexDigit_mem_hexDigits : ∀ digit < 16, (hexDigit digit, digit) ∈ hexDigits := by
  decide

theorem piece_escapeChar (c : Char) : Piece (writtenUnit c) (escapeChar c) := by
  rw [escapeChar]
  split_ifs with quote backslash backspace formFeed lineFeed carriageReturn tab control
  · rw [quote]
    exact .short (by decide)
  · rw [backslash]
    exact .short (by decide)
  · rw [backspace]
    exact .short (by decide)
  · rw [formFeed]
    exact .short (by decide)
  · rw [lineFeed]
    exact .short (by decide)
  · rw [carriageReturn]
    exact .short (by decide)
  · rw [tab]
    exact .short (by decide)
  · have zero : ('0', 0) ∈ hexDigits := by decide
    have high := hexDigit_mem_hexDigits (c.toNat / 16) (by omega)
    have low := hexDigit_mem_hexDigits (c.toNat % 16) (by omega)
    have whole : 16 * (16 * (16 * 0 + 0) + c.toNat / 16) + c.toNat % 16 = c.toNat := by omega
    have piece := Piece.code zero zero high low
    rw [whole] at piece
    simpa [writtenUnit, control, backspace, formFeed, lineFeed, carriageReturn, tab] using piece
  · have plain := Piece.plain (Nat.le_of_not_lt control) quote backslash
    simpa [writtenUnit, control] using plain

/-- Every text is spelled as it is written. -/
theorem spelled_escaped (text : List Char) : Spelled text (text.flatMap escapeChar) := by
  refine ⟨text.map writtenUnit, ?_, ?_⟩
  · induction text with
    | nil => exact .nil
    | cons c rest ih => exact .cons (piece_escapeChar c) ih
  · induction text with
    | nil => exact .nil
    | cons c rest ih =>
        rw [List.map_cons, writtenUnit]
        split
        · rename_i control
          exact .code (by omega) ih
        · exact .char ih

end Tabula.Json
