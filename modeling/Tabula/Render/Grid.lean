import Tabula.Record

/-!
# Grids of records

Records are shown in a box with a line for each, under a line with the names of the columns. A
column is as wide as its widest text, counted in characters. Names stand in the middle of their
column, values at its left edge.

A column may be of any width. A toolchain is assumed that formats texts to any width; one that holds
widths in 16 bits would fail at a column of more than 65535 characters.
-/

namespace Tabula.Grid

/-- The text shown for a value, which is empty where there is none. -/
def cell : Option Value → String
  | none => ""
  | some value => value.display

/-- The text shown for each column of a record. -/
def row (schema : Schema) (record : Record) : List String :=
  (record.project schema).map cell

def spaces (count : Nat) : String :=
  String.ofList (List.replicate count ' ')

/-- A text with spaces after it up to a width. -/
def alignLeft (width : Nat) (text : String) : String :=
  text ++ spaces (width - text.length)

/-- A text with spaces on both sides up to a width; of an odd number, one more stands after it. -/
def center (width : Nat) (text : String) : String :=
  spaces ((width - text.length) / 2) ++ text ++
    spaces (width - text.length - (width - text.length) / 2)

/-- The width of each column: the longest of its name and the texts in it. -/
def widths (names : List String) (rows : List (List String)) : List Nat :=
  rows.foldl (List.zipWith fun width text => max width text.length) (names.map String.length)

/-- The line above, between and below. -/
def rule (widths : List Nat) : String :=
  "+" ++ "+".intercalate (widths.map fun width => String.ofList (List.replicate (width + 2) '-')) ++
    "+"

/-- A line of texts, each set into the width of its column. -/
def line (align : Nat → String → String) (widths : List Nat) (texts : List String) : String :=
  "|" ++ "|".intercalate
    (List.zipWith (fun width text => " " ++ align width text ++ " ") widths texts) ++ "|"

/-- The lines of the grid of some records, with their number last. -/
def lines (schema : Schema) (records : List Record) : List String :=
  let names := schema.names
  let rows := records.map (row schema)
  let widths := widths names rows
  [rule widths, line center widths names, rule widths] ++ rows.map (line alignLeft widths) ++
    [rule widths, toString records.length ++ " record(s) returned"]

def render (schema : Schema) (records : List Record) : String :=
  "\n".intercalate (lines schema records)

end Tabula.Grid
