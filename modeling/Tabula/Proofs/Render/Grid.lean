import Mathlib.Data.List.Forall2
import Mathlib.Order.Bounds.Basic
import Tabula.Proofs.Text.Decimal
import Tabula.Render

/-!
# The shape of a grid

A grid is a box. Its lines, the last apart, have the same marks at the same places, and between two
neighbouring marks stands one column of one line, as wide as the widest text of the column and a
space on both sides. A box grows column by column from the right, so what holds of a box is shown
by adding a column at its left.
-/

namespace Tabula.Grid

/-- The texts of a column: its name and what is shown of each record. -/
def columnTexts (records : List Record) (name : String) : List String :=
  name :: records.map fun record => cell (record.get? name)

/-- The length of the longest text of a column. -/
def columnWidth (records : List Record) (name : String) : Nat :=
  records.foldl (fun width record => max width (cell (record.get? name)).length) name.length

/-- The place of a column boundary in a line. -/
def boundary (widths : List Nat) (column : Nat) : Nat :=
  ((widths.take column).map (· + 3)).sum

/-- A text at the left of a column. -/
def leftCell (width : Nat) (text : List Char) : List Char :=
  ' ' :: (text ++ List.replicate (width - text.length) ' ' ++ [' '])

/-- A text in the middle of a column. -/
def middleCell (width : Nat) (text : List Char) : List Char :=
  ' ' :: (List.replicate ((width - text.length) / 2) ' ' ++ text ++
    List.replicate (width - text.length - (width - text.length) / 2) ' ' ++ [' '])

/-- A line is divided into cells by marks at the boundaries of columns. -/
structure Boxed (mark : Char) (widths : List Nat) (cells : List (List Char))
    (shown : List Char) : Prop where
  length : shown.length = 1 + (widths.map (· + 3)).sum
  marks : ∀ column ≤ widths.length, shown[boundary widths column]? = some mark
  columns : cells.length = widths.length
  cells : ∀ column (inside : column < cells.length),
    (shown.take (boundary widths (column + 1))).drop (boundary widths column + 1) =
      cells[column]

/-- The last line of a grid. -/
def footer (count : Nat) : List Char :=
  (toString count ++ " record(s) returned").toList

/-- The lines of a grid: a rule, the header, a rule, a line for each record in order, a rule and the
number of records. All but the last have their marks at the same places. -/
inductive Drawn (schema : Schema) (records : List Record) : List (List Char) → Prop
  | intro {ruling header : List Char} {rows : List (List Char)}
      (ruled : Boxed '+' (schema.names.map (columnWidth records))
        (schema.names.map fun name => List.replicate (columnWidth records name + 2) '-') ruling)
      (headed : Boxed '|' (schema.names.map (columnWidth records))
        (schema.names.map fun name => middleCell (columnWidth records name) name.toList) header)
      (filled : List.Forall₂ (fun record row =>
        Boxed '|' (schema.names.map (columnWidth records))
          (schema.names.map fun name =>
            leftCell (columnWidth records name) (cell (record.get? name)).toList) row) records rows) :
      Drawn schema records (ruling :: header :: ruling :: (rows ++ [ruling, footer records.length]))

/-! ## Boxes -/

section

variable {mark : Char}

theorem boundary_zero (widths : List Nat) : boundary widths 0 = 0 :=
  rfl

theorem boundary_cons_succ (width : Nat) (widths : List Nat) (column : Nat) :
    boundary (width :: widths) (column + 1) = width + 3 + boundary widths column :=
  rfl

theorem boxed_nil : Boxed mark [] [] [mark] := by
  refine ⟨rfl, ?_, rfl, nofun⟩
  intro column column_le
  cases Nat.le_zero.mp column_le
  rfl

theorem Boxed.cons {widths : List Nat} {cells : List (List Char)} {line : List Char}
    (boxed : Boxed mark widths cells line) {width : Nat} {cell : List Char}
    (fits : cell.length = width + 2) :
    Boxed mark (width :: widths) (cell :: cells) (mark :: cell ++ line) := by
  have wide : (mark :: cell).length = width + 3 := by rw [List.length_cons, fits]
  refine ⟨?_, ?_, congrArg (· + 1) boxed.columns, ?_⟩
  · rw [List.length_append, wide, boxed.length, List.map_cons, List.sum_cons]
    omega
  · intro column column_le
    cases column with
    | zero => rfl
    | succ column =>
        have later := boxed.marks column (Nat.le_of_succ_le_succ column_le)
        rw [boundary_cons_succ, ← wide, List.getElem?_append_right (Nat.le_add_right _ _),
          Nat.add_sub_cancel_left]
        exact later
  · intro column inside
    cases column with
    | zero =>
        rw [boundary_cons_succ, boundary_zero, boundary_zero, ← wide, Nat.add_zero, List.take_left]
        rfl
    | succ column =>
        have later := boxed.cells column (Nat.lt_of_succ_lt_succ inside)
        rw [boundary_cons_succ, boundary_cons_succ, ← wide, List.take_length_add_append,
          Nat.add_assoc, List.drop_length_add_append]
        exact later

/-- Cells with marks between and around them make a box. -/
theorem boxed_intercalate {α : Type} {width : α → Nat} {content : α → List Char}
    (fits : ∀ column, (content column).length = width column + 2) {columns : List α}
    (nonempty : columns ≠ []) :
    Boxed mark (columns.map width) (columns.map content)
      (mark :: ([mark].intercalate (columns.map content) ++ [mark])) := by
  induction columns with
  | nil => exact absurd rfl nonempty
  | cons first rest ih =>
      cases rest with
      | nil => simpa using boxed_nil.cons (fits first)
      | cons next rest =>
          have boxed := (ih (List.cons_ne_nil next rest)).cons (fits first)
          simpa [List.intercalate_cons_cons] using boxed

end

/-! ## Cells -/

theorem length_leftCell {width : Nat} {text : List Char} (fits : text.length ≤ width) :
    (leftCell width text).length = width + 2 := by
  simp only [leftCell, List.length_cons, List.length_append, List.length_replicate, List.length_nil]
  omega

theorem length_middleCell {width : Nat} {text : List Char} (fits : text.length ≤ width) :
    (middleCell width text).length = width + 2 := by
  simp only [middleCell, List.length_cons, List.length_append, List.length_replicate,
    List.length_nil]
  omega

/-! ## Widths -/

theorem isGreatest_foldl_max {α : Type} (size : α → Nat) (start : Nat) (items : List α) :
    IsGreatest { length | length = start ∨ ∃ item ∈ items, size item = length }
      (items.foldl (fun width item => max width (size item)) start) := by
  induction items generalizing start with
  | nil =>
      refine ⟨.inl rfl, ?_⟩
      rintro length (rfl | ⟨item, item_mem, -⟩)
      · exact Nat.le_refl _
      · cases item_mem
  | cons item items ih =>
      rcases ih (max start (size item)) with ⟨reached, bound⟩
      rw [List.foldl_cons]
      constructor
      · rcases reached with largest | ⟨other, other_mem, largest⟩
        · rcases Nat.le_total start (size item) with less | less
          · exact .inr ⟨item, List.mem_cons_self, (largest.trans (Nat.max_eq_right less)).symm⟩
          · exact .inl (largest.trans (Nat.max_eq_left less))
        · exact .inr ⟨other, List.mem_cons_of_mem item other_mem, largest⟩
      · have above := bound (.inl rfl)
        rintro length (rfl | ⟨other, other_mem, rfl⟩)
        · exact Nat.le_trans (Nat.le_max_left _ _) above
        · rcases List.mem_cons.mp other_mem with rfl | later
          · exact Nat.le_trans (Nat.le_max_right _ _) above
          · exact bound (.inr ⟨other, later, rfl⟩)

/-- A column is as wide as its widest text. -/
theorem isGreatest_columnWidth (records : List Record) (name : String) :
    IsGreatest { length | ∃ text ∈ columnTexts records name, text.length = length }
      (columnWidth records name) := by
  have widest := isGreatest_foldl_max (fun record : Record => (cell (record.get? name)).length)
    name.length records
  have texts : { length | ∃ text ∈ columnTexts records name, text.length = length } =
      { length | length = name.length ∨
        ∃ record ∈ records, (cell (record.get? name)).length = length } := by
    ext length
    simp [columnTexts, eq_comm]
  rwa [texts]

theorem row_eq (schema : Schema) (record : Record) :
    row schema record = schema.names.map fun name => cell (record.get? name) := by
  rw [row, Record.project, List.map_map]
  rfl

theorem widths_eq (schema : Schema) (records : List Record) :
    widths schema.names (records.map (row schema)) = schema.names.map (columnWidth records) := by
  have grown : ∀ start : String → Nat,
      (records.map (row schema)).foldl (List.zipWith fun width text => max width text.length)
          (schema.names.map start) =
        schema.names.map fun name => records.foldl
          (fun width record => max width (cell (record.get? name)).length) (start name) := by
    induction records with
    | nil => intro start; rfl
    | cons record records ih =>
        intro start
        rw [List.map_cons, List.foldl_cons, row_eq, List.zipWith_map, List.zipWith_self, ih]
        rfl
  exact grown String.length

/-! ## Lines -/

theorem toList_spaces (count : Nat) : (spaces count).toList = List.replicate count ' ' :=
  String.toList_ofList

theorem toList_alignLeft (width : Nat) (text : String) :
    (" " ++ alignLeft width text ++ " ").toList = leftCell width text.toList := by
  simp [alignLeft, toList_spaces, leftCell, String.length_toList]

theorem toList_center (width : Nat) (text : String) :
    (" " ++ center width text ++ " ").toList = middleCell width text.toList := by
  simp [center, toList_spaces, middleCell, String.length_toList]

theorem toList_line {align : Nat → String → String} {layout : Nat → List Char → List Char}
    (aligned : ∀ width text, (" " ++ align width text ++ " ").toList = layout width text.toList)
    (names : List String) (width : String → Nat) (text : String → String) :
    (line align (names.map width) (names.map text)).toList =
      '|' :: (['|'].intercalate (names.map fun name => layout (width name) (text name).toList) ++
        ['|']) := by
  have cells : (List.zipWith (fun width text => " " ++ align width text ++ " ") (names.map width)
      (names.map text)).map String.toList =
        names.map fun name => layout (width name) (text name).toList := by
    rw [List.zipWith_map, List.zipWith_self, List.map_map]
    exact List.map_congr_left fun name _ => aligned (width name) (text name)
  simp only [line, String.toList_append, String.toList_intercalate, cells]
  rfl

theorem toList_rule (widths : List Nat) :
    (rule widths).toList =
      '+' :: (['+'].intercalate (widths.map fun width => List.replicate (width + 2) '-') ++
        ['+']) := by
  simp only [rule, String.toList_append, String.toList_intercalate, List.map_map,
    Function.comp_def, String.toList_ofList]
  rfl

theorem mem_intercalate {α : Type} {item mark : α} {parts : List (List α)}
    (item_mem : item ∈ [mark].intercalate parts) : item = mark ∨ ∃ part ∈ parts, item ∈ part := by
  induction parts with
  | nil => simp at item_mem
  | cons part parts ih =>
      cases parts with
      | nil => exact .inr ⟨part, List.mem_cons_self, by simpa using item_mem⟩
      | cons next parts =>
          simp only [List.intercalate_cons_cons, List.mem_append, List.mem_singleton] at item_mem
          rcases item_mem with (inside | same) | later
          · exact .inr ⟨part, List.mem_cons_self, inside⟩
          · exact .inl same
          · rcases ih later with same | ⟨other, other_mem, inside⟩
            · exact .inl same
            · exact .inr ⟨other, List.mem_cons_of_mem part other_mem, inside⟩

/-! ## Grids -/

section

variable {schema : Schema} {records : List Record}

theorem names_ne_nil (schema : Schema) : schema.names ≠ [] :=
  List.cons_ne_nil _ _

theorem boxed_rule (schema : Schema) (width : String → Nat) :
    Boxed '+' (schema.names.map width)
      (schema.names.map fun name => List.replicate (width name + 2) '-')
      (rule (schema.names.map width)).toList := by
  rw [toList_rule, List.map_map]
  exact boxed_intercalate (fun name => List.length_replicate) (names_ne_nil schema)

theorem length_le_columnWidth {name text : String} (text_mem : text ∈ columnTexts records name) :
    text.toList.length ≤ columnWidth records name := by
  rw [String.length_toList]
  exact (isGreatest_columnWidth records name).2 ⟨text, text_mem, rfl⟩

theorem toList_header (schema : Schema) (width : String → Nat) :
    (line center (schema.names.map width) schema.names).toList =
      '|' :: (['|'].intercalate
        (schema.names.map fun name => middleCell (width name) name.toList) ++ ['|']) := by
  have written := toList_line toList_center schema.names width id
  rwa [List.map_id] at written

theorem toList_row (schema : Schema) (width : String → Nat) (record : Record) :
    (line alignLeft (schema.names.map width) (row schema record)).toList =
      '|' :: (['|'].intercalate
        (schema.names.map fun name => leftCell (width name) (cell (record.get? name)).toList) ++
          ['|']) := by
  rw [row_eq, toList_line toList_alignLeft]

theorem boxed_header (schema : Schema) (records : List Record) :
    Boxed '|' (schema.names.map (columnWidth records))
      (schema.names.map fun name => middleCell (columnWidth records name) name.toList)
      (line center (schema.names.map (columnWidth records)) schema.names).toList := by
  rw [toList_header]
  refine boxed_intercalate (fun name => length_middleCell ?_) (names_ne_nil schema)
  exact length_le_columnWidth List.mem_cons_self

theorem boxed_row (schema : Schema) {record : Record} (record_mem : record ∈ records) :
    Boxed '|' (schema.names.map (columnWidth records))
      (schema.names.map fun name =>
        leftCell (columnWidth records name) (cell (record.get? name)).toList)
      (line alignLeft (schema.names.map (columnWidth records)) (row schema record)).toList := by
  rw [toList_row]
  refine boxed_intercalate (fun name => length_leftCell ?_) (names_ne_nil schema)
  exact length_le_columnWidth (List.mem_cons_of_mem name (List.mem_map_of_mem record_mem))

/-- The lines of a grid as texts. -/
theorem drawn_lines (schema : Schema) (records : List Record) :
    Drawn schema records ((lines schema records).map String.toList) := by
  have filled : List.Forall₂ (fun record row => Boxed '|' (schema.names.map (columnWidth records))
      (schema.names.map fun name =>
        leftCell (columnWidth records name) (cell (record.get? name)).toList) row) records
      (records.map fun record =>
        (line alignLeft (schema.names.map (columnWidth records)) (row schema record)).toList) := by
    rw [List.forall₂_map_right_iff, List.forall₂_same]
    exact fun record record_mem => boxed_row schema record_mem
  have drawn := Drawn.intro (boxed_rule schema (columnWidth records))
    (boxed_header schema records) filled
  simpa [lines, widths_eq, footer, Function.comp_def] using drawn

theorem length_of_drawn {shown : List (List Char)} (drawn : Drawn schema records shown) :
    shown.length = records.length + 5 := by
  cases drawn with
  | intro _ _ filled =>
      rw [List.length_cons, List.length_cons, List.length_cons, List.length_append,
        ← filled.length_eq]
      rfl

/-! ## Line feeds -/

theorem lineFeed_not_mem_framed {mark : Char} (visible : mark ≠ '\n') {contents : List (List Char)}
    (plain : ∀ content ∈ contents, '\n' ∉ content) :
    '\n' ∉ mark :: ([mark].intercalate contents ++ [mark]) := by
  simp only [List.mem_cons, List.mem_append, List.not_mem_nil, or_false]
  rintro (same | inside | same)
  · exact visible same.symm
  · rcases mem_intercalate inside with same | ⟨content, content_mem, inside⟩
    · exact visible same.symm
    · exact plain content content_mem inside
  · exact visible same.symm

theorem lineFeed_not_mem_footer (count : Nat) : '\n' ∉ footer count := by
  have number : (toString count).toList = Nat.toDigits 10 count := String.toList_ofList
  rw [footer, String.toList_append, number, List.mem_append, not_or]
  refine ⟨fun inside => ?_, by decide⟩
  have digit := Text.isDigit_of_mem_toDigits inside
  exact absurd digit (by decide)

theorem lineFeed_not_mem_lines
    (plainNames : ∀ name ∈ schema.names, '\n' ∉ name.toList)
    (plainCells : ∀ record ∈ records, ∀ name ∈ schema.names,
      '\n' ∉ (cell (record.get? name)).toList) :
    ∀ text ∈ (lines schema records).map String.toList, '\n' ∉ text := by
  have ruling : '\n' ∉ (rule (schema.names.map (columnWidth records))).toList := by
    rw [toList_rule]
    refine lineFeed_not_mem_framed (by decide) (List.forall_mem_map.mpr fun width _ => ?_)
    simp
  have header :
      '\n' ∉ (line center (schema.names.map (columnWidth records)) schema.names).toList := by
    rw [toList_header]
    refine lineFeed_not_mem_framed (by decide) (List.forall_mem_map.mpr fun name name_mem => ?_)
    simpa [middleCell] using plainNames name name_mem
  have filled : ∀ record ∈ records, '\n' ∉
      (line alignLeft (schema.names.map (columnWidth records)) (row schema record)).toList := by
    intro record record_mem
    rw [toList_row]
    refine lineFeed_not_mem_framed (by decide) (List.forall_mem_map.mpr fun name name_mem => ?_)
    simpa [leftCell] using plainCells record record_mem name name_mem
  have last : '\n' ∉ (toString records.length ++ " record(s) returned").toList :=
    lineFeed_not_mem_footer records.length
  rw [List.forall_mem_map, lines, widths_eq]
  simp only [List.forall_mem_append, List.forall_mem_cons, List.forall_mem_map]
  exact ⟨⟨⟨ruling, header, ruling, List.forall_mem_nil _⟩, filled⟩, ruling, last,
    List.forall_mem_nil _⟩

/-- When no name of a column and no displayed value holds a line feed, the text of a grid is a box
of five lines more than there are records, whose columns are just wide enough for their texts. -/
theorem render_boxed (schema : Schema) (records : List Record)
    (plainNames : ∀ name ∈ schema.names, '\n' ∉ name.toList)
    (plainCells : ∀ record ∈ records, ∀ name ∈ schema.names,
      '\n' ∉ (cell (record.get? name)).toList) :
    Drawn schema records ((render schema records).toList.splitOn '\n') ∧
      ((render schema records).toList.splitOn '\n').length = records.length + 5 ∧
      ∀ name ∈ schema.names,
        IsGreatest { length | ∃ text ∈ columnTexts records name, text.length = length }
          (columnWidth records name) := by
  have drawn := drawn_lines schema records
  have divided : (render schema records).toList.splitOn '\n' =
      (lines schema records).map String.toList := by
    rw [render, String.toList_intercalate]
    exact List.splitOn_intercalate '\n' (lineFeed_not_mem_lines plainNames plainCells)
      (by simp [lines])
  rw [divided]
  exact ⟨drawn, length_of_drawn drawn, fun name _ => isGreatest_columnWidth records name⟩

end

/-- A record in an order of its own, one with a foreign column and one without any. -/
theorem render_boxed_odd :
    ∃ schema : Schema, ∃ records : List Record,
      schema.names = ["ID", "naïve"] ∧
      records.map (row schema) = [["-5", "a|é"], ["", "true"], ["", ""]] ∧
      (∀ name ∈ schema.names, '\n' ∉ name.toList) ∧
      (∀ record ∈ records, ∀ name ∈ schema.names, '\n' ∉ (cell (record.get? name)).toList) ∧
      Drawn schema records ((render schema records).toList.splitOn '\n') ∧
      ((render schema records).toList.splitOn '\n').length = 8 := by
  let schema : Schema := ⟨.single "naïve" .str, by decide⟩
  let records : List Record := [.ofList [("naïve", .str "a|é"), ("ID", .int (-5))],
    .ofList [("b", .int 2), ("naïve", .bool true)], ∅]
  have plainNames : ∀ name ∈ schema.names, '\n' ∉ name.toList := by decide +kernel
  have plainCells : ∀ record ∈ records, ∀ name ∈ schema.names,
      '\n' ∉ (cell (record.get? name)).toList := by
    decide +kernel
  rcases render_boxed schema records plainNames plainCells with ⟨drawn, long, -⟩
  exact ⟨schema, records, rfl, by decide +kernel, plainNames, plainCells, drawn, long⟩

end Tabula.Grid
