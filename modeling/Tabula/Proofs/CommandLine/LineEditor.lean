import Tabula.CommandLine.LineEditor

/-!
# Lines that are typed

Whether a line is read as it was typed depends on no other line. So lines can be left out of an
input, and of those that stay the line editor gives the same texts as before.
-/

namespace Tabula.CommandLine

/-- Lines of which all end with the only line feed that they have, except that the last need not
end. -/
inductive Cut : List (List Char) → Prop
  | nil : Cut []
  | last {line : List Char} (nonempty : line ≠ []) (unbroken : '\n' ∉ line) : Cut [line]
  | cons {line : List Char} {rest : List (List Char)} (unbroken : '\n' ∉ line) (later : Cut rest) :
      Cut ((line ++ ['\n']) :: rest)

theorem cut_cutLines (text : List Char) : Cut (cutLines text) := by
  induction text with
  | nil => exact .nil
  | cons c rest ih =>
      rw [cutLines]
      split
      · rename_i breaks
        rw [breaks]
        exact .cons List.not_mem_nil ih
      · rename_i unbroken
        have first {line : List Char} (whole : '\n' ∉ line) : '\n' ∉ c :: line :=
          List.not_mem_cons_of_ne_of_not_mem (Ne.symm unbroken) whole
        split
        · exact .last (List.cons_ne_nil c []) (first List.not_mem_nil)
        · rename_i line more cut
          rw [cut] at ih
          cases ih with
          | last _ whole => exact .last (List.cons_ne_nil c line) (first whole)
          | cons whole later => exact .cons (first whole) later

theorem flatten_cutLines (text : List Char) : (cutLines text).flatten = text := by
  induction text with
  | nil => rfl
  | cons c rest ih =>
      rw [cutLines]
      split
      · rw [List.flatten_cons, ih]
        rfl
      · split
        · rename_i none
          rw [none] at ih
          rw [← ih]
          rfl
        · rename_i line more cut
          rw [cut] at ih
          rw [← ih]
          rfl

theorem Cut.of_sublist {kept lines : List (List Char)} (cut : Cut lines)
    (sublist : kept.Sublist lines) : Cut kept := by
  induction sublist with
  | slnil => exact .nil
  | cons line _ ih =>
      cases cut with
      | last => exact ih .nil
      | cons _ later => exact ih later
  | cons_cons line sublist ih =>
      cases cut with
      | last nonempty unbroken =>
          cases sublist
          exact .last nonempty unbroken
      | cons unbroken later => exact .cons unbroken (ih later)

theorem cutLines_of_unbroken {line : List Char} (nonempty : line ≠ []) (unbroken : '\n' ∉ line) :
    cutLines line = [line] := by
  induction line with
  | nil => exact absurd rfl nonempty
  | cons c rest ih =>
      rw [List.mem_cons, not_or] at unbroken
      rw [cutLines, if_neg (Ne.symm unbroken.1)]
      cases rest with
      | nil => rfl
      | cons next rest => rw [ih (List.cons_ne_nil next rest) unbroken.2]

theorem cutLines_append {line : List Char} (unbroken : '\n' ∉ line) (rest : List Char) :
    cutLines (line ++ ['\n'] ++ rest) = (line ++ ['\n']) :: cutLines rest := by
  induction line with
  | nil => rfl
  | cons c line ih =>
      rw [List.mem_cons, not_or] at unbroken
      rw [List.cons_append, List.cons_append, cutLines, if_neg (Ne.symm unbroken.1), ih unbroken.2]

theorem Cut.cutLines_flatten {lines : List (List Char)} (cut : Cut lines) :
    cutLines lines.flatten = lines := by
  induction cut with
  | nil => rfl
  | last nonempty unbroken =>
      rw [List.flatten_cons, List.flatten_nil, List.append_nil,
        cutLines_of_unbroken nonempty unbroken]
  | cons unbroken _ ih => rw [List.flatten_cons, cutLines_append unbroken, ih]

variable {input : String}

/-- Lines that stay when others are left out of an input are its lines then. -/
theorem typedLines_join {kept : List String} (sublist : kept.Sublist (typedLines input)) :
    typedLines (String.join kept) = kept := by
  have typed : (typedLines input).map String.toList = cutLines input.toList := by
    simp [typedLines, Function.comp_def]
  have cut : Cut (kept.map String.toList) := by
    apply (cut_cutLines input.toList).of_sublist
    rw [← typed]
    exact sublist.map String.toList
  rw [typedLines, String.toList_join, List.flatMap_def, cut.cutLines_flatten]
  simp [Function.comp_def]

theorem mem_of_mem_typedLines {line : String} {c : Char} (line_mem : line ∈ typedLines input)
    (c_mem : c ∈ line.toList) : c ∈ input.toList := by
  rcases List.mem_map.mp line_mem with ⟨typed, typed_mem, rfl⟩
  rw [String.toList_ofList] at c_mem
  rw [← flatten_cutLines input.toList]
  exact List.mem_flatten_of_mem typed_mem c_mem

namespace LineEditor

theorem lines_join (editor : LineEditor) {kept : List String}
    (sublist : kept.Sublist (typedLines input)) :
    editor.lines (String.join kept) = kept.map editor.text := by
  rw [lines, typedLines_join sublist]

theorem text_of_mem (editor : LineEditor) (plain : backspace ∉ input.toList) {line : String}
    (line_mem : line ∈ typedLines input) : editor.text line = dropEnding line :=
  editor.text_of_plain line fun erases => plain (mem_of_mem_typedLines line_mem erases)

/-- All line editors read an input without backspaces in the same way. -/
theorem lines_of_plain (editor : LineEditor) (plain : backspace ∉ input.toList) :
    editor.lines input = CommandLine.lines input :=
  List.map_congr_left fun _ line_mem => editor.text_of_mem plain line_mem

end LineEditor

end Tabula.CommandLine
