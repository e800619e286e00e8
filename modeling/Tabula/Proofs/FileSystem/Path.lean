import Tabula.Catalog
import Tabula.FileSystem.Path
import Tabula.Proofs.Text.Blank

/-!
# Parents of paths and names below them

The parent of a path is written with fewer of its parts and leads along all of its parts but the
last. A name without a slash, joined to the path of a directory, is the last part of what is
written, and what is written before it leads where the directory's path leads.
-/

namespace Tabula.Path

theorem agrees_iff {left right : Path} :
    left.agrees right = true ↔
      left.absolute = right.absolute ∧ left.parts = right.parts ∧
        left.startsHere = right.startsHere := by
  simp [agrees, and_assoc]

@[simp]
theorem agrees_self (path : Path) : path.agrees path = true :=
  agrees_iff.mpr ⟨rfl, rfl, rfl⟩

/-! ## Parents -/

theorem trimNowhere_append (written : List String) :
    ∃ tail, written = trimNowhere written ++ tail ∧ ∀ part ∈ tail, leadsNowhere part = true := by
  refine ⟨(written.reverse.takeWhile leadsNowhere).reverse, ?_, ?_⟩
  · rw [trimNowhere, ← List.reverse_append, List.takeWhile_append_dropWhile, List.reverse_reverse]
  · intro part part_mem
    rw [List.mem_reverse] at part_mem
    exact List.all_eq_true.mp List.all_takeWhile part part_mem

theorem prefix_trimNowhere (written : List String) : trimNowhere written <+: written := by
  rcases trimNowhere_append written with ⟨tail, whole, -⟩
  exact ⟨tail, whole.symm⟩

/-- Parts that lead nowhere are no parts of a path. -/
theorem parts_trimNowhere (written : List String) :
    (Path.mk (trimNowhere written)).parts = (Path.mk written).parts := by
  rcases trimNowhere_append written with ⟨tail, whole, nowhere⟩
  have dropped : tail.filter (fun part => !leadsNowhere part) = [] := by
    rw [List.filter_eq_nil_iff]
    intro part part_mem
    simp [nowhere part part_mem]
  have filtered := congrArg (List.filter fun part => !leadsNowhere part) whole
  rw [List.filter_append, dropped, List.append_nil] at filtered
  exact filtered.symm

theorem parts_dropLast_trimNowhere (written : List String) :
    (Path.mk (trimNowhere written).dropLast).parts = (Path.mk written).parts.dropLast := by
  rw [← parts_trimNowhere written]
  rcases List.eq_nil_or_concat (trimNowhere written) with nothing | ⟨front, last, whole⟩
  · rw [nothing]
    rfl
  · rw [List.concat_eq_append] at whole
    have leads : leadsNowhere last = false := by
      have first := List.head?_dropWhile_not leadsNowhere written.reverse
      have reversed := congrArg List.reverse whole
      rw [trimNowhere, List.reverse_reverse, List.reverse_append] at reversed
      rw [reversed] at first
      simpa using first
    rw [whole, List.dropLast_concat, parts, parts, List.filter_append]
    simp [leads]

/-- The parent of a path leads along all parts of the path but the last. -/
theorem parts_parent (path : Path) : path.parent.parts = path.parts.dropLast := by
  rw [parent, parts_trimNowhere, parts_dropLast_trimNowhere]

theorem prefix_written_parent (path : Path) : path.parent.written <+: path.written := by
  refine (prefix_trimNowhere _).trans ?_
  exact (List.dropLast_prefix _).trans (prefix_trimNowhere _)

theorem size_mono {left right : Path} (fewer : left.written <+: right.written) :
    left.size ≤ right.size := by
  rcases fewer with ⟨tail, whole⟩
  rw [size, size, ← whole]
  by_cases nothing : left.written = []
  · simp [nothing]
  · by_cases all : tail = []
    · simp [all]
    · rw [String.intercalate_append_of_ne_nil nothing all, String.utf8ByteSize_append,
        String.utf8ByteSize_append]
      omega

/-- Where a path starts from is where its parent starts from, if the parent leads anywhere. -/
theorem absolute_parent {path : Path} (leads : path.parent.parts ≠ []) :
    path.parent.absolute = path.absolute := by
  rcases prefix_written_parent path with ⟨tail, whole⟩
  cases shape : path.parent.written with
  | nil => exact absurd (congrArg (fun written => (Path.mk written).parts) shape) leads
  | cons first rest =>
      rw [absolute, absolute, ← whole, shape]
      cases rest with
      | cons second rest => rfl
      | nil =>
          have named : first ≠ "" := by
            rintro rfl
            exact leads (congrArg (fun written => (Path.mk written).parts) shape)
          cases tail with
          | nil => rfl
          | cons second tail => simp [named]

/-! ## Names below a directory -/

theorem absolute_concat (above : List String) (left right : String) :
    (Path.mk (above ++ [left])).absolute = (Path.mk (above ++ [right])).absolute := by
  cases above with
  | nil => rfl
  | cons first rest => cases rest <;> rfl

/-- A name added to what is written changes nothing about where the path starts from. -/
theorem absolute_ofText_concat {text : String} (nonempty : text ≠ "") (name : String) :
    (Path.mk ((ofText text).written ++ [name])).absolute = (ofText text).absolute := by
  cases shape : (ofText text).written with
  | nil => cases Text.pieces_ne_nil _ _ (List.map_eq_nil_iff.mp shape)
  | cons first rest =>
      rw [absolute, absolute, shape]
      cases rest with
      | cons second rest => rfl
      | nil =>
          have single : Text.pieces (· == '/') text.toList = [text.toList] := by
            refine Text.pieces_of_no_break ?_
            have counted := Text.length_pieces (· == '/') text.toList
            have once := congrArg List.length shape
            rw [ofText, List.length_map, counted, List.length_singleton] at once
            simpa using Nat.succ_inj.mp once
          have same : first = text := by
            rw [ofText, single] at shape
            simpa using shape.symm
          simp [same, nonempty]

section

variable {name : String} (unbroken : '/' ∉ name.toList)

include unbroken

theorem pieces_name : Text.pieces (· == '/') name.toList = [name.toList] := by
  refine Text.pieces_of_no_break ?_
  intro c c_mem
  refine beq_false_of_ne ?_
  rintro rfl
  exact unbroken c_mem

/-- The path of a name below a directory ends with the name; before it, it leads along the parts of
the directory's path, and from where that path starts. -/
theorem exists_written_join (directory : String) :
    ∃ above, (ofText (join directory name)).written = above ++ [name] ∧
      (Path.mk above).parts = (ofText directory).parts ∧
      (ofText (join directory name)).absolute = (ofText directory).absolute := by
  have cut : ∀ left right, Text.pieces (· == '/') (left ++ '/' :: right) =
      Text.pieces (· == '/') left ++ Text.pieces (· == '/') right :=
    Text.pieces_append_cons rfl
  have relative : name.toList.head? ≠ some '/' := fun slash =>
    unbroken (List.mem_of_mem_head? slash)
  rw [join, if_neg relative]
  split
  · rename_i ended
    rcases ended with rfl | slash
    · have written : (ofText ("" ++ name)).written = [] ++ [name] := by
        rw [String.empty_append, ofText, pieces_name unbroken]
        simp
      refine ⟨[], written, by decide, ?_⟩
      rw [absolute, written]
      rfl
    · rcases List.getLast?_eq_some_iff.mp slash with ⟨front, ended⟩
      have written : (ofText (directory ++ name)).written =
          (Text.pieces (· == '/') front).map String.ofList ++ [name] := by
        rw [ofText, String.toList_append, ended, List.append_assoc, List.singleton_append,
          cut, pieces_name unbroken]
        simp
      have folder : (ofText directory).written =
          (Text.pieces (· == '/') front).map String.ofList ++ [""] := by
        rw [ofText, ended, cut, List.map_append]
        rfl
      refine ⟨_, written, ?_, ?_⟩
      · rw [parts, parts, folder, List.filter_append]
        simp [leadsNowhere]
      · have first := absolute_concat ((Text.pieces (· == '/') front).map String.ofList) name ""
        rw [← written, ← folder] at first
        exact first
  · rename_i closed
    rw [not_or] at closed
    have written : (ofText (directory ++ "/" ++ name)).written =
        (ofText directory).written ++ [name] := by
      have text : (directory ++ "/" ++ name).toList = directory.toList ++ '/' :: name.toList := by
        rw [String.toList_append, String.toList_append, List.append_assoc]
        rfl
      rw [ofText, ofText, text, cut, pieces_name unbroken]
      simp
    refine ⟨_, written, rfl, ?_⟩
    have first := absolute_ofText_concat closed.1 name
    rw [← written] at first
    exact first

end

end Tabula.Path
