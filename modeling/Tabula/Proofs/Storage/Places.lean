import Tabula.Catalog
import Tabula.Config
import Tabula.Proofs.Storage.Directory

/-!
# Where documents stand

With the paths of the default configuration the catalog stands in the working directory, and the
records of each table stand in a directory of their own below it. Different tables stand at
different places, none of them the catalog's, because the file's name gives the table's name back
and no table name holds a slash.
-/

namespace Tabula.Directory

open FileSystem (IsName)

/-- The directory of a new database with the default configuration. -/
def fresh (location : Location) : Directory where
  files := .ofDirectory location
  metaPath := ({} : Config).metaPath
  dataDir := ({} : Config).dataDir

/-- The names of the tables for whose records a file can be named. -/
def Admits (table : String) : Prop :=
  validTableName table = true ∧ table.utf8ByteSize ≤ 250

/-- The place of the catalog. -/
def catalogPlace (directory : Directory) : Location :=
  directory.files.workingDirectory ++ ["db_meta.json"]

/-- The place of the directory of all records. -/
def dataPlace (directory : Directory) : Location :=
  directory.files.workingDirectory ++ ["data"]

/-- The place of a table's records. -/
def tablePlace (directory : Directory) (table : String) : Location :=
  directory.files.workingDirectory ++ ["data", table ++ ".json"]

variable {directory : Directory} {table other : String}

/-! ## Names and paths -/

theorem isName_catalog : IsName "db_meta.json" where
  leads := by decide
  proper := by decide
  noNul := by decide
  short := by decide

theorem isName_data : IsName "data" where
  leads := by decide
  proper := by decide
  noNul := by decide
  short := by decide

/-- The name of a table's file is none of the names that stand for a place already. -/
theorem fileName_ne {name : String} (short : name.utf8ByteSize < 5) : table ++ ".json" ≠ name := by
  rintro rfl
  rw [String.utf8ByteSize_append] at short
  exact Nat.not_lt.mpr (Nat.le_add_left _ _) short

theorem leadsNowhere_fileName (table : String) : Path.leadsNowhere (table ++ ".json") = false := by
  rw [Path.leadsNowhere, Bool.or_eq_false_iff, beq_eq_false_iff_ne, beq_eq_false_iff_ne]
  exact ⟨fileName_ne (by decide), fileName_ne (by decide)⟩

theorem slash_not_mem_fileName (slashless : '/' ∉ table.toList) :
    '/' ∉ (table ++ ".json").toList := by
  rw [String.toList_append, List.mem_append]
  rintro (named | ended)
  · exact slashless named
  · exact absurd ended (by decide)

theorem isName_table (admits : Admits table) : IsName (table ++ ".json") := by
  have size : (table ++ ".json").utf8ByteSize = table.utf8ByteSize + 5 := by
    rw [String.utf8ByteSize_append]
    rfl
  refine ⟨leadsNowhere_fileName table, fileName_ne (by decide), ?_, ?_⟩
  · rw [String.toList_append, List.mem_append]
    rintro (named | ended)
    · exact (mem_of_validTableName admits.1).2.2.2 named
    · exact absurd ended (by decide)
  · have few := admits.2
    rw [size, FileSystem.maxNameBytes]
    omega

theorem ofText_catalog : Path.ofText "db_meta.json" = ⟨["db_meta.json"]⟩ := by
  decide +kernel

theorem ofText_table (valid : validTableName table = true) :
    Path.ofText (Path.join "data" (table ++ ".json")) = ⟨["data", table ++ ".json"]⟩ := by
  have unbroken := slash_not_mem_fileName (mem_of_validTableName valid).2.1
  have relative : (table ++ ".json").toList.head? ≠ some '/' := fun slash =>
    unbroken (List.mem_of_mem_head? slash)
  have unbrokenFolder : ∀ c ∈ "data".toList, (c == '/') = false := by
    intro c c_mem
    rw [beq_eq_false_iff_ne]
    rintro rfl
    exact absurd c_mem (by decide)
  have folder : ¬("data" = "" ∨ "data".toList.getLast? = some '/') := by decide
  have text : ("data" ++ "/" ++ (table ++ ".json")).toList =
      "data".toList ++ '/' :: (table ++ ".json").toList := by
    rw [String.toList_append, String.toList_append, List.append_assoc]
    rfl
  rw [Path.join, if_neg relative, if_neg folder, Path.ofText, text,
    Text.pieces_append_break unbrokenFolder rfl, Path.pieces_name unbroken]
  simp

theorem parent_below {name : String} (isName : IsName name) :
    (Path.mk ["data", name]).parent = ⟨["data"]⟩ := by
  have leads := isName.leads
  have folder : Path.leadsNowhere "data" = false := by decide
  simp [Path.parent, Path.trimNowhere, leads, folder]

/-! ## Places -/

@[simp]
theorem catalogPlace_overwrite (directory : Directory) (location : Location)
    (content : ByteArray) :
    (directory.overwrite location content).catalogPlace = directory.catalogPlace :=
  rfl

@[simp]
theorem tablePlace_overwrite (directory : Directory) (location : Location) (content : ByteArray)
    (table : String) :
    (directory.overwrite location content).tablePlace table = directory.tablePlace table :=
  rfl

@[simp]
theorem catalogPlace_discard (directory : Directory) (location : Location) :
    (directory.discard location).catalogPlace = directory.catalogPlace :=
  rfl

@[simp]
theorem tablePlace_discard (directory : Directory) (location : Location) (table : String) :
    (directory.discard location).tablePlace table = directory.tablePlace table :=
  rfl

theorem tablePlace_inj (same : directory.tablePlace table = directory.tablePlace other) :
    table = other := by
  have names := List.append_cancel_left same
  simp only [List.cons.injEq, true_and, and_true] at names
  exact (String.append_left_inj ".json").mp names

theorem tablePlace_ne_catalogPlace : directory.tablePlace table ≠ directory.catalogPlace := by
  intro same
  have names := List.append_cancel_left same
  simp at names

theorem dataPlace_ne_catalogPlace : directory.dataPlace ≠ directory.catalogPlace := by
  intro same
  have names := List.append_cancel_left same
  simp at names

theorem dataPlace_ne_tablePlace : directory.dataPlace ≠ directory.tablePlace table := by
  intro same
  have names := List.append_cancel_left same
  simp at names

theorem not_prefix_catalogPlace : ¬directory.catalogPlace <+: directory.dataPlace := by
  rw [catalogPlace, dataPlace, List.prefix_append_right_inj]
  decide

theorem not_prefix_tablePlace : ¬directory.tablePlace table <+: directory.dataPlace := by
  intro above
  have shorter := above.length_le
  simp [tablePlace, dataPlace] at shorter

end Tabula.Directory
