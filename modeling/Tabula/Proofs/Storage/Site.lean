import Tabula.Proofs.FileSystem.Way
import Tabula.Proofs.Storage.Places

/-!
# Sites

Where a database stands is given by the directory from which paths are taken and by the two paths
of its configuration. A site says by itself at which place each document can stand, and which places
can ever be directories: those on the ways along the two paths, and those above the directory from
which paths are taken. The records of different tables stand at different places, in one directory;
but nothing keeps these places apart from the place of the catalog, or from the ways.
-/

namespace Tabula

structure Site where
  /-- The directory from which paths are taken. -/
  workingDirectory : Location
  metaPath : String
  dataDir : String

namespace Site

variable {site : Site} {table other : String}

/-- The directory of a new database. -/
def fresh (site : Site) : Directory :=
  ⟨.ofDirectory site.workingDirectory, site.metaPath, site.dataDir⟩

/-- The directory from which a path is taken. -/
def origin (site : Site) (path : String) : Location :=
  if (Path.ofText path).absolute then [] else site.workingDirectory

/-- The place to which a path leads, if it leads anywhere. -/
def place (site : Site) (path : String) : Location :=
  FileSystem.destination (site.origin path) (Path.ofText path).parts

/-- The places that the way along a path passes. -/
def way (site : Site) (path : String) : List Location :=
  FileSystem.route (site.origin path) (Path.ofText path).parts

/-- The path of a table's records. -/
def tablePath (site : Site) (table : String) : String :=
  Path.join site.dataDir (table ++ ".json")

def catalogPlace (site : Site) : Location :=
  site.place site.metaPath

def tablePlace (site : Site) (table : String) : Location :=
  site.place (site.tablePath table)

/-- Places that stand, with those above them, for all that can ever be directories. -/
def extent (site : Site) : List Location :=
  site.workingDirectory :: site.catalogPlace :: (site.way site.metaPath ++ site.way site.dataDir)

section

variable (slashless : '/' ∉ table.toList)

include slashless

/-- A name without a slash is the last part of its path, below the directory of all records. -/
theorem written_tablePath (site : Site) :
    ∃ above, (Path.ofText (site.tablePath table)).written = above ++ [table ++ ".json"] ∧
      (Path.mk above).parts = (Path.ofText site.dataDir).parts ∧
        site.origin (site.tablePath table) = site.origin site.dataDir := by
  rcases Path.exists_written_join (Directory.slash_not_mem_fileName slashless) site.dataDir with
    ⟨above, written, folder, first⟩
  refine ⟨above, written, folder, ?_⟩
  rw [origin, tablePath, first, origin]

theorem parts_tablePath_of_slashless (site : Site) :
    (Path.ofText (site.tablePath table)).parts =
      (Path.ofText site.dataDir).parts ++ [table ++ ".json"] := by
  rcases site.written_tablePath slashless with ⟨above, written, folder, -⟩
  rw [Path.parts, written, List.filter_append, ← folder]
  simp [Path.parts, Directory.leadsNowhere_fileName table]

theorem tablePlace_of_slashless (site : Site) :
    site.tablePlace table = site.place site.dataDir ++ [table ++ ".json"] := by
  rcases site.written_tablePath slashless with ⟨-, -, -, first⟩
  rw [tablePlace, place, first, site.parts_tablePath_of_slashless slashless,
    FileSystem.destination_concat (Directory.fileName_ne (by decide)), place]

end

section

variable (valid : validTableName table = true)

include valid

theorem parts_tablePath (site : Site) :
    (Path.ofText (site.tablePath table)).parts =
      (Path.ofText site.dataDir).parts ++ [table ++ ".json"] :=
  site.parts_tablePath_of_slashless (mem_of_validTableName valid).2.1

theorem origin_tablePath (site : Site) :
    site.origin (site.tablePath table) = site.origin site.dataDir := by
  rcases site.written_tablePath (mem_of_validTableName valid).2.1 with ⟨-, -, -, first⟩
  exact first

theorem tablePlace_eq (site : Site) :
    site.tablePlace table = site.place site.dataDir ++ [table ++ ".json"] :=
  site.tablePlace_of_slashless (mem_of_validTableName valid).2.1

/-- The way to the records of a table is the way to the directory of all records. -/
theorem route_tablePath (site : Site) :
    FileSystem.route (site.origin (site.tablePath table))
        (Path.ofText (site.tablePath table)).parts.dropLast =
      site.way site.dataDir := by
  rw [origin_tablePath valid, parts_tablePath valid, List.dropLast_concat, way]

/-- The path of a table's records fails in the same way in all files, or leads to the name of its
file along the way to the directory of all records. -/
theorem locate_tablePath_cases (site : Site) :
    (FileSystem.Unusable (Path.ofText (site.tablePath table)) ∧ ∃ fault, ∀ files : FileSystem,
        files.locate (Path.ofText (site.tablePath table)) = .error fault) ∨
      (¬FileSystem.Unusable (Path.ofText (site.tablePath table)) ∧ ∀ files : FileSystem,
        files.workingDirectory = site.workingDirectory →
          files.locate (Path.ofText (site.tablePath table)) = files.walk (site.origin site.dataDir)
            ((Path.ofText site.dataDir).parts ++ [table ++ ".json"])) := by
  refine (FileSystem.locate_cases _).imp_right ?_
  rintro ⟨usable, leads⟩
  refine ⟨usable, ?_⟩
  intro files here
  rw [leads, parts_tablePath valid, ← origin_tablePath valid, FileSystem.origin, here, origin]

end

end Site

/-- The site of a database with a configuration. -/
def Config.site (config : Config) (location : Location) : Site :=
  ⟨location, config.metaPath, config.dataDir⟩

/-- The site of a database. -/
def Directory.site (directory : Directory) : Site :=
  ⟨directory.files.workingDirectory, directory.metaPath, directory.dataDir⟩

end Tabula
