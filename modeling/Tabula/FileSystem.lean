import Tabula.Error
import Tabula.FileSystem.Path
import Tabula.OrderedMap

/-!
# File systems

Files and directories as a value: the content of each file, the directories there are, and the one
from which paths are taken. Above a directory there are only directories, so a directory stands for
all those above it, and a few of them say what all of them are.

A path leads to a place one part at a time. On the way every part must be a directory; the last
part may be anything or nothing. A part of more than 255 bytes names nothing, and is an error as
soon as the way reaches it; so is a path of more than 4095 bytes, before the way begins.
-/

namespace Tabula

inductive Node
  | file (content : ByteArray)
  | directory

/-- A place: the names that lead to it from the root, outermost first. -/
abbrev Location : Type := List String

structure FileSystem where
  /-- Directories that stand, with those above them, for all there are. -/
  directories : List Location
  contents : OrderedMap Location ByteArray
  workingDirectory : Location

namespace FileSystem

def maxNameBytes : Nat := 255

def maxPathBytes : Nat := 4095

/-- The files with a directory alone, from which paths are taken. -/
def ofDirectory (location : Location) : FileSystem :=
  ⟨[location], ∅, location⟩

/-- Whether a place is a directory: the root is, and every place on the way to one. -/
def isDirectory (files : FileSystem) (location : Location) : Bool :=
  location.isEmpty || files.directories.any location.isPrefixOf

def node? (files : FileSystem) (location : Location) : Option Node :=
  if files.isDirectory location then some .directory
  else (files.contents.get? location).map .file

/-- Make a directory and those above it. -/
def addDirectory (files : FileSystem) (location : Location) : FileSystem :=
  { files with
    directories := location :: files.directories.filter fun other => !other.isPrefixOf location }

@[simp]
theorem isDirectory_addDirectory (files : FileSystem) (location other : Location) :
    (files.addDirectory location).isDirectory other =
      (other.isPrefixOf location || files.isDirectory other) := by
  rw [Bool.eq_iff_iff]
  simp only [isDirectory, addDirectory, List.any_cons, Bool.or_eq_true, List.any_eq_true,
    List.mem_filter, Bool.not_eq_true', List.isPrefixOf_iff_prefix]
  constructor
  · rintro (root | above | ⟨kept, ⟨known, -⟩, above⟩)
    · exact .inr (.inl root)
    · exact .inl above
    · exact .inr (.inr ⟨kept, known, above⟩)
  · rintro (above | root | ⟨old, known, above⟩)
    · exact .inr (.inl above)
    · exact .inl root
    · cases covered : old.isPrefixOf location with
      | true => exact .inr (.inl (above.trans (List.isPrefixOf_iff_prefix.mp covered)))
      | false => exact .inr (.inr ⟨old, ⟨known, covered⟩, above⟩)

/-- The place to which parts lead from a directory. -/
def walk (files : FileSystem) (location : Location) : List String → Except FileFault Location
  | [] => .ok location
  | part :: rest =>
      if part = ".." then files.walk location.dropLast rest
      else if maxNameBytes < part.utf8ByteSize then .error .nameTooLong
      else if rest = [] then .ok (location ++ [part])
      else match files.node? (location ++ [part]) with
        | none => .error .notFound
        | some (.file _) => .error .notADirectory
        | some .directory => files.walk (location ++ [part]) rest

/-- The places that a way along parts passes, whatever stands there. -/
def route (location : Location) : List String → List Location
  | [] => []
  | part :: rest =>
      if part = ".." then route location.dropLast rest
      else (location ++ [part]) :: route (location ++ [part]) rest

/-- The directory from which a path is taken. -/
def origin (files : FileSystem) (path : Path) : Location :=
  if path.absolute then [] else files.workingDirectory

/-- The place that a path names. -/
def locate (files : FileSystem) (path : Path) : Except FileFault Location :=
  if path.hasNul then .error .invalidName
  else if path.isEmpty then .error .notFound
  else if maxPathBytes < path.size then .error .nameTooLong
  else files.walk (files.origin path) path.parts

def readFile (files : FileSystem) (path : Path) : Except FileFault ByteArray :=
  match files.locate path with
  | .error fault => .error fault
  | .ok location =>
      match files.node? location with
      | none => .error .notFound
      | some .directory => .error .isADirectory
      | some (.file content) =>
          if path.directoryOnly then .error .notADirectory else .ok content

def isFile (files : FileSystem) (path : Path) : Bool :=
  match files.readFile path with
  | .ok _ => true
  | .error _ => false

/-- The files with a new content of one of them, which is made if it is not there. -/
def writeFile (files : FileSystem) (path : Path) (content : ByteArray) :
    Except FileFault FileSystem :=
  match files.locate path with
  | .error fault => .error fault
  | .ok location =>
      match files.node? location with
      | some .directory => .error .isADirectory
      | _ =>
          if path.directoryOnly then .error .isADirectory
          else .ok { files with contents := files.contents.insert location content }

def removeFile (files : FileSystem) (path : Path) : Except FileFault FileSystem :=
  match files.locate path with
  | .error fault => .error fault
  | .ok location =>
      match files.node? location with
      | none => .error .notFound
      | some .directory => .error .isADirectory
      | some (.file _) =>
          if path.directoryOnly then .error .notADirectory
          else .ok { files with contents := files.contents.erase location }

/-- The files without what stands at a place and below it. -/
def removeAll (files : FileSystem) (location : Location) : FileSystem :=
  { files with
    directories := files.directories.map fun directory =>
      if location.isPrefixOf directory then location.dropLast else directory
    contents := files.contents.filter fun place _ => !location.isPrefixOf place }

/-- Make the directories that parts lead through, from a directory on. Those made before a fault
stay. -/
def makeDirectoriesFrom (files : FileSystem) (location : Location) :
    List String → FileSystem × Except FileFault Unit
  | [] => (files, .ok ())
  | part :: rest =>
      if part = ".." then files.makeDirectoriesFrom location.dropLast rest
      else if maxNameBytes < part.utf8ByteSize then (files, .error .nameTooLong)
      else match files.node? (location ++ [part]) with
        | some .directory => files.makeDirectoriesFrom (location ++ [part]) rest
        | some (.file _) => (files, .error .alreadyExists)
        | none =>
            (files.addDirectory (location ++ [part])).makeDirectoriesFrom (location ++ [part]) rest

/-- Make the directory that a path names, and those on the way to it, where they are missing. The
last of them is tried first, as if the others were there, so a file on the way to it is a fault of
its own unless something before the file is missing. -/
def makeDirectories (files : FileSystem) (path : Path) : FileSystem × Except FileFault Unit :=
  if path.hasNul then (files, .error .invalidName)
  else if maxPathBytes < path.size then (files, .error .nameTooLong)
  else match files.walk (files.origin path) path.parts with
    | .error .notADirectory => (files, .error .notADirectory)
    | _ => files.makeDirectoriesFrom (files.origin path) path.parts

/-- The text of a file, which must be UTF-8. -/
def readText (files : FileSystem) (path : Path) : Except FileFault String :=
  match files.readFile path with
  | .error fault => .error fault
  | .ok content =>
      match String.fromUTF8? content with
      | some text => .ok text
      | none => .error .invalidText

end FileSystem

end Tabula
