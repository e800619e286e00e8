import Tabula.Text.Blank

/-!
# Paths

A path is written as parts between slashes. Empty parts and the part `.` lead nowhere; the part
`..` leads to the directory above. A path that starts with a slash is taken from the root, and one
that ends with a slash or with the part `.` can only name a directory.
-/

namespace Tabula

structure Path where
  /-- The parts between its slashes, as they are written. -/
  written : List String
deriving DecidableEq, Repr

namespace Path

def ofText (text : String) : Path :=
  ⟨(Text.pieces (· == '/') text.toList).map String.ofList⟩

/-- The number of bytes in which a path is written. -/
def size (path : Path) : Nat :=
  ("/".intercalate path.written).utf8ByteSize

def leadsNowhere (part : String) : Bool :=
  part == "" || part == "."

/-- The parts that lead somewhere, outermost first. -/
def parts (path : Path) : List String :=
  path.written.filter fun part => !leadsNowhere part

def absolute (path : Path) : Bool :=
  match path.written with
  | first :: _ :: _ => first == ""
  | _ => false

def isEmpty (path : Path) : Bool :=
  path.size == 0

/-- Whether a path can only name a directory. -/
def directoryOnly (path : Path) : Bool :=
  !path.isEmpty && path.written.getLast?.any leadsNowhere

/-- Parts without those at their end that lead nowhere. -/
def trimNowhere (parts : List String) : List String :=
  (parts.reverse.dropWhile leadsNowhere).reverse

/-- The path without its last part that leads somewhere. -/
def parent (path : Path) : Path :=
  ⟨trimNowhere (trimNowhere path.written).dropLast⟩

/-- Whether a part holds the character NUL, which no name can. -/
def hasNul (path : Path) : Bool :=
  path.parts.any fun part => part.toList.contains '\x00'

def startsHere (path : Path) : Bool :=
  path.written.head? == some "."

/-- Whether two paths are the same read part by part. The part `.` counts at the start alone, and a
slash at the end does not count. -/
def agrees (left right : Path) : Bool :=
  left.absolute == right.absolute && left.parts == right.parts &&
    left.startsHere == right.startsHere

/-- The text of a path below a directory. A path from the root stands for itself. -/
def join (directory path : String) : String :=
  if path.toList.head? = some '/' then path
  else if directory = "" ∨ directory.toList.getLast? = some '/' then directory ++ path
  else directory ++ "/" ++ path

end Path

end Tabula
