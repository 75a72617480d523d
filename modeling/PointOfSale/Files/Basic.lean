/-
  PointOfSale/Files/Basic.lean
  ============================
  **Reading and writing text files.**  What works on files is written for any
  monad that can read and write them, so that the same definitions run on the
  real file system and on a disk that is a value.
-/
import PointOfSale.Text.Basic

namespace PointOfSale

/-! ### Paths

They are names with slashes between them.  The empty name and the name that is one point
stay where they are. -/

namespace Path

/-- The names that a path is made of. -/
def names (path : String) : List String := (Text.pieces '/' path.toList).map String.ofList

/-- Whether a name stays where it is. -/
def isStay (name : String) : Bool := name = "" || name = "."

/-- The names that lead on. -/
def steps (path : String) : List String := (names path).filter (!isStay ·)

/-- A relative path without names that stay where they are. -/
def plain (path : String) : String := "/".intercalate (steps path)

/-- The last name that leads on. -/
def lastName (path : String) : String := ((steps path).getLast?).getD ""

/-- Whether the last name of a path has an ending and more than that. -/
def hasEnding (ending path : String) : Bool :=
  (lastName path).endsWith ending && lastName path ≠ ending

end Path

/-! ### Files -/

/-- Why a file cannot be read or written. -/
inductive FileFault where
  | missing
  | isDirectory
  /-- A part of the path that is not the last is a file. -/
  | notDirectory
  /-- The file does not hold text. -/
  | notText
  | other (text : String)
  deriving DecidableEq, Repr

namespace FileFault

def message : FileFault → String
  | missing => "No such file or directory (os error 2)"
  | isDirectory => "Is a directory (os error 21)"
  | notDirectory => "Not a directory (os error 20)"
  | notText => "stream did not contain valid UTF-8"
  | other text => text

/-- Whether the fault says that there is no file of that name. -/
def isAbsence : FileFault → Bool
  | missing | isDirectory | notDirectory => true
  | notText | other _ => false

end FileFault

/-- Reading and writing text files by their paths. -/
class Files (m : Type → Type) where
  read (path : String) : m (Except FileFault String)
  /-- Write a file, over one that is there. -/
  write (path text : String) : m (Except FileFault Unit)

end PointOfSale
