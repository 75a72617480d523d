/-
  PointOfSale/Files/Disk.lean
  ===========================
  **A disk as a value** — text files in directories.  A directory is there when
  a file lies in it or below it.  Paths start in a working directory, which always
  is there, and so are the directories around it up to the root of the disk.

  A place is the list of the names that lead to it: `..` leads out of the working
  directory, `/` to the root.
-/
import PointOfSale.Files.Basic

namespace PointOfSale

/-- Files by the names on the way to them. -/
structure Disk where
  files : List (List String × String) := []
  deriving DecidableEq, Repr

namespace Disk

instance : Inhabited Disk := ⟨{}⟩

def text? (disk : Disk) (place : List String) : Option String :=
  (disk.files.find? (·.1 = place)).map (·.2)

/-- Whether a place is the working directory or lies around it. -/
def isAround (place : List String) : Bool := place.all fun name => name = ".." || name = "/"

/-- Whether there is a directory at a place. -/
def hasDirectory (disk : Disk) (place : List String) : Bool :=
  isAround place || disk.files.any fun f => place.isPrefixOf f.1 && f.1 ≠ place

/-- The directory around a place; around the root is the root. -/
def parent (place : List String) : List String :=
  if place = ["/"] then place else if isAround place then place ++ [".."] else place.dropLast

/-- The disk with a file at a place, over one that is there. -/
def put (disk : Disk) (place : List String) (text : String) : Disk :=
  if disk.files.any (·.1 = place) then
    ⟨disk.files.map fun f => if f.1 = place then (place, text) else f⟩
  else ⟨disk.files ++ [(place, text)]⟩

/-- The disk with the given files, by their paths. -/
def ofList (files : List (String × String)) : Disk :=
  files.foldl (fun disk f => disk.put (Path.steps f.1) f.2) {}

/-- Follow names from a place; each is looked up in a directory. -/
def walk (disk : Disk) (place : List String) : List String → Except FileFault (List String)
  | [] => .ok place
  | name :: names =>
    if (disk.text? place).isSome then .error .notDirectory
    else if !disk.hasDirectory place then .error .missing
    else if Path.isStay name then disk.walk place names
    else if name = ".." then disk.walk (parent place) names
    else disk.walk (place ++ [name]) names

/-- The place that a path leads to. -/
def locate (disk : Disk) (path : String) : Except FileFault (List String) :=
  if path = "" then .error .missing
  else disk.walk (if path.startsWith "/" then ["/"] else []) (Path.names path)

def read (disk : Disk) (path : String) : Except FileFault String := do
  let place ← disk.locate path
  match disk.text? place with
  | some text => return text
  | none => throw (if disk.hasDirectory place then .isDirectory else .missing)

/-- Write the file at a path; its directory has to be there. -/
def write (disk : Disk) (path text : String) : Except FileFault Disk := do
  let place ← disk.locate path
  if disk.hasDirectory place then throw .isDirectory
  return disk.put place text

/-- Work on a disk, which a write that fails leaves as it is. -/
instance : Files (StateM Disk) where
  read path := return (← get).read path
  write path text := do
    match (← get).write path text with
    | .ok disk => set disk; return .ok ()
    | .error fault => return .error fault

end Disk

end PointOfSale
