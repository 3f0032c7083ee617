/-
# Files

The texts of files and the directories they lie in.  A path is followed name by name; every
place it passes through has to be a directory, also one that it leaves again by `..`.
-/

namespace ObjectGraph

/-- Why a file cannot be read. -/
inductive FileFault
  | missing
  | isDirectory
  | notDirectory
deriving DecidableEq

/-- What the system says of a fault. -/
def FileFault.message : FileFault → String
  | missing => "No such file or directory (os error 2)"
  | isDirectory => "Is a directory (os error 21)"
  | notDirectory => "Not a directory (os error 20)"

namespace Path

/-- A path that starts from another one. -/
def join (base path : String) : String :=
  if path.startsWith "/" || base.isEmpty then path
  else if base.endsWith "/" then base ++ path
  else base ++ "/" ++ path

/-- The names in a path, between its slashes. -/
def names (path : String) : List String :=
  (path.toList.splitOn '/').map String.ofList

end Path

/-- A place among files: the names that lead to it, the last one first. -/
abbrev Place := List String

namespace Place

/-- The place that a name leads to. -/
def enter (place : Place) (name : String) : Place :=
  if name = "" ∨ name = "." then place
  else if name = ".." ∧ place ≠ [] ∧ place.head? ≠ some ".." then place.tail
  else name :: place

/-- The places that names lead through, up to the one in which the last name stands. -/
def through (place : Place) : List String → List Place
  | [] => []
  | name :: rest => place :: (place.enter name).through rest

end Place

/-- The files and directories that are there. -/
structure Files where
  /-- The texts of files, each with its place. -/
  texts : List (Place × String) := []
  directories : List Place := []

namespace Files

/-- No files and no directories. -/
def empty : Files := {}

/-- Create a directory, and those on the way to it. -/
def createDirectory (files : Files) (path : String) : Files :=
  let names := Path.names path
  { files with
    directories := names.foldl Place.enter [] :: Place.through [] names ++ files.directories }

/-- Write a file, and create the directories on the way to it. -/
def write (files : Files) (path text : String) : Files :=
  let names := Path.names path
  let place := names.foldl Place.enter []
  { texts := (place, text) :: files.texts.filter (·.1 ≠ place)
    directories := Place.through [] names ++ files.directories }

/-- Write files, one after the other. -/
def writeAll (files : Files) (entries : List (String × String)) : Files :=
  entries.foldl (fun files (path, text) => files.write path text) files

/-- Follow a name from a place, which has to be a directory. -/
def follow (files : Files) (place : Place) (name : String) : Except FileFault Place :=
  if place = [] ∨ place ∈ files.directories then .ok (place.enter name)
  else if (files.texts.lookup place).isSome then .error .notDirectory
  else .error .missing

/-- The text of a file. -/
def read (files : Files) (path : String) : Except FileFault String := do
  let place ← (Path.names path).foldlM files.follow []
  match files.texts.lookup place with
  | some text => return text
  | none => throw (if place ∈ files.directories then .isDirectory else .missing)

end Files
end ObjectGraph
