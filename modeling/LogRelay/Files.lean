import LogRelay.Text.Utf8

/-!
The files of a machine as a program finds them. What stands at a path is for the system to say: paths of
any form, links and permissions are its own affair, so all that is known of it is its answers. A file
that is named without a slash in front is looked for in the directory that the program runs in, and
from there in each directory on the way up to the root.
-/

namespace LogRelay

/-- Why a file cannot be read as text. -/
inductive FileError where
  /-- The system does not give it, for that reason and by that number of its own. -/
  | system (cause : String) (number : Nat)
  | notText
  deriving DecidableEq, Repr

namespace FileError

def notFound : FileError := system "No such file or directory" 2

def denied : FileError := system "Permission denied" 13

def notDirectory : FileError := system "Not a directory" 20

def isDirectory : FileError := system "Is a directory" 21

def message : FileError → String
  | system cause number => cause ++ " (os error " ++ toString number ++ ")"
  | notText => "stream did not contain valid UTF-8"

end FileError

/-- The files of a machine, by paths as they are written. -/
structure Files where
  /-- The names on the way from the root to the directory that the program runs in, if it has one. -/
  directory : Option (List String)
  /-- Whether a regular file stands at a path. -/
  isFile : String → Bool
  /-- What comes of reading the file at a path. -/
  read : String → Except FileError (List UInt8)

namespace Files

def readText (files : Files) (path : String) : Except FileError String := do
  match Text.Utf8.decode? (← files.read path) with
  | some s => return s
  | none => .error .notText

/-! ### Where a file is looked for -/

/-- Whether the path begins at the root. -/
def isAbsolute (path : String) : Bool := path.toList.head? = some '/'

/-- The path from the root to what a path names in a directory. -/
def join (directory : List String) (path : String) : String :=
  "/" ++ String.join (directory.map (· ++ "/")) ++ path

/-- A directory and those above it, the nearest first. -/
def upwards : List String → List (List String)
  | [] => [[]]
  | name :: rest => (upwards rest).map (name :: ·) ++ [[]]

/-- The paths that a path may stand for, in the order in which they are tried. -/
def candidates (directory : Option (List String)) (path : String) : List String :=
  if isAbsolute path then [path]
  else (directory.map fun d => (upwards d).map (join · path)).getD []

/-- The path of the file that is meant, if there is one. -/
def locate? (files : Files) (path : String) : Option String :=
  (candidates files.directory path).find? files.isFile

/-! ### Names in messages -/

/-- The names between slashes, without those that stay where they are. -/
def names (path : String) : List String :=
  ((path.toList.splitOn '/').filter fun name => name ≠ [] ∧ name ≠ ['.']).map String.ofList

/-- How a file is called, by the way to it from the directory that the program runs in if that is
shorter than the way from the root. -/
def display (files : Files) (path : String) : String :=
  match files.directory with
  | none => path
  | some directory =>
    let place := names path
    let shared := ((place.zip directory).takeWhile fun (name, other) => name = other).length
    let way := List.replicate (directory.length - shared) ".." ++ place.drop shared
    if way.length ≤ place.length then "/".intercalate way else path

/-! ### A machine with few files -/

/-- Where a path leads if there are no links, as the names on the way from the root. -/
def place (directory : List String) (path : String) : List String :=
  (names path).foldl (fun here name => if name = ".." then here.dropLast else here ++ [name])
    (if isAbsolute path then [] else directory)

/-- A machine without links, on which the program runs in that directory and there are just these
files. -/
def only (directory : List String) (contents : List (String × List UInt8)) : Files :=
  let read (path : String) : Except FileError (List UInt8) :=
    let target := place directory path
    match contents.find? fun (name, _) => place directory name == target with
    | some (_, bytes) =>
      if path.toList.getLast? = some '/' then .error .notDirectory else .ok bytes
    | none =>
      if path = "" then .error .notFound
      else if target.isPrefixOf directory ∨
          contents.any fun (name, _) => target.isPrefixOf (place directory name) then
        .error .isDirectory
      else if contents.any fun (name, _) => (place directory name).isPrefixOf target then
        .error .notDirectory
      else .error .notFound
  { directory := some directory, isFile := fun path => (read path).toBool, read := read }

end Files

end LogRelay
