import LabExchange.Failure
import LabExchange.Files.Tree
import LabExchange.Path

/-!
# Files

The few operations on a tree of files that snapshots and configurations need. A path is walked
name by name: every name but the last must lead to a directory that is there, also one that two
points lead out of again.
-/
namespace LabExchange

/-- A tree of files, and the place in it where relative paths begin. -/
structure Files where
  current : Location
  root : FileNode

namespace Files

def at? (files : Files) (place : Location) : Option FileNode := files.root.at? place

def put (files : Files) (place : Location) (node : FileNode) : Files :=
  { files with root := files.root.put node place }

def hasDirectory (files : Files) (place : Location) : Bool :=
  (files.at? place).any FileNode.isDirectory

/-- What is wrong with a path before it is walked. -/
def fault? (path : String) : Option FileError :=
  if path.toList.contains '\x00' then some .zeroInName
  else if Path.longestPath < path.utf8ByteSize then some .nameTooLong
  else if path = "" then some .notFound
  else none

/-- Whether a name is one of the two that say where to go from a directory. -/
def isPoints (name : String) : Bool := name == "." || name == ".."

/-- One step from a directory. A single point stays there, and two points lead one level up. -/
def step (files : Files) (place : Location) (name : String) : Except FileError Location :=
  if !files.hasDirectory place then .error .notADirectory
  else if name = "." then .ok place
  else if name = ".." then .ok place.dropLast
  else if Path.longestName < name.utf8ByteSize then .error .nameTooLong
  else if (files.at? (place ++ [name])).isNone then .error .notFound
  else .ok (place ++ [name])

/-- The place that names lead to. -/
def walk (files : Files) (place : Location) (names : List String) : Except FileError Location :=
  names.foldlM files.step place

/-- The place where the walk along a path begins. -/
def start (files : Files) (path : String) : Location :=
  if Path.isAbsolute path then [] else files.current

/-- The place of what a path leads to. -/
def resolve (files : Files) (path : String) : Except FileError Location :=
  match fault? path with
  | some e => .error e
  | none => (files.walk (files.start path) (Path.names path)).bind fun place =>
    if Path.endsInSlash path && !files.hasDirectory place then .error .notADirectory
    else .ok place

/-- The directory in which a path makes something, and the name under which it does. There is no
name if the path ends in points or is that of the root. -/
def target (files : Files) (path : String) : Except FileError (Location × Option String) :=
  match fault? path with
  | some e => .error e
  | none =>
    let names := Path.names path
    (files.walk (files.start path) names.dropLast).bind fun place =>
      if !files.hasDirectory place then .error .notADirectory
      else .ok (place, names.getLast?.filter fun name => !isPoints name)

def exists? (files : Files) (path : String) : Bool := (files.resolve path).isOk

def read (files : Files) (path : String) : Except FileError String :=
  (files.resolve path).bind fun place => match files.at? place with
    | some (.file content) => .ok content
    | some (.directory _) => .error .isADirectory
    | none => .error .notFound

/-- Writes a file into a directory that must be there. -/
def write (files : Files) (path content : String) : Except FileError Files :=
  (files.target path).bind fun
    | (_, none) => .error .isADirectory
    | (directory, some name) =>
      if Path.endsInSlash path then .error .isADirectory
      else if Path.longestName < name.utf8ByteSize then .error .nameTooLong
      else if files.hasDirectory (directory ++ [name]) then .error .isADirectory
      else .ok (files.put (directory ++ [name]) (.file content))

/-- Appends to the file at a place. Where no file stands nothing changes. -/
def appendAt (files : Files) (place : Location) (text : String) : Files :=
  match files.at? place with
  | some (.file content) => files.put place (.file (content ++ text))
  | _ => files

/-- Moves a new file to the place of a path, where it takes the place of an old one. -/
def replace (files : Files) (path content : String) : Except FileError Files :=
  if path.toList.contains '\x00' then .error .invalidArgument
  else (files.target path).bind fun
    | (_, none) => .error .busy
    | (directory, some name) =>
      if Path.longestName < name.utf8ByteSize then .error .nameTooLong
      else if Path.endsInSlash path then .error .notADirectory
      else if files.hasDirectory (directory ++ [name]) then .error .isADirectory
      else .ok (files.put (directory ++ [name]) (.file content))

/-- The error about a plain file where a directory is needed, with the names that follow it.
The file is in the place of a directory that would be made, unless it has been found on the way
to the first of them. -/
def obstacle (made : Bool) (rest : List String) : FileError :=
  if rest = [] ∨ (made ∧ Path.meaningful rest ≠ []) then .alreadyExists else .notADirectory

/-- Makes what is missing on a walk from a directory. `made` says that something has been made
already. A directory is not made under a name that nothing but points follow. -/
def makeAlong (files : Files) (made : Bool) (place : Location) :
    List String → Except FileError Unit × Files
  | [] => (.ok (), files)
  | name :: rest =>
    if name = "." then files.makeAlong made place rest
    else if name = ".." then files.makeAlong made place.dropLast rest
    else if Path.longestName < name.utf8ByteSize then (.error .nameTooLong, files)
    else match files.at? (place ++ [name]) with
      | some (.directory _) => files.makeAlong made (place ++ [name]) rest
      | some (.file _) => (.error (obstacle made rest), files)
      | none =>
        if rest ≠ [] ∧ Path.meaningful rest = [] then (.error .notFound, files)
        else (files.put (place ++ [name]) .empty).makeAlong true (place ++ [name]) rest

/-- Makes a directory and those above it, as far as they are missing. What has been made before
an error stays. The empty path means the current directory. -/
def makeDirectory (files : Files) (path : String) : Except FileError Unit × Files :=
  if path = "" then (.ok (), files)
  else match fault? path with
    | some e => (.error e, files)
    | none => files.makeAlong false (files.start path) (Path.names path)

end Files
end LabExchange
