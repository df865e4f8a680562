/-!
# Paths

The text of a path is a sequence of names with slashes between them. A slash at the front means
that it starts at the root. Empty names say nothing, and a single point says nothing unless it
stands at the very front or the path ends in it.
-/
namespace LabExchange.Path

/-- The names in a path, points included. -/
def names (path : String) : List String := (path.splitOn "/").filter (· ≠ "")

def isAbsolute (path : String) : Bool := path.startsWith "/"

/-- Whether a slash ends the path, so that only a directory can be meant. -/
def endsInSlash (path : String) : Bool := path.endsWith "/"

/-- The path of a name inside a directory. -/
def join (directory name : String) : String := directory ++ "/" ++ name

/-- Drops what says nothing at the front of a list. -/
def meaningful (names : List String) : List String :=
  names.dropWhile fun name => name = "" ∨ name = "."

/-- What a path begins with before its first name, and the rest: the slash of the root, or the
point of the current directory. -/
def beginning (path : String) : String × String :=
  if path.startsWith "/" then ("/", (path.drop 1).toString)
  else if path = "." ∨ path.startsWith "./" then (".", (path.drop 1).toString)
  else ("", path)

/-- The path without its last name, if it has one. What says nothing goes with the name, and a
path of one name has the empty path above it. -/
def parent? (path : String) : Option String :=
  let (start, rest) := beginning path
  match meaningful (rest.splitOn "/").reverse with
  | [] => if start = "." then some "" else none
  | _ :: above => some (start ++ "/".intercalate (meaningful above).reverse)

/-- The most bytes that a name may have. -/
def longestName : Nat := 255

/-- The most bytes that a path may have. -/
def longestPath : Nat := 4095

end LabExchange.Path
