/-!
# File trees

A tree of directories and text files. A place in it is the list of the names that lead to it from
the root.
-/
namespace LabExchange

/-- A place in a tree, as the names from the root to it. -/
abbrev Location := List String

inductive FileNode where
  | file (content : String)
  | directory (entries : List (String × FileNode))

namespace FileNode

/-- The empty directory. -/
def empty : FileNode := directory []

instance : Inhabited FileNode := ⟨empty⟩

def isDirectory : FileNode → Bool
  | directory _ => true
  | file _ => false

/-- What stands under a name in a directory. -/
def child? (name : String) : FileNode → Option FileNode
  | directory entries => (entries.find? (·.1 == name)).map Prod.snd
  | file _ => none

/-- What stands at a place below a node. -/
def at? (node : FileNode) : Location → Option FileNode
  | [] => some node
  | name :: rest => (node.child? name).bind (at? · rest)

/-- The entries of a directory with one more, or with another node under a name that is there. -/
def setEntry (name : String) (node : FileNode) :
    List (String × FileNode) → List (String × FileNode)
  | [] => [(name, node)]
  | entry :: rest =>
    if entry.1 = name then (name, node) :: rest else entry :: setEntry name node rest

/-- Puts a node at a place, with the directories on the way to it. Below a file nothing can be
put. -/
def put (node new : FileNode) : Location → FileNode
  | [] => new
  | name :: rest => match node with
    | file content => file content
    | directory entries =>
      directory (setEntry name (put (((directory entries).child? name).getD empty) new rest)
        entries)

mutual

/-- All places below a node, with the content of files and nothing for directories. -/
def toList : FileNode → List (Location × Option String)
  | file content => [([], some content)]
  | directory entries => ([], none) :: entriesToList entries

/-- All places below the entries of a directory. -/
def entriesToList : List (String × FileNode) → List (Location × Option String)
  | [] => []
  | (name, node) :: rest =>
    (toList node).map (fun (place, content) => (name :: place, content)) ++ entriesToList rest

end

end FileNode
end LabExchange
