import LabExchange.Json.Token

/-!
# Reading JSON

The tokens are folded into a tree by a stack of the arrays and objects still open. A text that
follows the grammar gives a draft; `Json.ofText?` asks in addition that every leaf has a value
and that no array or object lies inside 127 others.
-/
namespace LabExchange

/-- An array or object that is still open, with what it holds so far, last first. The key of the
member that is being read stands last. -/
inductive Frame where
  | items (before : List Draft)
  | member (before : List (Option String × Draft)) (key : Option String)

/-- What has been read and what must come next, inside the open frames, innermost first. -/
inductive Reading where
  | value (frames : List Frame)
  | item (frames : List Frame)
  | key (before : List (Option String × Draft)) (frames : List Frame)
  | keyOrClose (frames : List Frame)
  | colon (before : List (Option String × Draft)) (key : Option String) (frames : List Frame)
  | next (value : Draft) (frames : List Frame)

namespace Reading

/-- The tree of a token that is a value by itself. -/
def leaf? : Token → Option Draft
  | .null => some .null
  | .bool b => some (.bool b)
  | .number (some n) => some (.number n)
  | .number none => some (.defect .tooLarge)
  | .string (some s) => some (.string s)
  | .string none => some (.defect .loneSurrogate)
  | _ => none

/-- The tree of the members of an object, last first. -/
def close (members : List (Option String × Draft)) : Draft :=
  match members.reverse.mapM fun (name, tree) => name.map (·, tree) with
  | some members => .object members
  | none => .defect .loneSurrogate

def beginValue (frames : List Frame) : Token → Option Reading
  | .openArray => some (.item frames)
  | .openObject => some (.keyOrClose frames)
  | token => (leaf? token).map (.next · frames)

/-- Reads one token. -/
def step : Reading → Token → Option Reading
  | value frames, token => beginValue frames token
  | item frames, .closeArray => some (next (.array []) frames)
  | item frames, token => beginValue (.items [] :: frames) token
  | key before frames, .string name => some (colon before name frames)
  | keyOrClose frames, .closeObject => some (next (.object []) frames)
  | keyOrClose frames, .string name => some (colon [] name frames)
  | colon before name frames, .colon => some (value (.member before name :: frames))
  | next tree (.items before :: frames), .comma => some (value (.items (tree :: before) :: frames))
  | next tree (.items before :: frames), .closeArray =>
    some (next (.array (tree :: before).reverse) frames)
  | next tree (.member before name :: frames), .comma => some (key ((name, tree) :: before) frames)
  | next tree (.member before name :: frames), .closeObject =>
    some (next (close ((name, tree) :: before)) frames)
  | _, _ => none

end Reading

/-- How many arrays and objects may enclose each other. -/
def Draft.maxDepth : Nat := 127

/-- The tree of a list of tokens. -/
def Draft.ofTokens? (tokens : List Token) : Option Draft :=
  match tokens.foldlM Reading.step (.value []) with
  | some (.next draft []) => some draft
  | _ => none

/-- Reads a text, if it follows the grammar of JSON. -/
def Draft.ofText? (text : String) : Option Draft :=
  ((Token.ofText? text.toList).bind Draft.ofTokens?).map (Tree.prune maxDepth)

/-- Reads a text as a sorted document. -/
def Json.ofText? (text : String) : Option Json := (Draft.ofText? text).bind Tree.value?

end LabExchange
