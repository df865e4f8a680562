import LabExchange.Json.Tree

/-!
# Writing JSON

A document is written either without any blank space or with one item a line, each level
indented by two more spaces. An empty array or object is written `[]` or `{}` either way.
-/
namespace LabExchange.Json

/-- A character inside a string: quotes, backslashes and control characters are escaped. -/
def escape (c : Char) : List Char :=
  if c = '"' then ['\\', '"']
  else if c = '\\' then ['\\', '\\']
  else if c = '\x08' then ['\\', 'b']
  else if c = '\x0c' then ['\\', 'f']
  else if c = '\n' then ['\\', 'n']
  else if c = '\r' then ['\\', 'r']
  else if c = '\t' then ['\\', 't']
  else if c.toNat < 0x20 then
    ['\\', 'u', '0', '0', (c.toNat / 16).digitChar, (c.toNat % 16).digitChar]
  else [c]

def quote (text : List Char) : List Char := '"' :: text.flatMap escape ++ ['"']

/-- How a document is laid out: what stands before an item at a depth, and after a colon. -/
structure Layout where
  newline : Nat → List Char
  afterColon : List Char

def Layout.compact : Layout := ⟨fun _ => [], []⟩

def Layout.pretty : Layout := ⟨fun depth => '\n' :: List.replicate (2 * depth) ' ', [' ']⟩

variable (layout : Layout)

mutual

/-- A document at a depth. -/
def write (depth : Nat) : Json → List Char
  | .null => ['n', 'u', 'l', 'l']
  | .bool true => ['t', 'r', 'u', 'e']
  | .bool false => ['f', 'a', 'l', 's', 'e']
  | .number n => n.text
  | .string s => quote s.toList
  | .array [] => ['[', ']']
  | .array (item :: rest) =>
    '[' :: layout.newline (depth + 1) ++ write (depth + 1) item ++ writeItems (depth + 1) rest ++
      layout.newline depth ++ [']']
  | .object [] => ['{', '}']
  | .object ((key, item) :: rest) =>
    '{' :: layout.newline (depth + 1) ++ quote key.toList ++ ':' :: layout.afterColon ++
      write (depth + 1) item ++ writeMembers (depth + 1) rest ++ layout.newline depth ++ ['}']

/-- The items after the first one, each behind its comma. -/
def writeItems (depth : Nat) : List Json → List Char
  | [] => []
  | item :: rest => ',' :: layout.newline depth ++ write depth item ++ writeItems depth rest

def writeMembers (depth : Nat) : List (String × Json) → List Char
  | [] => []
  | (key, item) :: rest =>
    ',' :: layout.newline depth ++ quote key.toList ++ ':' :: layout.afterColon ++
      write depth item ++ writeMembers depth rest

end

/-- The document without blank space. -/
def compact (j : Json) : String := String.ofList (write .compact 0 j)

/-- The document with one item a line. -/
def pretty (j : Json) : String := String.ofList (write .pretty 0 j)

end LabExchange.Json
