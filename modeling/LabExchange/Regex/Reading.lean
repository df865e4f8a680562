import LabExchange.Regex.Bracket
import LabExchange.Text.Letter

/-!
# Reading regular expressions

Whether a text is a regular expression: its groups and brackets are closed, its repetitions have
something to repeat, its names are all different, all its symbols can be matched without tables of
the characters outside ASCII, and it is not too deep. There are no bounds on how often something is
repeated. Nothing is matched here.
-/
namespace LabExchange.Regex

/-- What stands before a group that is still open. -/
structure Group where
  mode : Mode
  branches : Siblings
  items : Siblings
  deriving DecidableEq, Repr

structure Reading where
  mode : Mode
  /-- The groups that are still open, innermost first. -/
  groups : List Group
  /-- The branches before the present one. -/
  branches : Siblings
  /-- The parts of the present branch. -/
  items : Siblings
  /-- How deep the last part is, if it may be repeated. -/
  last : Option Nat
  /-- The brackets that are still open, innermost first. -/
  brackets : List Bracket
  /-- The names of the groups so far. -/
  names : List (List Char)
  deriving DecidableEq, Repr

namespace Reading

def initial : Reading := ⟨.initial, [], .empty, .empty, none, [], []⟩

/-- How deep the branches are, the present one among them. -/
def depth (s : Reading) : Nat := (s.branches.add s.items.depth).depth

def addItem (s : Reading) (depth : Nat) : Reading :=
  { s with items := s.items.add depth, last := some depth }

def addBranch (s : Reading) : Reading :=
  { s with branches := s.branches.add s.items.depth, items := .empty, last := none }

/-- Repeats the last part. -/
def repeatLast? (s : Reading) : Option Reading :=
  s.last.map fun d =>
    { s with items := ⟨s.items.count, max s.items.deepest (d + 1)⟩, last := some (d + 1) }

def openGroup (s : Reading) (mode : Mode) : Reading :=
  { s with
    mode := mode
    groups := ⟨s.mode, s.branches, s.items⟩ :: s.groups
    branches := .empty
    items := .empty
    last := none }

/-- Closes a group. The mode is again the one before it. -/
def closeGroup? (s : Reading) : Option Reading :=
  match s.groups with
  | [] => none
  | g :: groups => some
    ({ s with mode := g.mode, groups := groups, branches := g.branches, items := g.items }.addItem
      (s.depth + 1))

/-- Opens brackets, which may begin with the sign of a negated set. -/
def openBracket? (s : Reading) (text : List Char) : Option (Reading × List Char) :=
  let opened : Reading := { s with brackets := .empty :: s.brackets }
  match s.mode.skip text with
  | '^' :: rest => if Bracket.allowsNegation s.mode then some (opened, rest) else none
  | rest => some (opened, rest)

/-- Closes the innermost brackets. -/
def closeBracket (s : Reading) (b : Bracket) (outer : List Bracket) : Reading :=
  match outer with
  | [] => { s with brackets := [] }.addItem (b.depth + 1)
  | o :: outer => { s with brackets := o.add (b.depth + 1) :: outer }

/-- Whether a text may name a group. -/
def isGroupName : List Char → Bool
  | [] => false
  | c :: rest => (c == '_' || Text.isAlphabetic c) &&
    rest.all fun c => ['_', '.', '[', ']'].contains c || Text.isAlphanumeric c

/-- Reads the name of a group up to the closing angle. -/
def namedGroup? (s : Reading) (text : List Char) : Option (Reading × List Char) :=
  let name := text.takeWhile (· != '>')
  match text.drop name.length with
  | '>' :: rest =>
    if isGroupName name && !s.names.contains name then
      some ({ s.openGroup s.mode with names := name :: s.names }, rest)
    else none
  | _ => none

/-- Reads flags: for a group, if a colon follows, or for what comes next, if they are closed. -/
def flags? (s : Reading) (text : List Char) : Option (Reading × List Char) :=
  let flags := text.takeWhile fun c => c != ':' && c != ')'
  let mode := s.mode.withFlags flags
  if Mode.areFlags flags then
    match text.drop flags.length with
    | ':' :: rest => some (s.openGroup mode, rest)
    | ')' :: rest =>
      if flags.isEmpty then none
      else some ({ s.addItem 0 with mode := mode, last := none }, rest)
    | _ => none
  else none

/-- Reads on after an opening parenthesis. -/
def group? (s : Reading) (text : List Char) : Option (Reading × List Char) :=
  match s.mode.skip text with
  | '?' :: 'P' :: '<' :: rest | '?' :: '<' :: rest => s.namedGroup? rest
  | '?' :: rest => s.flags? rest
  | rest => some (s.openGroup s.mode, rest)

/-- Reads a symbol outside brackets. -/
def symbol? (s : Reading) (text : List Char) : Option (Reading × List Char) :=
  (Symbol.read? s.mode text).bind fun (symbol, rest) =>
    if symbol.standsAlone s.mode then some (s.addItem 0, rest) else none

/-- Reads a part or a sign outside brackets. -/
def stepOutside (s : Reading) (c : Char) (rest : List Char) : Option (Reading × List Char) :=
  match c with
  | '(' => s.group? rest
  | ')' => s.closeGroup?.map (·, rest)
  | '|' => some (s.addBranch, rest)
  | '[' => s.openBracket? rest
  | '{' => none
  | '?' | '*' | '+' =>
    s.repeatLast?.map fun s => (s, if rest.head? == some '?' then rest.drop 1 else rest)
  | '.' => if s.mode.byCharacters then some (s.addItem 0, rest) else none
  | '^' | '$' => some (s.addItem 0, rest)
  | c => s.symbol? (c :: rest)

/-- Reads a part or a sign between brackets. -/
def stepInside (s : Reading) (b : Bracket) (outer : List Bracket) (c : Char) (rest : List Char) :
    Option (Reading × List Char) :=
  let continued (b : Bracket) : Reading := { s with brackets := b :: outer }
  if b.atFront && (c == '-' || c == ']' && b.items.count == 0) then
    if (Symbol.character c false).standsInBrackets s.mode then
      some (continued { b.add 0 with atFront := c == '-' }, rest)
    else none
  else match c, rest with
    | ']', rest => some (s.closeBracket b outer, rest)
    | '[', rest => match Bracket.namedSet? rest with
      | some (negated, rest) =>
        if Bracket.allowsNamedSet s.mode negated then some (continued (b.add 0), rest) else none
      | none => (continued { b with atFront := false }).openBracket? rest
    | '&', '&' :: rest | '-', '-' :: rest | '~', '~' :: rest => some (continued b.operate, rest)
    | c, rest => (Bracket.range? s.mode (c :: rest)).map (continued (b.add 0), ·)

/-- Reads a part or a sign. -/
def step (s : Reading) (c : Char) (rest : List Char) : Option (Reading × List Char) :=
  match s.brackets with
  | [] => s.stepOutside c rest
  | b :: outer => s.stepInside b outer c rest

/-- Reads a text to its end. Every step leaves less of it. -/
def run (s : Reading) (text : List Char) : Option Reading :=
  match s.mode.skip text with
  | [] => some s
  | c :: rest => match s.step c rest with
    | none => none
    | some (s, rest) => if rest.length < text.length then run s rest else none
termination_by text.length

end Reading

/-- Whether a text is a regular expression. -/
def isValid (text : List Char) : Bool :=
  (Reading.initial.run text).any fun s =>
    s.groups.isEmpty && s.brackets.isEmpty && s.depth ≤ maxDepth

end LabExchange.Regex
