/-!
# Command-line arguments

One subcommand with its operands, and options that may stand before or after it. An option that
takes a value has it in the next argument or behind an equals sign. After `--` all arguments are
operands.
-/
namespace LabExchange.CommandLine

inductive Command where
  /-- The number of entries of each category. -/
  | counts
  /-- All entries, newest first, or those of a category in the order of export. -/
  | list (category : Option String)
  /-- The entries whose name contains a text. -/
  | search (text : String)
  /-- One entry as JSON. -/
  | showEntry (category id : String)
  | remove (category id : String)
  | clear (category : Option String)
  /-- Exports a sample session. -/
  | demo
  deriving DecidableEq, Repr

/-- Whether the command may change the entries, so that they are saved after it. -/
def Command.mutates : Command → Bool
  | remove .. | clear _ | demo => true
  | counts | list _ | search _ | showEntry .. => false

structure Options where
  config : Option String
  snapshot : Option String
  noSave : Bool
  deriving DecidableEq, Repr

namespace Options

def none : Options := ⟨.none, .none, false⟩

/-- The options given behind the subcommand go before those given in front of it. -/
def override (first second : Options) : Options :=
  ⟨second.config.or first.config, second.snapshot.or first.snapshot,
    first.noSave || second.noSave⟩

end Options

/-- What the arguments ask for. -/
inductive Invocation where
  | run (options : Options) (command : Command)
  | version
  | refused
  deriving DecidableEq, Repr

/-- The options that take a value. -/
inductive ValueOption where
  | config
  | snapshot
  | category
  deriving DecidableEq, Repr

/-- What has been read so far at one level, in front of the subcommand or behind it. -/
structure Level where
  options : Options
  category : Option String
  operands : List String
  deriving DecidableEq, Repr

namespace Level

def empty : Level := ⟨.none, none, []⟩

/-- Gives an option its value. It must not have one already, and a path must not be empty. -/
def setValue (l : Level) (option : ValueOption) (value : String) : Option Level :=
  match option with
  | .config =>
    if l.options.config.isSome || value = "" then none
    else some { l with options := { l.options with config := some value } }
  | .snapshot =>
    if l.options.snapshot.isSome || value = "" then none
    else some { l with options := { l.options with snapshot := some value } }
  | .category => if l.category.isSome then none else some { l with category := some value }

def setNoSave (l : Level) : Option Level :=
  if l.options.noSave then none else some { l with options := { l.options with noSave := true } }

end Level

/-- What one argument says by itself. -/
inductive Argument where
  /-- An option with its value, if that stands behind an equals sign or the letter. -/
  | valued (option : ValueOption) (value : Option String)
  | noSave
  | version
  /-- All that follows are operands. -/
  | escape
  | operand (text : String)
  | unknown
  deriving DecidableEq, Repr

namespace Argument

/-- The option of a long name, and whether only subcommands with a category have it. -/
def longOption? (name : String) : Option ValueOption :=
  if name = "config" then some .config
  else if name = "snapshot" then some .snapshot
  else if name = "category" then some .category
  else none

def ofText (text : String) : Argument :=
  match text.toList with
  | ['-', '-'] => .escape
  | '-' :: '-' :: rest =>
    let name := String.ofList (rest.takeWhile (· != '='))
    let value := match rest.dropWhile (· != '=') with
      | [] => none
      | _ :: value => some (String.ofList value)
    match longOption? name with
    | some option => .valued option value
    | none => if name = "no-save" ∧ value = none then .noSave else .unknown
  | '-' :: 'c' :: rest =>
    match rest with
    | [] => .valued .category none
    | '=' :: value => .valued .category (some (String.ofList value))
    | value => .valued .category (some (String.ofList value))
  | '-' :: 'V' :: _ => .version
  | '-' :: _ :: _ => .unknown
  | _ => .operand text

end Argument

/-- Reads the arguments behind a subcommand. `hasCategory` says whether it has that option. -/
def readLevel (hasCategory : Bool) (level : Level) : List String → Option Level
  | [] => some level
  | text :: rest =>
    match Argument.ofText text with
    | .operand text =>
      readLevel hasCategory { level with operands := level.operands ++ [text] } rest
    | .escape => some { level with operands := level.operands ++ rest }
    | .noSave => level.setNoSave.bind (readLevel hasCategory · rest)
    | .valued option value =>
      if option = .category ∧ !hasCategory then none
      else match value, rest with
        | some value, rest => (level.setValue option value).bind (readLevel hasCategory · rest)
        | none, next :: rest =>
          match Argument.ofText next with
          | .operand value => (level.setValue option value).bind (readLevel hasCategory · rest)
          | _ => none
        | none, [] => none
    | .version | .unknown => none

/-- The command of a subcommand and what stands behind it. -/
def command? (name : String) (level : Level) : Option Command :=
  match name, level.operands with
  | "counts", [] => some .counts
  | "list", [] => some (.list level.category)
  | "search", [text] => some (.search text)
  | "show", [category, id] => some (.showEntry category id)
  | "remove", [category, id] => some (.remove category id)
  | "clear", [] => some (.clear level.category)
  | "demo", [] => some .demo
  | _, _ => none

/-- Reads the arguments of a run. -/
def readArguments (level : Level) : List String → Invocation
  | [] => .refused
  | text :: rest =>
    match Argument.ofText text with
    | .operand name =>
      match (readLevel (name = "list" ∨ name = "clear") .empty rest).bind fun inner =>
        (command? name inner).map (inner, ·) with
      | some (inner, command) => .run (level.options.override inner.options) command
      | none => .refused
    | .version => .version
    | .noSave => match level.setNoSave with
      | some level => readArguments level rest
      | none => .refused
    | .valued .category _ => .refused
    | .valued option (some value) => match level.setValue option value with
      | some level => readArguments level rest
      | none => .refused
    | .valued option none =>
      match rest with
      | [] => .refused
      | next :: rest => match Argument.ofText next with
        | .operand value => match level.setValue option value with
          | some level => readArguments level rest
          | none => .refused
        | _ => .refused
    | .escape | .unknown => .refused

/-- What a list of arguments asks for. -/
def Invocation.ofArguments (arguments : List String) : Invocation := readArguments .empty arguments

end LabExchange.CommandLine
