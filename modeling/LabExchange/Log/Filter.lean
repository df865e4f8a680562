import LabExchange.Log
import LabExchange.Regex.Reading
import LabExchange.Text.Bytes
import LabExchange.Text.Numeral

/-!
# Log filters

A filter says how much detail a log takes from each part of the program. It is a list of
directives between commas. A level by itself is for all parts, `name=level` for the parts whose
names begin so, and a name by itself lets everything of them through. A directive may also be
about lines in a span or with a field, as `name[span{field=value}]=level`.

Of the directives that are about a report the one with the longest name decides, then one with a
field before one without, and of equal ones the last. A report that none is about is not logged.

Blanks around a directive are passed over when the ends of its parts are looked for, but the parts
are cut out at as many bytes from its start as if they counted. A part may so come out shifted, and
one that would begin or end inside a character is a fault of its own.
-/
namespace LabExchange

/-- Why a text is no filter. -/
inductive LogFilterError where
  | malformed
  /-- A part of a directive would begin or end inside a character. -/
  | splitCharacter
  deriving DecidableEq, Repr

namespace LogFilterError

def message : LogFilterError → String
  | malformed => "invalid filter directive"
  | splitCharacter => "a part of a filter directive is cut inside a character"

end LogFilterError

/-- What a directive asks of a field. -/
structure FieldPattern where
  name : String
  value : Option String
  deriving DecidableEq, Repr

namespace FieldPattern

/-- Whether a text may stand for a value: it is a number or a regular expression. -/
def isValue (text : List Char) : Bool := Text.isNumeral text || Regex.isValid text

/-- Reads a name, which a value may follow. What follows a second equals sign is passed over. -/
def ofText (text : List Char) : Except LogFilterError FieldPattern :=
  let name := text.takeWhile (· != '=')
  let after := text.drop name.length
  let value := (after.drop 1).takeWhile (· != '=')
  if text.isEmpty then .error .malformed
  else if after.isEmpty then .ok ⟨String.ofList name, none⟩
  else if isValue value then .ok ⟨String.ofList name, some (String.ofList value)⟩
  else .error .malformed

end FieldPattern

structure LogDirective where
  /-- How the names of the parts begin; all parts if there is none. -/
  target : Option String
  span : Option String
  field : Option FieldPattern
  /-- How much detail is let through, from 0 for nothing to 5 for everything. -/
  limit : Nat
  deriving DecidableEq, Repr

namespace LogDirective

def limitNames : List String := ["off", "error", "warn", "info", "debug", "trace"]

/-- The limit of a number, or of the name of a level in any case. -/
def limit? (word : List Char) : Option Nat :=
  let digits := match word with
    | '+' :: digits => digits
    | _ => word
  if Text.areDigits digits then
    let n := Nat.ofDigitChars 10 digits 0
    if n ≤ 5 then some n else none
  else limitNames.idxOf? (String.ofList (word.map Char.toLower))

/-- The part of a directive between two numbers of bytes. -/
def cut (text : List Char) (start stop : Nat) : Except LogFilterError (List Char) :=
  match Text.cut? start stop text with
  | some part => .ok part
  | none => .error .splitCharacter

/-- The limit from a number of bytes to the end of a directive. None is given if everything is let
through. -/
def limitFrom (text : List Char) (start : Nat) : Except LogFilterError Nat := do
  let word ← cut text start (Text.byteSize text)
  if word.isEmpty then return 5
  match limit? word with
  | some limit => return limit
  | none => throw .malformed

/-- What follows the brackets of a span: nothing, or an equals sign and a limit. -/
def ending (text : List Char) (start : Nat) : List Char → Except LogFilterError Nat
  | [] => return 5
  | '=' :: _ => limitFrom text (start + 1)
  | _ => throw .malformed

/-- Reads on after the opening bracket of a span, which is followed by the rest of a directive from
a number of bytes. -/
def spanned (text : List Char) (target : Option String) (start : Nat) (rest : List Char) :
    Except LogFilterError LogDirective := do
  let span := rest.takeWhile fun c => c != ']' && c != '{'
  let stop := start + Text.byteSize span
  match rest.drop span.length with
  | ']' :: rest =>
    let name ← cut text start stop
    return ⟨target, some (String.ofList name), none, ← ending text (stop + 1) rest⟩
  | _ :: rest =>
    let name ← cut text start stop
    let name := if name.isEmpty then none else some (String.ofList name)
    let field := rest.takeWhile (· != '\x7d')
    let close := stop + 1 + Text.byteSize field
    match rest.drop field.length with
    | _ :: rest =>
      let field ← FieldPattern.ofText (← cut text (stop + 1) close)
      match rest with
      | ']' :: rest => return ⟨target, name, some field, ← ending text (close + 2) rest⟩
      | _ => throw .malformed
    | [] => throw .malformed
  | [] => throw .malformed

/-- Whether a name may begin with a character. -/
def beginsName (c : Char) : Bool := ['-', ':', '_'].contains c || Text.isAlphanumeric c

/-- Reads one directive. A name by itself, and a limit that follows, stand with their blanks. -/
def ofText (text : List Char) : Except LogFilterError LogDirective := do
  match Text.trim text with
  | [] => throw .malformed
  | '[' :: rest => spanned text none 1 rest
  | c :: rest =>
    if !beginsName c then throw .malformed
    let core := c :: rest
    let name := core.takeWhile fun c => c != '=' && c != '['
    let stop := Text.byteSize name
    match core.drop name.length with
    | [] => match limit? text with
      | some limit => return ⟨none, none, none, limit⟩
      | none => return ⟨some (String.ofList text), none, none, 5⟩
    | mark :: rest =>
      let target := some (String.ofList (← cut text 0 stop))
      if mark = '[' then spanned text target (stop + 1) rest
      else return ⟨target, none, none, ← limitFrom text (stop + 1)⟩

/-- Whether a directive is about a report of a part with given fields. No report is in a span, and
none has a field of which the value could be told beforehand. -/
def isAbout (d : LogDirective) (source : LogSource) (fields : List String) : Bool :=
  d.span.isNone && d.field.all (fun p => p.value.isNone && fields.contains p.name) &&
    d.target.all fun start => start.toList.isPrefixOf source.name.toList

/-- How special a directive is: by its name first, then by whether it is about a field. -/
def rank (d : LogDirective) : Nat :=
  (match d.target with
    | some start => 2 * (start.length + 1)
    | none => 0) + (if d.field.isSome then 1 else 0)

/-- The name of the field that a directive is about, which is empty if there is none. -/
def fieldName (d : LogDirective) : String := (d.field.map (·.name)).getD ""

/-- Whether a directive decides rather than an earlier one about the same report. -/
def overrules (d earlier : LogDirective) : Bool :=
  earlier.rank < d.rank || earlier.rank == d.rank && !decide (d.fieldName < earlier.fieldName)

end LogDirective

structure LogFilter where
  directives : List LogDirective
  deriving DecidableEq, Repr

namespace LogFilter

/-- Reads a filter. Nothing between commas is no directive. -/
def ofText (text : String) : Except LogFilterError LogFilter :=
  (((text.splitOn ",").filter (· != "")).mapM fun s => LogDirective.ofText s.toList).map .mk

/-- What is logged if nothing else is said: what all parts report, without the details. -/
def standard : LogFilter := ⟨[⟨some "mathlab", none, none, 3⟩]⟩

/-- The filter that a text stands for: the standard one if the text is malformed. A text that
cannot be cut into its parts stands for none. -/
def inForce (text : String) : Except LogFilterError LogFilter :=
  match ofText text with
  | .error .malformed => .ok standard
  | result => result

/-- The filter of a run. One that its surroundings name goes before that of the settings, unless it
is malformed. -/
def ofRun (named : Option String) (settings : String) : Except LogFilterError LogFilter :=
  match named.map ofText with
  | none | some (.error .malformed) => inForce settings
  | some result => result

/-- The directive that decides about a report of a part with given fields. -/
def deciding? (f : LogFilter) (source : LogSource) (fields : List String) : Option LogDirective :=
  (f.directives.filter (·.isAbout source fields)).foldl (fun best d => match best with
    | some b => if d.overrules b then some d else some b
    | none => some d) none

/-- Whether the report of a line with given fields is logged. -/
def takes (f : LogFilter) (line : LogLine) (fields : List String) : Bool :=
  (f.deciding? line.source fields).any fun d => line.level.detail ≤ d.limit

end LogFilter
end LabExchange
