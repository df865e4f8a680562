import LabExchange.Json.Reader
import LabExchange.Json.Value

/-!
# Records and variants in JSON

A record is an object with named fields, or an array of its fields in order. Unknown names are
ignored and a known one may stand only once. A variant is its name, or an object with that one
name whose value is what the variant carries, null for one that carries nothing.

A tree is decoded as it stands. `Json.read` decodes a text, where a repeated name shows, and
`Json.readValue` the sorted document of the text, where only the last one of each name is left.
-/
namespace LabExchange

/-- Why a text could not be read as a type. -/
inductive ReadError where
  /-- The text is not JSON that has a value. -/
  | malformed
  /-- The text is JSON, but not of this type. -/
  | mismatched
  deriving DecidableEq, Repr

namespace Tree

variable {δ : Type}

def asBool? : Tree δ → Option Bool
  | bool b => some b
  | _ => none

def asString? : Tree δ → Option String
  | string s => some s
  | _ => none

def asDouble? : Tree δ → Option Double
  | number n => some n.toDouble
  | _ => none

/-- A natural number below a bound. -/
def asNat? (bound : Nat) : Tree δ → Option Nat
  | number n => n.toNat? bound
  | _ => none

def asWord? (t : Tree δ) : Option UInt64 := (t.asNat? UInt64.size).map UInt64.ofNat

/-- Decodes every item of an array. -/
def asList? {α : Type} (item? : Tree δ → Option α) : Tree δ → Option (List α)
  | array items => items.mapM item?
  | _ => none

/-- Decodes a field that may be null. -/
def asOption? {α : Type} (some? : Tree δ → Option α) : Tree δ → Option (Option α)
  | null => some none
  | t => (some? t).map some

/-- The value under a name that may be missing but not stand twice. -/
def field? (name : String) (members : List (String × Tree δ)) : Option (Option (Tree δ)) :=
  match members.filter (·.1 == name) with
  | [] => some none
  | [member] => some (some member.2)
  | _ => none

/-- The fields of a record in order; a missing one is `none`. In an array only the last
`optional` fields may be missing. -/
def fields? (names : List String) (optional : Nat) : Tree δ → Option (List (Option (Tree δ)))
  | object members => names.mapM (field? · members)
  | array items =>
    if items.length ≤ names.length ∧ names.length ≤ items.length + optional then
      some (items.map some ++ List.replicate (names.length - items.length) none)
    else none
  | _ => none

/-- The name of a variant and what it carries, if anything stands there. -/
def variant? : Tree δ → Option (String × Option (Tree δ))
  | string name => some (name, none)
  | object [(name, content)] => some (name, some content)
  | _ => none

/-- The name of a variant that carries nothing. -/
def name? (t : Tree δ) : Option String :=
  match t.variant? with
  | some (name, none) | some (name, some null) => some name
  | _ => none

end Tree

namespace Json

/-- A whole number as it is written; beyond 64 bits it is a double. -/
def ofInt (value : Int) : Json :=
  if h : Number.IntRange value then .number (.integer value h)
  else match (Double.ofInt value).bind Number.ofDouble? with
    | some n => .number n
    | none => .null

def ofNat (value : Nat) : Json := ofInt value

/-- A double; one that is not finite has no number and is null. -/
def ofDouble (value : Double) : Json :=
  match Number.ofDouble? value with
  | some n => .number n
  | none => .null

def ofList {α : Type} (item : α → Json) (items : List α) : Json := .array (items.map item)

def ofOption {α : Type} (item : α → Json) : Option α → Json
  | some a => item a
  | none => .null

/-- Reads a text as a type. -/
def read {α : Type} (decode? : Draft → Option α) (text : String) : Except ReadError α :=
  match (Draft.ofText? text).bind decode? with
  | some a => .ok a
  | none => .error (if (ofText? text).isNone then .malformed else .mismatched)

/-- Reads the sorted document of a text as a type. -/
def readValue {α : Type} (decode? : Json → Option α) (text : String) : Except ReadError α :=
  match ofText? text with
  | none => .error .malformed
  | some json => match decode? json with
    | some a => .ok a
    | none => .error .mismatched

end Json
end LabExchange
