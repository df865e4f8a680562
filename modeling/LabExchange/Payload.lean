import LabExchange.Category
import LabExchange.Double.Magnitude

/-!
# Payloads

The data that an entry carries, in the seven shapes of the categories. In JSON a payload is an
object with its kind and its data.
-/
namespace LabExchange

structure ComplexValue where
  re : Double
  im : Double
  deriving DecidableEq

/-- Training samples, one row of inputs and one of outputs for each. -/
structure Dataset where
  inputs : List (List Double)
  outputs : List (List Double)
  deriving DecidableEq

inductive Payload where
  | matrix (rows : List (List Double))
  | array (values : List Double)
  | scalar (value : Double)
  /-- The expression of a function as text. -/
  | function (expression : String)
  | complex (value : ComplexValue)
  | dataset (value : Dataset)
  | vector (values : List Double)
  deriving DecidableEq

namespace ComplexValue

def magnitude (z : ComplexValue) : Double := z.re.magnitude z.im

def same (a b : ComplexValue) : Bool := a.re.same b.re && a.im.same b.im

def isFinite (z : ComplexValue) : Bool := z.re.isFinite && z.im.isFinite

def toJson (z : ComplexValue) : Json :=
  .object [("re", Json.ofDouble z.re), ("im", Json.ofDouble z.im)]

def ofTree? {δ : Type} (t : Tree δ) : Option ComplexValue :=
  match t.fields? ["re", "im"] 0 with
  | some [some re, some im] => do return ⟨← re.asDouble?, ← im.asDouble?⟩
  | _ => none

end ComplexValue

/-- Numerical equality of rows of doubles. -/
def Double.sameRow : List Double → List Double → Bool
  | [], [] => true
  | a :: as, b :: bs => a.same b && sameRow as bs
  | _, _ => false

/-- Numerical equality of tables of doubles. -/
def Double.sameRows : List (List Double) → List (List Double) → Bool
  | [], [] => true
  | a :: as, b :: bs => sameRow a b && sameRows as bs
  | _, _ => false

/-- The rows of a table as an array of arrays. -/
def Json.ofRows (rows : List (List Double)) : Json := Json.ofList (Json.ofList Json.ofDouble) rows

def Tree.asRows? {δ : Type} (t : Tree δ) : Option (List (List Double)) :=
  t.asList? (·.asList? Tree.asDouble?)

namespace Dataset

/-- How many samples there are, counted by their inputs. -/
def length (d : Dataset) : Nat := d.inputs.length

def isEmpty (d : Dataset) : Bool := d.inputs.isEmpty

def same (a b : Dataset) : Bool :=
  Double.sameRows a.inputs b.inputs && Double.sameRows a.outputs b.outputs

def isFinite (d : Dataset) : Bool := (d.inputs ++ d.outputs).all fun row => row.all Double.isFinite

def toJson (d : Dataset) : Json :=
  .object [("inputs", Json.ofRows d.inputs), ("outputs", Json.ofRows d.outputs)]

def ofTree? {δ : Type} (t : Tree δ) : Option Dataset :=
  match t.fields? ["inputs", "outputs"] 0 with
  | some [some inputs, some outputs] => do return ⟨← inputs.asRows?, ← outputs.asRows?⟩
  | _ => none

end Dataset

namespace Payload

/-- The only category under which the payload may be stored. -/
def category : Payload → Category
  | matrix _ => .matrices
  | array _ => .arrays
  | scalar _ => .scalars
  | function _ => .functions
  | complex _ => .complex
  | dataset _ => .datasets
  | vector _ => .vectors

/-- Rows and columns. The width of a table is that of its first row, and an array or vector is a
single column. -/
def dimensions : Payload → Option (Nat × Nat)
  | matrix rows => some (rows.length, (rows.head?.map List.length).getD 0)
  | array values | vector values => some (values.length, 1)
  | dataset d => some (d.length, (d.inputs.head?.map List.length).getD 0)
  | scalar _ | function _ | complex _ => none

/-- Whether no number in the payload is infinite or not a number. -/
def isFinite : Payload → Bool
  | matrix rows => rows.all fun row => row.all Double.isFinite
  | array values | vector values => values.all Double.isFinite
  | scalar value => value.isFinite
  | function _ => true
  | complex value => value.isFinite
  | dataset value => value.isFinite

def asMatrix? : Payload → Option (List (List Double))
  | matrix rows => some rows
  | _ => none

def asScalar? : Payload → Option Double
  | scalar value => some value
  | _ => none

def asComplex? : Payload → Option ComplexValue
  | complex value => some value
  | _ => none

/-- Equality of payloads of one shape, their numbers compared numerically. -/
def same : Payload → Payload → Bool
  | matrix a, matrix b => Double.sameRows a b
  | array a, array b => Double.sameRow a b
  | scalar a, scalar b => a.same b
  | function a, function b => a == b
  | complex a, complex b => a.same b
  | dataset a, dataset b => a.same b
  | vector a, vector b => Double.sameRow a b
  | _, _ => false

/-- The name of the shape. -/
def kind : Payload → String
  | matrix _ => "matrix"
  | array _ => "array"
  | scalar _ => "scalar"
  | function _ => "function"
  | complex _ => "complex"
  | dataset _ => "dataset"
  | vector _ => "vector"

def dataJson : Payload → Json
  | matrix rows => Json.ofRows rows
  | array values | vector values => Json.ofList Json.ofDouble values
  | scalar value => Json.ofDouble value
  | function expression => .string expression
  | complex value => value.toJson
  | dataset value => value.toJson

def toJson (p : Payload) : Json := .object [("kind", .string p.kind), ("data", p.dataJson)]

/-- Decodes the data of a kind. -/
def ofKind? {δ : Type} (kind : String) (data : Tree δ) : Option Payload :=
  match kind with
  | "matrix" => data.asRows?.map matrix
  | "array" => (data.asList? Tree.asDouble?).map array
  | "scalar" => data.asDouble?.map scalar
  | "function" => data.asString?.map function
  | "complex" => (ComplexValue.ofTree? data).map complex
  | "dataset" => (Dataset.ofTree? data).map dataset
  | "vector" => (data.asList? Tree.asDouble?).map vector
  | _ => none

/-- Whether the data stands before the kind. Nothing is known about it then, and all of it must
have a value. -/
def dataFirst {δ : Type} : Tree δ → Bool
  | .object members =>
    (members.find? fun m => m.1 == "kind" || m.1 == "data").any (·.1 == "data")
  | _ => false

/-- The kind of a payload. In an array it is a plain name, and in an object it may also be written
as a variant that carries null. -/
def kindName? {δ : Type} : Tree δ → Tree δ → Option String
  | .array _, kind => kind.asString?
  | _, kind => kind.name?

def ofTree? {δ : Type} (t : Tree δ) : Option Payload :=
  match t.fields? ["kind", "data"] 0 with
  | some [some kind, some data] =>
    if dataFirst t && data.value?.isNone then none
    else (kindName? t kind).bind fun kind => ofKind? kind data
  | _ => none

end Payload
end LabExchange
