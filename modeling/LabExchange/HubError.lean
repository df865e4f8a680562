import LabExchange.Category

/-!
# Refused requests

Only a request that no hub could carry out is an error. A look-up that finds nothing is not one.
-/
namespace LabExchange

inductive HubError where
  /-- The name is not that of a category. -/
  | unknownCategory (name : String)
  /-- The payload belongs to another category than the one requested. -/
  | payloadMismatch (category payload : Category)
  /-- The payload holds a number that is infinite or not a number. -/
  | nonFiniteValue (category : Category)
  deriving DecidableEq, Repr

namespace HubError

/-- The short name of the kind of error. -/
def code : HubError → String
  | unknownCategory _ => "UnknownCategory"
  | payloadMismatch .. => "PayloadMismatch"
  | nonFiniteValue _ => "NonFiniteValue"

def message : HubError → String
  | unknownCategory name => s!"Unknown data category '{name}'"
  | payloadMismatch category payload =>
    s!"Cannot store {payload.singular} data in the '{category.name}' category"
  | nonFiniteValue category =>
    s!"Cannot store {category.singular} data containing NaN or infinite values"

def toJson (e : HubError) : Json :=
  let content : Json := match e with
    | unknownCategory name => .string name
    | payloadMismatch category payload =>
      .object [("category", category.toJson), ("payload", payload.toJson)]
    | nonFiniteValue category => category.toJson
  .object [(e.code, content)]

/-- Decodes an error. Straight from text, the two categories of a mismatch may stand in an array
as well as in an object. -/
def ofTree? {δ : Type} (straight : Bool) (t : Tree δ) : Option HubError :=
  match t.variant? with
  | some ("UnknownCategory", some content) => content.asString?.map unknownCategory
  | some ("PayloadMismatch", some content) =>
    match content.fields? ["category", "payload"] 0, content with
    | some [some category, some payload], .object _ => do
      return payloadMismatch (← Category.ofTree? category) (← Category.ofTree? payload)
    | some [some category, some payload], _ =>
      if straight then do
        return payloadMismatch (← Category.ofTree? category) (← Category.ofTree? payload)
      else none
    | _, _ => none
  | some ("NonFiniteValue", some content) => (Category.ofTree? content).map nonFiniteValue
  | _ => none

end HubError

/-- The category of a name, or the error that there is none. -/
def Category.parse (name : String) : Except HubError Category :=
  match ofName? name with
  | some c => .ok c
  | none => .error (.unknownCategory name)

end LabExchange
