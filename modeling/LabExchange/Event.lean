import LabExchange.Listing
import LabExchange.Log

/-!
# Events

What observers of a hub are told: that an entry was stored or removed, that entries were cleared,
or that a tab asks another one to load an entry.
-/
namespace LabExchange

inductive EventKind where
  | entryCreated
  | entryRemoved
  | entriesCleared
  | useData
  deriving DecidableEq, Repr

namespace EventKind

def all : List EventKind := [entryCreated, entryRemoved, entriesCleared, useData]

def name : EventKind → String
  | entryCreated => "entry-created"
  | entryRemoved => "entry-removed"
  | entriesCleared => "entries-cleared"
  | useData => "use-data"

def ofName? (name : String) : Option EventKind := all.find? (·.name == name)

def toJson (k : EventKind) : Json := .string k.name

def ofTree? {δ : Type} (t : Tree δ) : Option EventKind := t.name?.bind ofName?

end EventKind

/-- What a clearing emptied. -/
inductive ClearScope where
  | category (category : Category)
  | all
  deriving DecidableEq, Repr

namespace ClearScope

def name : ClearScope → String
  | category c => c.name
  | all => "all"

def toJson : ClearScope → Json
  | category c => .object [("category", c.toJson)]
  | all => .string "all"

def ofTree? {δ : Type} (t : Tree δ) : Option ClearScope :=
  match t.variant? with
  | some ("category", some content) => (Category.ofTree? content).map category
  | some ("all", none) | some ("all", some .null) => some all
  | _ => none

end ClearScope

/-- An event carries copies of the entries it is about. -/
inductive HubEvent where
  | entryCreated (entry : Entry) (category : Category)
  | entryRemoved (entry : Entry) (category : Category)
  | entriesCleared (scope : ClearScope)
  /-- A tab asks the one that owns the target category to load the entry. -/
  | useData (entry : Entry) (target : Category)

namespace HubEvent

def kind : HubEvent → EventKind
  | entryCreated .. => .entryCreated
  | entryRemoved .. => .entryRemoved
  | entriesCleared _ => .entriesCleared
  | useData .. => .useData

def entry? : HubEvent → Option Entry
  | entryCreated e _ | entryRemoved e _ | useData e _ => some e
  | entriesCleared _ => none

/-- The line about an event that goes to handlers. -/
def dispatchLine (event : HubEvent) (handlers : Nat) : LogLine :=
  .remark .debug .events s!"Dispatching {event.kind.name} to {handlers} handlers"

end HubEvent

/-- How many handlers took an event, and how many of them failed. -/
structure DispatchReport where
  delivered : Nat
  failed : Nat
  deriving DecidableEq, Repr

end LabExchange
