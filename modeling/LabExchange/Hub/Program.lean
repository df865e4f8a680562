import LabExchange.Hub.Request

/-!
# Programs

What the users of hubs do. A program makes requests one after the other, each depending on the
answers so far, and ends well or badly. A handler is a program for every event; it may subscribe
further handlers, and it may keep things in a memory that all programs share.
-/
namespace LabExchange

/-- The handle of a handler that has been subscribed. -/
structure Subscription where
  hub : Nat
  id : Nat
  kind : EventKind
  deriving DecidableEq, Repr

/-- What a data panel shows. -/
structure PanelView where
  badge : Nat
  entries : List EntrySummary
  lastEvent : Option EventKind

/-- A request to the world of hubs. A request to a hub that no handle keeps alive has no answer. -/
inductive Request where
  | store (hub : Nat) (request : StoreRequest)
  | exportData (hub : Nat) (data : Store.Export)
  | snapshot (hub : Nat)
  | save (hub : Nat) (path : String)
  | load (hub : Nat) (path : String)
  /-- Reads the text of a snapshot. -/
  | parse (text : String)
  | emit (hub : Nat) (event : HubEvent)
  | handlerCount (hub : Nat) (kind : EventKind)
  | handlerTotal (hub : Nat)
  | unsubscribe (subscription : Subscription)
  /-- Subscribes a handler that puts the events into a new channel. -/
  | openChannel (hub : Nat) (kind : EventKind)
  | send (channel : Nat) (event : HubEvent)
  /-- Takes all waiting events out of a channel. -/
  | receive (channel : Nat)
  /-- Gives up the receiving end. Events sent from then on are lost. -/
  | closeChannel (channel : Nat)
  | attachPanel (hub : Nat)
  | readPanel (panel : Nat)
  | refreshPanel (panel : Nat)
  /-- Refreshes a panel after an event. -/
  | followPanel (panel : Nat) (kind : EventKind)
  | usePanel (panel : Nat) (summary : EntrySummary) (target : String)
  | detachPanel (panel : Nat)
  /-- Takes another handle of a hub. -/
  | acquire (hub : Nat)
  /-- Gives up a handle. The hub and its handlers are gone with the last one. -/
  | release (hub : Nat)
  | isAlive (hub : Nat)
  | inHandler
  | fileText (path : String)
  | putFile (path text : String)
  | makeDirectory (path : String)

namespace Request

def Answer : Request → Type
  | store _ q => Option q.Answer
  | exportData .. => Option (Except HubError EntryId)
  | snapshot _ => Option Snapshot
  | save .. => Option (Except Failure Unit)
  | load .. => Option (Except Failure Nat)
  | parse _ => Except Failure Snapshot
  | emit .. => Option DispatchReport
  | handlerCount .. | handlerTotal _ => Option Nat
  | openChannel .. => Option (Subscription × Nat)
  | receive _ => List HubEvent
  | attachPanel _ => Option Nat
  | readPanel _ => Option PanelView
  | usePanel .. => Except HubError Bool
  | unsubscribe _ | closeChannel _ | acquire _ | release _ | isAlive _ | inHandler => Bool
  | fileText _ => Option String
  | send .. | refreshPanel _ | followPanel .. | detachPanel _ | putFile .. | makeDirectory _ =>
    Unit

end Request

/-- How a program ends. -/
inductive Outcome where
  | succeeded
  /-- An error, with the causes that led to it, the outermost first. The causes are finished texts:
  an error that panics while it is put into words is left out. -/
  | failed (causes : List String)
  /-- A panic, whose message may not be text. -/
  | panicked (message : Option String)
  deriving DecidableEq, Repr

inductive Program (σ : Type) where
  | finish (outcome : Outcome)
  | request (r : Request) (next : r.Answer → Program σ)
  | subscribe (hub : Nat) (kind : EventKind) (handler : HubEvent → Program σ)
    (next : Option Subscription → Program σ)
  /-- Looks at the memory. -/
  | recall (next : σ → Program σ)
  /-- Changes the memory. -/
  | remember (change : σ → σ) (next : Program σ)

/-- What to do with an event. -/
abbrev Handler (σ : Type) := HubEvent → Program σ

namespace Handler

variable {σ : Type}

/-- Puts the events into a channel. -/
def forward (channel : Nat) : Handler σ := fun event =>
  .request (.send channel event) fun _ => .finish .succeeded

/-- Keeps a panel up to date. -/
def follow (panel : Nat) : Handler σ := fun event =>
  .request (.followPanel panel event.kind) fun _ => .finish .succeeded

end Handler
end LabExchange
