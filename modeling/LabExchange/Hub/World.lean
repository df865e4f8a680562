import LabExchange.Hub.Program

/-!
# The world of hubs

Several hubs with the handlers registered on them, the channels and panels that follow them, and
the files. `World.reply` carries out one request up to the event that it raises.
-/
namespace LabExchange

structure Registration (σ : Type) where
  id : Nat
  kind : EventKind
  handler : Handler σ

/-- A hub with the bus of its events. It lives as long as there are handles to it or events of it
are being dispatched. Handlers are numbered from zero and a number is not used again. -/
structure Hub (σ : Type) where
  handles : Nat
  dispatches : Nat
  store : Store
  /-- The number of the next handler. The counter has 64 bits; it is presumed that there are fewer
  subscriptions than that, so that it does not run over. -/
  nextHandler : Nat
  registrations : List (Registration σ)

namespace Hub

variable {σ : Type}

def new : Hub σ := ⟨1, 0, .empty, 0, []⟩

def isAlive (h : Hub σ) : Bool := 0 < h.handles || 0 < h.dispatches

/-- What is left of a hub: nothing if it is not alive any more. -/
def settle (h : Hub σ) : Hub σ := if h.isAlive then h else { new with handles := 0 }

/-- The handlers of a kind of event, in the order in which they were subscribed. -/
def handlersOf (h : Hub σ) (kind : EventKind) : List (Registration σ) :=
  h.registrations.filter (·.kind == kind)

/-- Registers a handler. -/
def register (h : Hub σ) (kind : EventKind) (handler : Handler σ) : Hub σ :=
  { h with
    nextHandler := h.nextHandler + 1
    registrations := h.registrations ++ [⟨h.nextHandler, kind, handler⟩] }

/-- Removes the handler with a number. -/
def unregister (h : Hub σ) (id : Nat) : Hub σ :=
  { h with registrations := h.registrations.filter (·.id != id) }

/-- What a panel shows of the hub. -/
def view (h : Hub σ) (lastEvent : Option EventKind) : PanelView :=
  ⟨(CategoryCounts.ofStore h.store).total, h.store.listAll, lastEvent⟩

end Hub

/-- A channel with the events that wait in it. -/
structure Channel where
  waiting : List HubEvent
  isOpen : Bool

structure Panel where
  hub : Nat
  view : PanelView
  subscriptions : List Subscription

structure World (σ : Type) where
  hubs : List (Hub σ)
  channels : List Channel
  panels : List Panel
  files : Files
  log : List LogLine
  /-- How many handlers are running inside each other. -/
  depth : Nat
  /-- How many ids have been drawn. -/
  drawnIds : Nat
  /-- How often the clock has been read. -/
  drawnTimes : Nat
  memory : σ

/-- What a request comes to. -/
inductive Reply (σ α : Type) where
  | done (answer : α) (world : World σ)
  /-- An event is dispatched first; the answer may depend on how. -/
  | raises (hub : Nat) (event : HubEvent) (answer : DispatchReport → α) (world : World σ)
  | panics (message : String) (world : World σ)
  /-- No unissued id was drawn in time. -/
  | waiting

namespace World

variable {σ : Type}

def new (hubs : Nat) (files : Files) (memory : σ) : World σ :=
  ⟨List.replicate hubs .new, [], [], files, [], 0, 0, 0, memory⟩

/-- A hub that is alive. -/
def hub? (w : World σ) (id : Nat) : Option (Hub σ) := w.hubs[id]?.filter Hub.isAlive

def setHub (w : World σ) (id : Nat) (h : Hub σ) : World σ := { w with hubs := w.hubs.set id h }

def addLog (w : World σ) (lines : List LogLine) : World σ := { w with log := w.log ++ lines }

/-- Registers a handler on a hub. -/
def subscribe (w : World σ) (id : Nat) (kind : EventKind) (handler : Handler σ) :
    Option Subscription × World σ :=
  match w.hub? id with
  | none => (none, w)
  | some h =>
    (some ⟨id, h.nextHandler, kind⟩,
      (w.setHub id (h.register kind handler)).addLog
        [.report .debug .events s!"Subscribed handler {h.nextHandler} to {kind.name}"])

/-- Removes a handler. Says no if the hub is gone or the handler is not registered any more. -/
def unsubscribe (w : World σ) (s : Subscription) : Bool × World σ :=
  match w.hub? s.hub with
  | none => (false, w)
  | some h =>
    if h.registrations.any (·.id == s.id) then
      (true, (w.setHub s.hub (h.unregister s.id)).addLog
        [.report .debug .events s!"Unsubscribed handler {s.id} from {s.kind.name}"])
    else (false, w)

/-- Removes several handlers. -/
def unsubscribeAll (w : World σ) (subscriptions : List Subscription) : World σ :=
  subscriptions.foldl (fun w s => (w.unsubscribe s).2) w

/-- The kinds of events after which a panel is out of date. -/
def watchedKinds : List EventKind := [.entryCreated, .entryRemoved, .entriesCleared]

/-- Adds a panel that shows a hub and follows its events. -/
def attachPanel (w : World σ) (id : Nat) (h : Hub σ) : Nat × World σ :=
  let panel := w.panels.length
  let (subscriptions, w) := watchedKinds.foldl (fun (subscriptions, w) kind =>
    let (s, w) := w.subscribe id kind (.follow panel)
    (subscriptions ++ s.toList, w)) (([] : List Subscription), w)
  let w : World σ := { w with panels := w.panels ++ [⟨id, h.view none, subscriptions⟩] }
  (panel, w.addLog [.report .debug .panel "Data panel attached"])

/-- Loads a panel anew, if its hub is still there. -/
def reloadPanel (w : World σ) (id : Nat) (kind? : Option EventKind) : World σ :=
  match w.panels[id]? with
  | none => w
  | some panel => match w.hub? panel.hub with
    | none => w
    | some h =>
      let view := h.view (kind?.or panel.view.lastEvent)
      { w with panels := w.panels.set id { panel with view := view } }

/-- Carries out a request about the entries of a hub. -/
def storeReply (w : World σ) (id : Nat) (h : Hub σ) (q : StoreRequest) :
    Reply σ (Option q.Answer) :=
  let effect := h.store.answer q
  let w := (w.setHub id { h with store := effect.store }).addLog effect.log
  match effect.event with
  | none => .done (some effect.answer) w
  | some event => .raises id event (fun _ => some effect.answer) w

/-- Carries out an export, drawing at most `patience` ids. -/
def exportReply (w : World σ) (supply : Supply) (patience : Nat) (id : Nat) (h : Hub σ)
    (x : Store.Export) : Reply σ (Option (Except HubError EntryId)) :=
  match h.store.exportDrawing x supply.id (supply.time w.drawnTimes) patience w.drawnIds with
  | some (.refused e, _) => .done (some (.error e)) w
  | some (.exhausted store, drawn) =>
    .panics Store.overflowMessage
      { w.setHub id { h with store := store } with
        drawnIds := drawn, drawnTimes := w.drawnTimes + 1 }
  | some (.stored effect, drawn) =>
    let w := { (w.setHub id { h with store := effect.store }).addLog effect.log with
      drawnIds := drawn, drawnTimes := w.drawnTimes + 1 }
    match effect.event with
    | none => .done (some (.ok effect.answer)) w
    | some event => .raises id event (fun _ => some (.ok effect.answer)) w
  | _ => .waiting

/-- A copy of all entries of a hub. -/
def takeSnapshot (supply : Supply) (w : World σ) (h : Hub σ) : Snapshot × World σ :=
  (.ofEntries h.store.toList (supply.time w.drawnTimes),
    { w with drawnTimes := w.drawnTimes + 1 })

/-- Writes a snapshot of a hub to a file. -/
def save (supply : Supply) (w : World σ) (h : Hub σ) (path : String) :
    Except Failure Unit × World σ :=
  let (snapshot, w) := w.takeSnapshot supply h
  match snapshot.writeFile w.files path with
  | (.error failure, files) => (.error failure, { w with files := files })
  | (.ok log, files) =>
    let w := { w with files := files }
    (.ok (), w.addLog (log ++ [snapshot.savedLine path]))

/-- Restores a hub from a file. -/
def load (w : World σ) (id : Nat) (h : Hub σ) (path : String) : Except Failure Nat × World σ :=
  match Snapshot.readFile w.files path with
  | .error failure => (.error failure, w)
  | .ok (snapshot, log) =>
    let effect := h.store.restore snapshot
    (.ok effect.answer, (w.setHub id { h with store := effect.store }).addLog (log ++ effect.log))

/-- Carries out a request on a hub, which has no answer if the hub is gone. -/
def withHub {α : Type} (w : World σ) (id : Nat) (f : Hub σ → Reply σ (Option α)) :
    Reply σ (Option α) :=
  match w.hub? id with
  | none => .done none w
  | some h => f h

/-- Carries out a request. -/
def reply (supply : Supply) (patience : Nat) (w : World σ) : (r : Request) → Reply σ r.Answer
  | .store id q => w.withHub id fun h => w.storeReply id h q
  | .exportData id x => w.withHub id fun h => w.exportReply supply patience id h x
  | .snapshot id => w.withHub id fun h =>
    let (snapshot, w) := w.takeSnapshot supply h
    .done (some snapshot) w
  | .save id path => w.withHub id fun h =>
    let (result, w) := w.save supply h path
    .done (some result) w
  | .load id path => w.withHub id fun h =>
    let (result, w) := w.load id h path
    .done (some result) w
  | .parse text => match Snapshot.parse text with
    | .error failure => .done (.error failure) w
    | .ok (snapshot, log) => .done (.ok snapshot) (w.addLog log)
  | .emit id event => w.withHub id fun _ => .raises id event some w
  | .handlerCount id kind => w.withHub id fun h => .done (some (h.handlersOf kind).length) w
  | .handlerTotal id => w.withHub id fun h => .done (some h.registrations.length) w
  | .unsubscribe s =>
    let (removed, w) := w.unsubscribe s
    .done removed w
  | .openChannel id kind => w.withHub id fun _ =>
    let channel := w.channels.length
    let w : World σ := { w with channels := w.channels ++ [⟨[], true⟩] }
    let (s, w) := w.subscribe id kind (.forward channel)
    .done (s.map (·, channel)) w
  | .send channel event =>
    .done () { w with channels := w.channels.modify channel fun c =>
      if c.isOpen then { c with waiting := c.waiting ++ [event] } else c }
  | .receive channel =>
    .done ((w.channels[channel]?.map Channel.waiting).getD [])
      { w with channels := w.channels.modify channel fun c => { c with waiting := [] } }
  | .closeChannel channel =>
    .done (w.channels[channel]?.any Channel.isOpen)
      { w with channels := w.channels.modify channel fun _ => ⟨[], false⟩ }
  | .attachPanel id => w.withHub id fun h =>
    let (panel, w) := w.attachPanel id h
    .done (some panel) w
  | .readPanel id => .done (w.panels[id]?.map Panel.view) w
  | .refreshPanel id => .done () (w.reloadPanel id none)
  | .followPanel id kind => .done () (w.reloadPanel id (some kind))
  | .usePanel id summary target =>
    match w.panels[id]?.bind fun panel => (w.hub? panel.hub).map fun h => (panel.hub, h) with
    | none => .done (.ok false) w
    | some (hub, h) =>
      match w.storeReply hub h (.requestUse summary.category.name summary.id target) with
      | .done answer w => .done (answer.getD (.ok false)) w
      | .raises hub event answer w =>
        .raises hub event (fun report => (answer report).getD (.ok false)) w
      | .panics message w => .panics message w
      | .waiting => .waiting
  | .detachPanel id =>
    match w.panels[id]? with
    | none => .done () w
    | some panel =>
      .done () ((w.unsubscribeAll panel.subscriptions).addLog
        [.report .debug .panel "Data panel detached"])
  | .acquire id => match w.hub? id with
    | none => .done false w
    | some h => .done true (w.setHub id { h with handles := h.handles + 1 })
  | .release id => match w.hub? id with
    | none => .done false w
    | some h =>
      .done (decide (0 < h.handles)) (w.setHub id { h with handles := h.handles - 1 }.settle)
  | .isAlive id => .done (w.hub? id).isSome w
  | .inHandler => .done (decide (0 < w.depth)) w
  | .fileText path => .done (w.files.read path).toOption w
  | .putFile path text =>
    .done () { w with files := ((w.files.write path text).toOption).getD w.files }
  | .makeDirectory path =>
    .done () { w with files := (w.files.makeDirectory path).2 }

end World
end LabExchange
