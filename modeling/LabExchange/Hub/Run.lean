import LabExchange.Hub.World

/-!
# Running programs

An event goes to the handlers that are registered when it is raised, one after the other. Each of
them runs by itself: how it ends is counted and logged, and the next one runs all the same. Fuel
bounds how deep programs may run, so that a run without end has no result; `none` says so.
-/
namespace LabExchange

namespace DispatchReport

def empty : DispatchReport := ⟨0, 0⟩

/-- Counts how a handler has ended. -/
def count (r : DispatchReport) : Outcome → DispatchReport
  | .succeeded => { r with delivered := r.delivered + 1 }
  | _ => { r with failed := r.failed + 1 }

end DispatchReport

/-- The line about a handler that has not ended well. -/
def Outcome.warning (id : Nat) (kind : EventKind) : Outcome → List LogLine
  | succeeded => []
  | failed causes =>
    let account := ": ".intercalate causes
    [.report .warn .events s!"Handler {id} failed on {kind.name}: {account}"]
  | panicked message =>
    let account := message.getD "unknown panic"
    [.report .warn .events s!"Handler {id} panicked on {kind.name}: {account}"]

namespace World

variable {σ : Type}

/-- A way of running programs, which may have no result. -/
abbrev Runner (σ : Type) := Program σ → World σ → Option (Outcome × World σ)

/-- Notes that an event of a hub is being dispatched. -/
def beginDispatch (w : World σ) (id : Nat) : World σ :=
  { w with hubs := w.hubs.modify id fun h => { h with dispatches := h.dispatches + 1 } }

/-- Notes that an event of a hub has been dispatched. -/
def endDispatch (w : World σ) (id : Nat) : World σ :=
  { w with hubs := w.hubs.modify id fun h => { h with dispatches := h.dispatches - 1 }.settle }

/-- Hands an event to handlers, one after the other. -/
def deliver (run : Runner σ) (event : HubEvent) :
    List (Registration σ) → DispatchReport → World σ → Option (DispatchReport × World σ)
  | [], report, w => some (report, w)
  | r :: rest, report, w =>
    (run (r.handler event) { w with depth := w.depth + 1 }).bind fun (outcome, w) =>
      deliver run event rest (report.count outcome)
        ({ w with depth := w.depth - 1 }.addLog (outcome.warning r.id event.kind))

/-- Dispatches an event to the handlers that a hub has for it now. Until all of them have run,
the hub stays alive. -/
def dispatch (run : Runner σ) (hub : Nat) (event : HubEvent) (w : World σ) :
    Option (DispatchReport × World σ) :=
  let handlers := ((w.hub? hub).map (·.handlersOf event.kind)).getD []
  let started := w.beginDispatch hub |>.addLog
    [event.dispatchLine handlers.length]
  (deliver run event handlers .empty started).map fun (report, w) => (report, w.endDispatch hub)

/-- Carries out a request with the event that it raises. A panic gives its message instead of an
answer. -/
def perform (run : Runner σ) (supply : Supply) (patience : Nat) (r : Request) (w : World σ) :
    Option (Except String r.Answer × World σ) :=
  match w.reply supply patience r with
  | .done answer w => some (.ok answer, w)
  | .raises hub event answer w =>
    (dispatch run hub event w).map fun (report, w) => (.ok (answer report), w)
  | .panics message w => some (.error message, w)
  | .waiting => none

/-- Runs a program. -/
def run (supply : Supply) : (fuel : Nat) → Runner σ
  | 0, _, _ => none
  | fuel + 1, program, w =>
    match program with
    | .finish outcome => some (outcome, w)
    | .request r next =>
      (perform (run supply fuel) supply fuel r w).bind fun
        | (.ok answer, w) => run supply fuel (next answer) w
        | (.error message, w) => some (.panicked (some message), w)
    | .subscribe hub kind handler next =>
      let (subscription, w) := w.subscribe hub kind handler
      run supply fuel (next subscription) w
    | .recall next => run supply fuel (next w.memory) w
    | .remember change next => run supply fuel next { w with memory := change w.memory }

end World
end LabExchange
