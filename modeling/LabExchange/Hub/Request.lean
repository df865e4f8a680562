import LabExchange.Event
import LabExchange.Filter
import LabExchange.SnapshotFile

/-!
# Requests

Everything that can be asked of a hub, with the type of the answer to each request. Categories are
given by name. A request about the entries alone changes the store, writes log lines and raises
at most one event; `Store.answer` says which.
-/
namespace LabExchange

/-- A request that concerns only the entries of one hub. -/
inductive StoreRequest where
  | importData (category : String) (id : EntryId)
  | importAll (category : String)
  | getEntry (category : String) (id : EntryId)
  | getLatest (category : String)
  | remove (category : String) (id : EntryId)
  | clear (category : String)
  | clearAll
  | list (category : String)
  | listAll
  | counts
  | query (filter : EntryFilter)
  | requestUse (category : String) (id : EntryId) (target : String)
  | restore (snapshot : Snapshot)

namespace StoreRequest

def Answer : StoreRequest → Type
  | importData .. => Except HubError (Option Payload)
  | importAll _ => Except HubError (List Payload)
  | getEntry .. | getLatest _ => Except HubError (Option Entry)
  | remove .. | requestUse .. => Except HubError Bool
  | clear _ => Except HubError Unit
  | clearAll => Unit
  | list _ => Except HubError (List EntrySummary)
  | listAll | query _ => List EntrySummary
  | counts => CategoryCounts
  | restore _ => Nat

/-- Entries whose name contains a text. -/
def search (text : String) : StoreRequest := query (.ofName text)

/-- Entries that a tab has exported. -/
def listBySource (tab : String) : StoreRequest := query (.ofSourceTab tab)

end StoreRequest

/-- What a request does to a store: the store after it, the lines that are logged, the event that
is raised, and the answer. -/
structure Effect (α : Type) where
  store : Store
  log : List LogLine
  event : Option HubEvent
  answer : α

namespace Store

/-- Nothing but an answer. -/
def reply {α : Type} (s : Store) (a : α) : Effect α := ⟨s, [], none, a⟩

/-- Goes on with the category of a name, or refuses a name that is none. -/
def inCategory {α : Type} (s : Store) (name : String)
    (f : Category → Effect (Except HubError α)) : Effect (Except HubError α) :=
  match Category.parse name with
  | .ok c => f c
  | .error e => s.reply (.error e)

def importData (s : Store) (c : Category) (id : EntryId) :
    Effect (Except HubError (Option Payload)) :=
  let payload := (s.find? c id).map (·.payload)
  ⟨s, [.remark .trace .hub s!"import {c.name}/{id.text}: found={payload.isSome}"], none,
    .ok payload⟩

def removeEntry (s : Store) (c : Category) (id : EntryId) : Effect (Except HubError Bool) :=
  match s.remove? c id with
  | none => ⟨s, [.remark .trace .hub s!"remove {c.name}/{id.text}: not found"], none, .ok false⟩
  | some (e, s) =>
    ⟨s, [.report .debug .hub s!"Removed {c.singular} '{e.metadata.name}' ({id.text})"],
      some (.entryRemoved e c), .ok true⟩

def clearCategory (s : Store) (c : Category) : Effect (Except HubError Unit) :=
  let (n, s) := s.clear c
  ⟨s, [.report .info .hub s!"Cleared {n} entries from {c.name}"],
    some (.entriesCleared (.category c)), .ok ()⟩

def clearEverything (s : Store) : Effect Unit :=
  let (n, s) := s.clearAll
  ⟨s, [.report .info .hub s!"Cleared all {n} hub entries"], some (.entriesCleared .all), ()⟩

def requestUse (s : Store) (c : Category) (id : EntryId) (target : Category) :
    Effect (Except HubError Bool) :=
  match s.find? c id with
  | none => s.reply (.ok false)
  | some e =>
    ⟨s, [.report .debug .hub s!"Requesting use of '{e.metadata.name}' as {target.name}"],
      some (.useData e target), .ok true⟩

/-- Puts back the entries of a list one after the other, as far as `restore?` takes them. Gives
the store, how many were put back, and a line about each of the others. -/
def restoreEntries (s : Store) : List Entry → Store × Nat × List LogLine
  | [] => (s, 0, [])
  | e :: rest =>
    match s.restore? e with
    | some s =>
      let (s, n, log) := s.restoreEntries rest
      (s, n + 1, log)
    | none =>
      let (s, n, log) := s.restoreEntries rest
      (s, n, .report .warn .hub
        s!"Skipped snapshot entry {e.id.text}: duplicate id or mismatched payload" :: log)

/-- Puts back the entries of a snapshot. No event is raised. -/
def restore (s : Store) (snapshot : Snapshot) : Effect Nat :=
  let (s, n, log) := s.restoreEntries snapshot.entries
  ⟨s, log ++ [.report .info .hub s!"Restored {n} of {snapshot.entries.length} snapshot entries"],
    none, n⟩

/-- Carries out a request. The category is looked at before the target, and both before the
entry. -/
def answer (s : Store) : (q : StoreRequest) → Effect q.Answer
  | .importData name id => s.inCategory name fun c => s.importData c id
  | .importAll name => s.inCategory name fun c => s.reply (.ok ((s.entries c).map (·.payload)))
  | .getEntry name id => s.inCategory name fun c => s.reply (.ok (s.find? c id))
  | .getLatest name => s.inCategory name fun c => s.reply (.ok (s.latest? c))
  | .remove name id => s.inCategory name fun c => s.removeEntry c id
  | .clear name => s.inCategory name s.clearCategory
  | .clearAll => s.clearEverything
  | .list name => s.inCategory name fun c => s.reply (.ok (s.list c))
  | .listAll => s.reply s.listAll
  | .counts => s.reply (.ofStore s)
  | .query f => s.reply (s.query f)
  | .requestUse name id target =>
    s.inCategory name fun c => s.inCategory target fun target => s.requestUse c id target
  | .restore snapshot => s.restore snapshot

/-- An export that may go through. -/
structure Export where
  tab : String
  category : String
  payload : Payload
  metadata : Option ExportMetadata

/-- What an export comes to under a drawn id. -/
inductive ExportResult where
  /-- The request is refused before an id is drawn. -/
  | refused (error : HubError)
  /-- The id has been issued before; another one must be drawn. -/
  | redraw
  /-- The sequence numbers are used up. -/
  | exhausted (store : Store)
  | stored (effect : Effect EntryId)

/-- What is said when the sequence numbers are used up. -/
def overflowMessage : String := "attempt to add with overflow"

/-- Carries out an export under a drawn id. -/
def exportData (s : Store) (x : Export) (id : EntryId) (now : Timestamp) : ExportResult :=
  match Category.parse x.category with
  | .error e => .refused e
  | .ok c => match s.insert id now x.tab c x.payload x.metadata with
    | .refused e => .refused e
    | .taken => .redraw
    | .exhausted s => .exhausted s
    | .stored e s =>
      .stored ⟨s,
        [.report .debug .hub s!"{x.tab} exported {c.singular} '{e.metadata.name}' ({e.id.text})"],
        some (.entryCreated e c), e.id⟩

/-- Carries out an export, drawing ids from a source until one has not been issued before, at most
`patience` of them. Gives also how many have been drawn in all. -/
def exportDrawing (s : Store) (x : Export) (ids : Nat → EntryId) (now : Timestamp) :
    (patience drawn : Nat) → Option (ExportResult × Nat)
  | 0, _ => none
  | patience + 1, drawn =>
    match s.exportData x (ids drawn) now with
    | .redraw => s.exportDrawing x ids now patience (drawn + 1)
    | .refused e => some (.refused e, drawn)
    | result => some (result, drawn + 1)

end Store

/-- The ids and the moments that come from outside, in the order in which they are drawn. -/
structure Supply where
  id : Nat → EntryId
  time : Nat → Timestamp

end LabExchange
