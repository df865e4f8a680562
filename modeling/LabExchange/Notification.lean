import LabExchange.HubError
import LabExchange.Log

/-!
# Notifications

Messages for the user. Errors stay until they are dismissed; the other kinds expire some seconds
after they were made. A manager holds at most one notification of each id. Moments are
nanoseconds of a clock that never goes back.
-/
namespace LabExchange

inductive NotificationKind where
  | error
  | warning
  | info
  | success
  deriving DecidableEq, Repr

namespace NotificationKind

def all : List NotificationKind := [error, warning, info, success]

def name : NotificationKind → String
  | error => "Error"
  | warning => "Warning"
  | info => "Info"
  | success => "Success"

def icon : NotificationKind → String
  | error => "✗"
  | warning => "⚠"
  | info => "ℹ"
  | success => "✓"

/-- The seconds after which a notification of the kind expires. -/
def lifetime : NotificationKind → Option Nat
  | error => none
  | warning => some 30
  | info => some 10
  | success => some 5

def ofTree? {δ : Type} (t : Tree δ) : Option NotificationKind :=
  t.name?.bind fun name => all.find? (·.name == name)

end NotificationKind

structure NotificationError where
  message : String
  code : Option String
  details : Option String
  deriving DecidableEq, Repr

namespace NotificationError

def toJson (e : NotificationError) : Json :=
  .object [("message", .string e.message), ("code", Json.ofOption .string e.code),
    ("details", Json.ofOption .string e.details)]

def ofTree? {δ : Type} (t : Tree δ) : Option NotificationError :=
  match t.fields? ["message", "code", "details"] 0 with
  | some [some message, code, details] => do
    return ⟨← message.asString?, ← (code.getD .null).asOption? Tree.asString?,
      ← (details.getD .null).asOption? Tree.asString?⟩
  | _ => none

end NotificationError

structure Notification where
  id : String
  title : String
  kind : NotificationKind
  errors : List NotificationError
  createdAt : Int
  expiresAt : Option Int
  dismissible : Bool
  /-- The tab that it comes from. -/
  source : String
  deriving DecidableEq, Repr

namespace Notification

/-- A notification of a kind, made at a moment. -/
def new (kind : NotificationKind) (id title : String) (errors : List NotificationError)
    (source : String) (now : Int) : Notification :=
  ⟨id, title, kind, errors, now, kind.lifetime.map fun s => now + s * 1000000000, true, source⟩

/-- A notification that says one thing. -/
def ofMessage (kind : NotificationKind) (id title message source : String) (now : Int) :
    Notification :=
  new kind id title [⟨message, none, none⟩] source now

def newError := new .error

def newWarning := new .warning

def newInfo := ofMessage .info

def newSuccess := ofMessage .success

/-- What to do about a refused request. -/
def advice : HubError → String
  | .unknownCategory _ => "Valid categories: " ++ ", ".intercalate (Category.all.map Category.name)
  | .payloadMismatch _ payload => s!"Export it under '{payload.name}' instead"
  | .nonFiniteValue _ => "Replace NaN and infinite values before exporting"

/-- The error notification about a refused request. -/
def ofHubError (e : HubError) (id source : String) (now : Int) : Notification :=
  newError id "Data hub request failed" [⟨e.message, some e.code, some (advice e)⟩] source now

/-- Whether the moment of expiry has passed. -/
def isExpired (n : Notification) (now : Int) : Bool := n.expiresAt.any (· < now)

/-- The first message. -/
def message (n : Notification) : String := (n.errors.head?.map (·.message)).getD ""

@[simp] theorem message_ofMessage (kind : NotificationKind) (id title text source : String)
    (now : Int) : (ofMessage kind id title text source now).message = text := rfl

def toJson (n : Notification) : Json :=
  .object [("id", .string n.id), ("title", .string n.title),
    ("notification_type", .string n.kind.name),
    ("errors", Json.ofList NotificationError.toJson n.errors),
    ("dismissible", .bool n.dismissible), ("source", .string n.source)]

/-- Decodes a notification. The moments are not written; it counts as made now and does not
expire. -/
def ofTree? {δ : Type} (now : Int) (t : Tree δ) : Option Notification :=
  match t.fields? ["id", "title", "notification_type", "errors", "dismissible", "source"] 0 with
  | some [some id, some title, some kind, some errors, some dismissible, some source] => do
    return ⟨← id.asString?, ← title.asString?, ← NotificationKind.ofTree? kind,
      ← errors.asList? NotificationError.ofTree?, now, none, ← dismissible.asBool?,
      ← source.asString?⟩
  | _ => none

end Notification

/-- The notifications that are held, in the order in which they were added, and the id of the
one whose details are shown. -/
structure NotificationManager where
  notifications : List Notification
  selected : Option String
  deriving DecidableEq, Repr

namespace NotificationManager

def empty : NotificationManager := ⟨[], none⟩

instance : Inhabited NotificationManager := ⟨empty⟩

/-- Adds a notification, in place of one with the same id. -/
def add (m : NotificationManager) (n : Notification) : NotificationManager :=
  { m with notifications := m.notifications.filter (·.id != n.id) ++ [n] }

/-- Passes a result through. A refused request is noted under an id and gives nothing. -/
def report {α : Type} (m : NotificationManager) (result : Except HubError α) (source id : String)
    (now : Int) : Option α × NotificationManager × List LogLine :=
  match result with
  | .ok a => (some a, m, [])
  | .error e =>
    (none, m.add (.ofHubError e id source now),
      [.report .warn .notifications s!"{source} hub request failed: {e.message}"])

/-- Removes a notification. Its details are no longer shown. -/
def dismiss (m : NotificationManager) (id : String) : NotificationManager :=
  ⟨m.notifications.filter (·.id != id), if m.selected = some id then none else m.selected⟩

/-- Removes the notifications that have expired. -/
def clearExpired (m : NotificationManager) (now : Int) : NotificationManager :=
  { m with notifications := m.notifications.filter fun n => !n.isExpired now }

/-- The notifications, the one made last first. -/
def active (m : NotificationManager) : List Notification :=
  m.notifications.mergeSort fun a b => b.createdAt ≤ a.createdAt

def get? (m : NotificationManager) (id : String) : Option Notification :=
  m.notifications.find? (·.id == id)

/-- Shows the details of the notification with an id. -/
def select (m : NotificationManager) (id : String) : NotificationManager :=
  { m with selected := some id }

def countOf (m : NotificationManager) (kind : NotificationKind) : Nat :=
  m.notifications.countP (·.kind == kind)

def hasErrors (m : NotificationManager) : Bool := 0 < m.countOf .error

def hasWarnings (m : NotificationManager) : Bool := 0 < m.countOf .warning

/-- How many of something there are, in words; none if there are none. -/
def countText? (count : Nat) (noun : String) : Option String :=
  if count = 0 then none
  else if count = 1 then some s!"1 {noun}"
  else some s!"{count} {noun}s"

/-- The line about errors and warnings, if there are any. -/
def status? (m : NotificationManager) : Option String :=
  match [countText? (m.countOf .error) "error",
    countText? (m.countOf .warning) "warning"].filterMap id with
  | [] => none
  | parts => some (", ".intercalate parts)

end NotificationManager
end LabExchange
