import LabExchange.Payload
import LabExchange.Json.Writer
import LabExchange.Time.Reader
import LabExchange.Time.Writer

/-!
# Entries

An entry is a payload with its id, its category, the tab that exported it and its metadata. The
producer may supply a name, a description and further fields; what it leaves out is made up from
the id and the tab, and the time is always that of the export.
-/
namespace LabExchange

structure EntryId where
  text : String
  deriving DecidableEq, Repr

namespace EntryId

/-- The first six characters, which stand for the id in generated names. -/
def short (id : EntryId) : String := String.ofList (id.text.toList.take 6)

def toJson (id : EntryId) : Json := .string id.text

def ofTree? {δ : Type} (t : Tree δ) : Option EntryId := t.asString?.map EntryId.mk

end EntryId

namespace Timestamp

def toJson (t : Timestamp) : Json := .string (String.ofList t.text)

def ofTree? {δ : Type} (t : Tree δ) : Option Timestamp :=
  t.asString?.bind fun text => read? text.toList

end Timestamp

/-- The names of the metadata that the hub itself keeps. -/
def reservedNames : List String := ["name", "description", "timestamp"]

/-- The metadata of a stored entry. -/
structure Metadata where
  name : String
  description : String
  timestamp : Timestamp
  extra : Fields

namespace Metadata

/-- The three fixed fields first, then the others by name. -/
def toJson (m : Metadata) : Json :=
  .object ([("name", .string m.name), ("description", .string m.description),
    ("timestamp", m.timestamp.toJson)] ++ m.extra.members)

/-- The members whose names are not reserved, each with its value. -/
def extra? {δ : Type} : List (String × Tree δ) → Option (List (String × Value))
  | [] => some []
  | (name, t) :: rest =>
    if reservedNames.contains name then extra? rest
    else (Value.ofTree? t).bind fun value => (extra? rest).map ((name, value) :: ·)

/-- Decodes an object. A repeated extra field counts as its last one. -/
def ofTree? {δ : Type} (t : Tree δ) : Option Metadata :=
  match t, t.fields? reservedNames 0 with
  | .object members, some [some name, some description, some timestamp] => do
    return ⟨← name.asString?, ← description.asString?, ← Timestamp.ofTree? timestamp,
      Fields.ofMembers (← extra? members)⟩
  | _, _ => none

end Metadata

/-- What a producer supplies on export. -/
structure ExportMetadata where
  name : Option String
  description : Option String
  extra : Fields
  deriving Inhabited

namespace ExportMetadata

def new : ExportMetadata := ⟨none, none, .empty⟩

def named (name : String) : ExportMetadata := { new with name := some name }

def withName (m : ExportMetadata) (name : String) : ExportMetadata := { m with name := some name }

def withDescription (m : ExportMetadata) (description : String) : ExportMetadata :=
  { m with description := some description }

/-- A value as text: a string as it is, anything else as its compact JSON. -/
def textOf (value : Value) : String :=
  match value.json with
  | .string text => text
  | json => Json.compact json

/-- Sets a field by name. The name and the description are set as text, and a timestamp is
dropped. -/
def withField (m : ExportMetadata) (key : String) (value : Value) : ExportMetadata :=
  if key = "name" then m.withName (textOf value)
  else if key = "description" then m.withDescription (textOf value)
  else if key = "timestamp" then m
  else { m with extra := m.extra.insert key value }

/-- Puts a field straight among the extra ones, whatever its name. -/
def putExtra (m : ExportMetadata) (key : String) (value : Value) : ExportMetadata :=
  { m with extra := m.extra.insert key value }

/-- The metadata of the entry, with what the producer left out made up. -/
def resolve (m : ExportMetadata) (id : EntryId) (category : Category) (tab : String)
    (now : Timestamp) : Metadata where
  name := m.name.getD (category.name ++ "_" ++ id.short)
  description := m.description.getD ("Exported from " ++ tab)
  timestamp := now
  extra := m.extra.dropNames reservedNames

end ExportMetadata

structure Entry where
  id : EntryId
  category : Category
  sourceTab : String
  payload : Payload
  metadata : Metadata
  /-- The number of the export, which orders entries that share a timestamp. -/
  sequence : UInt64

namespace Entry

def toJson (e : Entry) : Json :=
  .object [("id", e.id.toJson), ("category", e.category.toJson),
    ("source_tab", .string e.sourceTab), ("payload", e.payload.toJson),
    ("metadata", e.metadata.toJson), ("sequence", Json.ofNat e.sequence.toNat)]

/-- Decodes an entry. A missing sequence number is zero. -/
def ofTree? {δ : Type} (t : Tree δ) : Option Entry :=
  match t.fields? ["id", "category", "source_tab", "payload", "metadata", "sequence"] 1 with
  | some [some id, some category, some tab, some payload, some metadata, sequence] => do
    let sequence ← match sequence with
      | some sequence => sequence.asWord?
      | none => some 0
    return ⟨← EntryId.ofTree? id, ← Category.ofTree? category, ← tab.asString?,
      ← Payload.ofTree? payload, ← Metadata.ofTree? metadata, sequence⟩
  | _ => none

end Entry
end LabExchange
