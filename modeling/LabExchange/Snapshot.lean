import LabExchange.Listing

/-!
# Snapshots

A snapshot is a copy of all entries that can be written to a file. A file is read in two steps:
first what encloses the entries, which must be right, then each entry by itself; one that does
not read is skipped.
-/
namespace LabExchange

structure Snapshot where
  version : Nat
  savedAt : Timestamp
  entries : List Entry

/-- Why a text is no snapshot. -/
inductive SnapshotError where
  | unreadable (error : ReadError)
  | newerVersion (version : Nat)
  deriving DecidableEq, Repr

namespace Snapshot

/-- The version that is written, and the newest one that is read. -/
def currentVersion : Nat := 1

def ofEntries (entries : List Entry) (now : Timestamp) : Snapshot :=
  ⟨currentVersion, now, entries⟩

def toJson (s : Snapshot) : Json :=
  .object [("version", Json.ofNat s.version), ("saved_at", s.savedAt.toJson),
    ("entries", Json.ofList Entry.toJson s.entries)]

/-- Decodes a snapshot all of whose entries must read. -/
def ofTree? {δ : Type} (t : Tree δ) : Option Snapshot :=
  match t.fields? ["version", "saved_at", "entries"] 0 with
  | some [some version, some savedAt, some entries] => do
    return ⟨← version.asNat? UInt32.size, ← Timestamp.ofTree? savedAt,
      ← entries.asList? Entry.ofTree?⟩
  | _ => none

/-- The text of a snapshot file. -/
def text (s : Snapshot) : String := Json.pretty s.toJson

/-- A snapshot file whose entries have not been looked at. -/
structure Envelope where
  version : Nat
  savedAt : Timestamp
  entries : List Json

/-- Decodes what encloses the entries. Missing entries are none. -/
def Envelope.ofTree? {δ : Type} (t : Tree δ) : Option Envelope :=
  match t.fields? ["version", "saved_at", "entries"] 1 with
  | some [some version, some savedAt, entries] => do
    let entries ← match entries with
      | some entries => entries.asList? Tree.value?
      | none => some []
    return ⟨← version.asNat? UInt32.size, ← Timestamp.ofTree? savedAt, entries⟩
  | _ => none

/-- The positions of the entries that do not read. -/
def skipped (entries : List Json) : List Nat :=
  entries.zipIdx.filterMap fun (json, i) => if (Entry.ofTree? json).isNone then some i else none

/-- Reads the text of a snapshot file, with the positions of the entries that were skipped. -/
def ofText (text : String) : Except SnapshotError (Snapshot × List Nat) :=
  match Json.read Envelope.ofTree? text with
  | .error e => .error (.unreadable e)
  | .ok envelope =>
    if currentVersion < envelope.version then .error (.newerVersion envelope.version)
    else .ok (⟨envelope.version, envelope.savedAt, envelope.entries.filterMap Entry.ofTree?⟩,
      skipped envelope.entries)

end Snapshot
end LabExchange
