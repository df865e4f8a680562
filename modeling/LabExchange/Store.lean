import LabExchange.Entry
import LabExchange.HubError

/-!
# The store

The entries of a hub, one list for every category in the order in which they came. An id is
issued once for all time: by an export, or by an entry that is put back from elsewhere. Sequence
numbers count exports and stay above those of all entries put back.
-/
namespace LabExchange

structure Store where
  lists : PerCategory (List Entry)
  /-- Every id that an entry has had, removed ones included. -/
  issued : List EntryId
  nextSequence : UInt64

/-- What became of an attempt to insert an entry. -/
inductive Insertion where
  | refused (error : HubError)
  /-- The id has been issued before; another one must be drawn. -/
  | taken
  /-- There is no sequence number left to count on from. The id counts as issued all the same. -/
  | exhausted (store : Store)
  | stored (entry : Entry) (store : Store)

namespace Store

def empty : Store := ⟨.ofFn fun _ => [], [], 0⟩

instance : Inhabited Store := ⟨empty⟩

def entries (s : Store) (c : Category) : List Entry := s.lists.get c

/-- All entries, category by category. -/
def toList (s : Store) : List Entry := s.lists.toList.flatten

/-- The entry of a category with an id. -/
def find? (s : Store) (c : Category) (id : EntryId) : Option Entry :=
  (s.entries c).find? (·.id == id)

/-- The entry of a category that came last. -/
def latest? (s : Store) (c : Category) : Option Entry := (s.entries c).getLast?

def count (s : Store) (c : Category) : Nat := (s.entries c).length

def total (s : Store) : Nat := s.toList.length

/-- Puts an entry at the end of the list of its category. -/
def append (s : Store) (e : Entry) : Store :=
  { s with lists := s.lists.set e.category (s.entries e.category ++ [e]) }

/-- Stores a new entry under an id that has been drawn for it. A payload of another category is
refused, and so is one that JSON cannot hold.

Arithmetic is checked here, as the development profile has it: the counter does not go past its
last number, and an export that would take that one panics. Under the release profile, which does
not check, the counter would begin again at zero. -/
def insert (s : Store) (id : EntryId) (now : Timestamp) (tab : String) (category : Category)
    (payload : Payload) (metadata : Option ExportMetadata) : Insertion :=
  if payload.category ≠ category then .refused (.payloadMismatch category payload.category)
  else if !payload.isFinite then .refused (.nonFiniteValue category)
  else if id ∈ s.issued then .taken
  else
    let s := { s with issued := id :: s.issued }
    if s.nextSequence.toNat + 1 = UInt64.size then .exhausted s
    else
      let metadata := (metadata.getD .new).resolve id category tab now
      let entry : Entry := ⟨id, category, tab, payload, metadata, s.nextSequence⟩
      .stored entry { s.append entry with nextSequence := s.nextSequence + 1 }

/-- The next sequence number after one that has been seen, as far as there is one. -/
def after (sequence : UInt64) : UInt64 :=
  if sequence.toNat + 1 = UInt64.size then sequence else sequence + 1

/-- Puts back an entry from elsewhere, unless its payload is not of its category or its id has
been issued before. -/
def restore? (s : Store) (e : Entry) : Option Store :=
  if e.payload.category ≠ e.category ∨ e.id ∈ s.issued then none
  else
    some { s.append e with
      issued := e.id :: s.issued
      nextSequence := max s.nextSequence (after e.sequence) }

/-- Removes the entry of a category with an id, if there is one. -/
def remove? (s : Store) (c : Category) (id : EntryId) : Option (Entry × Store) :=
  (s.find? c id).map fun e =>
    (e, { s with lists := s.lists.set c ((s.entries c).eraseP (·.id == id)) })

/-- Empties one category, and says how many entries it held. -/
def clear (s : Store) (c : Category) : Nat × Store :=
  (s.count c, { s with lists := s.lists.set c [] })

/-- Empties every category, and says how many entries there were. -/
def clearAll (s : Store) : Nat × Store := (s.total, { s with lists := .ofFn fun _ => [] })

end Store
end LabExchange
