import LabExchange.Store

/-!
# Listings

What is shown of the entries: a summary of each, the newest first, and how many there are.
-/
namespace LabExchange

/-- The row of a listing for one entry. -/
structure EntrySummary where
  id : EntryId
  category : Category
  name : String
  sourceTab : String
  timestamp : Timestamp
  description : String
  /-- Rows and columns, if the payload has them. -/
  dimensions : Option (Nat × Nat)
  deriving DecidableEq

namespace EntrySummary

def ofEntry (e : Entry) : EntrySummary :=
  ⟨e.id, e.category, e.metadata.name, e.sourceTab, e.metadata.timestamp, e.metadata.description,
    e.payload.dimensions⟩

def dimensionsJson (d : Nat × Nat) : Json := .array [Json.ofNat d.1, Json.ofNat d.2]

def dimensions? {δ : Type} : Tree δ → Option (Nat × Nat)
  | .array [rows, cols] => do return (← rows.asNat? UInt64.size, ← cols.asNat? UInt64.size)
  | _ => none

def toJson (s : EntrySummary) : Json :=
  .object [("id", s.id.toJson), ("category", s.category.toJson), ("name", .string s.name),
    ("source_tab", .string s.sourceTab), ("timestamp", s.timestamp.toJson),
    ("description", .string s.description),
    ("dimensions", Json.ofOption dimensionsJson s.dimensions)]

def ofTree? {δ : Type} (t : Tree δ) : Option EntrySummary :=
  match t.fields?
    ["id", "category", "name", "source_tab", "timestamp", "description", "dimensions"] 0 with
  | some [some id, some category, some name, some tab, some timestamp, some description,
      dimensions] => do
    return ⟨← EntryId.ofTree? id, ← Category.ofTree? category, ← name.asString?,
      ← tab.asString?, ← Timestamp.ofTree? timestamp, ← description.asString?,
      ← (dimensions.getD .null).asOption? dimensions?⟩
  | _ => none

end EntrySummary

/-- How many entries there are in each category, and in all. A category may be left out. -/
structure CategoryCounts where
  byCategory : PerCategory (Option Nat)
  total : Nat
  deriving DecidableEq

namespace CategoryCounts

def ofStore (s : Store) : CategoryCounts :=
  ⟨.ofFn fun c => some (s.count c), s.total⟩

def get (counts : CategoryCounts) (c : Category) : Nat := (counts.byCategory.get c).getD 0

/-- The categories that are not left out, in order, then the total. -/
def toJson (counts : CategoryCounts) : Json :=
  .object (Category.all.filterMap (fun c =>
    (counts.byCategory.get c).map fun n => (c.name, Json.ofNat n)) ++
    [("total", Json.ofNat counts.total)])

/-- The counts under the names of categories, the last one of each; every name must be one. -/
def byCategory? {δ : Type} (done : PerCategory (Option Nat)) :
    List (String × Tree δ) → Option (PerCategory (Option Nat))
  | [] => some done
  | (name, t) :: rest =>
    if name = "total" then byCategory? done rest
    else do
      let c ← Category.ofName? name
      let n ← t.asNat? UInt64.size
      byCategory? (done.set c (some n)) rest

def ofTree? {δ : Type} (t : Tree δ) : Option CategoryCounts :=
  match t, t.fields? ["total"] 0 with
  | .object members, some [some total] => do
    return ⟨← byCategory? (.ofFn fun _ => none) members, ← total.asNat? UInt64.size⟩
  | _, _ => none

end CategoryCounts

/-- Whether one entry may stand before another in a listing: it is later, or of the same time
and its sequence number is not lower. -/
def Entry.isNewer (a b : Entry) : Bool :=
  let s := a.metadata.timestamp.key
  let t := b.metadata.timestamp.key
  t < s || (t == s && b.sequence ≤ a.sequence)

/-- The entries, newest first. Those that share time and sequence number stay in order. -/
def newestFirst (entries : List Entry) : List Entry := entries.mergeSort Entry.isNewer

end LabExchange
