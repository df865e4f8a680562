import LabExchange.Listing
import LabExchange.Text.Lowercase

/-!
# Filters

A filter is a set of criteria that an entry must all meet. A criterion that is not set is met by
every entry.
-/
namespace LabExchange

structure EntryFilter where
  category : Option Category
  sourceTab : Option String
  /-- Text that the name must contain, case left aside. -/
  nameContains : Option String
  /-- The earliest time. -/
  since : Option Timestamp
  rows : Option Nat
  cols : Option Nat
  /-- Extra fields of the metadata and what they must hold. -/
  fields : List (String × Value)

namespace EntryFilter

def any : EntryFilter := ⟨none, none, none, none, none, none, []⟩

def ofCategory (category : Category) : EntryFilter := { any with category := some category }

def ofSourceTab (tab : String) : EntryFilter := { any with sourceTab := some tab }

def ofName (text : String) : EntryFilter := { any with nameContains := some text }

/-- Whether a stored field meets a criterion: it is equal to the wanted value, or it is an array
that contains it and the wanted value is no array itself. -/
def fieldMatches (stored wanted : Json) : Bool :=
  match stored, wanted with
  | .array items, .array wanted => Tree.sameItems items wanted
  | .array items, wanted => items.any (·.same wanted)
  | stored, wanted => stored.same wanted

def hasFields (fields : List (String × Value)) (e : Entry) : Bool :=
  fields.all fun (key, wanted) => match e.metadata.extra.get? key with
    | some stored => fieldMatches stored wanted.json
    | none => false

/-- Whether the shape of an entry meets the criteria on rows and columns. An entry without a
shape meets neither. -/
def shapeMatches (rows cols : Option Nat) (e : Entry) : Bool :=
  (rows.isNone && cols.isNone) || match e.payload.dimensions with
    | some (r, c) => rows.all (· == r) && cols.all (· == c)
    | none => false

/-- Whether an entry meets all criteria. -/
def accepts (f : EntryFilter) (e : Entry) : Bool :=
  f.category.all (· == e.category) &&
    f.sourceTab.all (· == e.sourceTab) &&
    f.nameContains.all (Text.occursIgnoringCase · e.metadata.name) &&
    f.since.all (·.key ≤ e.metadata.timestamp.key) &&
    shapeMatches f.rows f.cols e &&
    hasFields f.fields e

end EntryFilter

namespace Store

/-- The summaries of the entries that a filter accepts, newest first. -/
def query (s : Store) (f : EntryFilter) : List EntrySummary :=
  (newestFirst (s.toList.filter f.accepts)).map EntrySummary.ofEntry

/-- The summaries of all entries, newest first. -/
def listAll (s : Store) : List EntrySummary := (newestFirst s.toList).map EntrySummary.ofEntry

/-- The summaries of one category in the order in which its entries came. -/
def list (s : Store) (c : Category) : List EntrySummary := (s.entries c).map EntrySummary.ofEntry

end Store
end LabExchange
