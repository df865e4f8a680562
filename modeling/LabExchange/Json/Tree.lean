import LabExchange.Json.Number

/-!
# JSON trees

A tree keeps the members of an object in the order in which they stand, repeated keys included.
Over `Empty` it is a JSON document; over `Defect` it is what a text says before anyone has asked
whether every leaf has a value. `Tree.value?` gives the document that a tree stands for, with
the members of every object sorted by key.
-/
namespace LabExchange

inductive Tree (δ : Type) where
  | null
  | bool (value : Bool)
  | number (value : Number)
  | string (value : String)
  | array (items : List (Tree δ))
  | object (members : List (String × Tree δ))
  | defect (reason : δ)

/-- A JSON document. -/
abbrev Json := Tree Empty

/-- Why a piece of well-formed text has no value. -/
inductive Defect where
  /-- The number is beyond the largest double. -/
  | tooLarge
  /-- The string, or a key of the object, holds half of a surrogate pair. -/
  | loneSurrogate
  /-- The array or object lies inside 127 others. -/
  | tooDeep
  deriving DecidableEq, Repr

/-- A text that follows the grammar of JSON. -/
abbrev Draft := Tree Defect

namespace Tree

variable {δ : Type}

instance : Inhabited (Tree δ) := ⟨null⟩

/-- Puts a member into a list sorted by key, in place of one with the same key. -/
def put {α : Type} (key : String) (value : α) : List (String × α) → List (String × α)
  | [] => [(key, value)]
  | (k, v) :: rest =>
    if key < k then (key, value) :: (k, v) :: rest
    else if key = k then (key, value) :: rest
    else (k, v) :: put key value rest

/-- The members sorted by key, the last one of each key. -/
def sorted {α : Type} (members : List (String × α)) : List (String × α) :=
  members.foldl (fun done member => put member.1 member.2 done) []

/-- The value under a key, the first one if there are several. -/
def find? {α : Type} (key : String) (members : List (String × α)) : Option α :=
  (members.find? (·.1 == key)).map Prod.snd

mutual

/-- The sorted document that a tree stands for, if all its leaves have values. -/
def value? : Tree δ → Option Json
  | null => some null
  | bool b => some (bool b)
  | number n => some (number n)
  | string s => some (string s)
  | array items => (values? items).map array
  | object members => (memberValues? members).map fun members => object (sorted members)
  | defect _ => none

def values? : List (Tree δ) → Option (List Json)
  | [] => some []
  | item :: rest => (value? item).bind fun item => (values? rest).map (item :: ·)

def memberValues? : List (String × Tree δ) → Option (List (String × Json))
  | [] => some []
  | (key, item) :: rest =>
    (value? item).bind fun item => (memberValues? rest).map ((key, item) :: ·)

end

mutual

/-- Equality of two trees as values: numbers are compared by `Number.same`, all else as it
stands. -/
def same : Tree δ → Tree δ → Bool
  | null, null => true
  | bool a, bool b => a == b
  | number a, number b => a.same b
  | string a, string b => a == b
  | array a, array b => sameItems a b
  | object a, object b => sameMembers a b
  | _, _ => false

def sameItems : List (Tree δ) → List (Tree δ) → Bool
  | [], [] => true
  | a :: as, b :: bs => same a b && sameItems as bs
  | _, _ => false

def sameMembers : List (String × Tree δ) → List (String × Tree δ) → Bool
  | [], [] => true
  | (k, a) :: as, (l, b) :: bs => k == l && same a b && sameMembers as bs
  | _, _ => false

end

mutual

/-- Marks every array and object that lies inside `room` others as too deep. -/
def prune (room : Nat) : Draft → Draft
  | array items => if room = 0 then defect .tooDeep else array (pruneItems (room - 1) items)
  | object members =>
    if room = 0 then defect .tooDeep else object (pruneMembers (room - 1) members)
  | leaf => leaf

def pruneItems (room : Nat) : List Draft → List Draft
  | [] => []
  | item :: rest => prune room item :: pruneItems room rest

def pruneMembers (room : Nat) : List (String × Draft) → List (String × Draft)
  | [] => []
  | (key, item) :: rest => (key, prune room item) :: pruneMembers room rest

end

end Tree
end LabExchange
