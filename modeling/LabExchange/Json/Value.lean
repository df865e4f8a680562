import LabExchange.Json.Tree

/-!
# JSON values

A value is a document in which the keys of every object increase strictly, so that two values
are equal when they hold the same members. `Tree.sorted_of_value?` says that every tree stands
for such a document. A collection of named fields is an object value.
-/
namespace LabExchange

namespace Tree

variable {δ : Type}

/-- The keys of a list of members increase strictly. -/
def KeysIncrease {α : Type} (members : List (String × α)) : Prop :=
  members.Pairwise fun a b => a.1 < b.1

mutual

/-- The keys of every object increase strictly. -/
def Sorted : Tree δ → Prop
  | array items => AreSorted items
  | object members => KeysIncrease members ∧ MembersAreSorted members
  | _ => True

def AreSorted : List (Tree δ) → Prop
  | [] => True
  | item :: rest => Sorted item ∧ AreSorted rest

def MembersAreSorted : List (String × Tree δ) → Prop
  | [] => True
  | (_, item) :: rest => Sorted item ∧ MembersAreSorted rest

end

theorem membersAreSorted_iff {members : List (String × Tree δ)} :
    MembersAreSorted members ↔ ∀ m ∈ members, m.2.Sorted := by
  induction members with
  | nil => simp [MembersAreSorted]
  | cons member rest ih => simp [MembersAreSorted, ih]

theorem mem_put {α : Type} {key : String} {value : α} {members : List (String × α)}
    {m : String × α} (h : m ∈ put key value members) : m = (key, value) ∨ m ∈ members := by
  induction members with
  | nil => simpa [put] using h
  | cons member rest ih =>
    simp only [put] at h
    split at h
    · simpa using h
    · split at h
      · simp only [List.mem_cons] at h ⊢; grind
      · simp only [List.mem_cons] at h ⊢
        rcases h with h | h
        · exact .inr (.inl h)
        · exact (ih h).imp_right .inr

theorem keysIncrease_put {α : Type} {key : String} {value : α} {members : List (String × α)}
    (h : KeysIncrease members) : KeysIncrease (put key value members) := by
  induction members with
  | nil => simp [put, KeysIncrease]
  | cons member rest ih =>
    obtain ⟨hmember, hrest⟩ := List.pairwise_cons.mp h
    simp only [put]
    split
    · next hlt =>
      refine List.pairwise_cons.mpr ⟨fun m hm => ?_, h⟩
      rcases List.mem_cons.mp hm with rfl | hm
      · exact hlt
      · have := hmember m hm
        grind
    · split
      · next heq => exact List.pairwise_cons.mpr ⟨fun m hm => heq ▸ hmember m hm, hrest⟩
      · refine List.pairwise_cons.mpr ⟨fun m hm => ?_, ih hrest⟩
        rcases mem_put hm with rfl | hm
        · grind
        · exact hmember m hm

theorem sorted_object_put {key : String} {value : Tree δ} {members : List (String × Tree δ)}
    (hvalue : value.Sorted) (h : (object members).Sorted) :
    (object (put key value members)).Sorted := by
  refine ⟨keysIncrease_put h.1, membersAreSorted_iff.mpr fun m hm => ?_⟩
  rcases mem_put hm with rfl | hm
  · exact hvalue
  · exact membersAreSorted_iff.mp h.2 m hm

theorem sorted_object_sorted {members : List (String × Tree δ)}
    (h : MembersAreSorted members) : (object (sorted members)).Sorted := by
  suffices ∀ done : List (String × Tree δ), (object done).Sorted →
      (object (members.foldl (fun done member => put member.1 member.2 done) done)).Sorted from
    this [] ⟨.nil, trivial⟩
  induction members with
  | nil => exact fun done hdone => hdone
  | cons member rest ih => exact fun done hdone => ih h.2 _ (sorted_object_put h.1 hdone)

theorem sorted_object_filter {members : List (String × Tree δ)} (p : String × Tree δ → Bool)
    (h : (object members).Sorted) : (object (members.filter p)).Sorted :=
  ⟨List.Pairwise.filter p h.1, membersAreSorted_iff.mpr fun m hm =>
    membersAreSorted_iff.mp h.2 m (List.mem_filter.mp hm).1⟩

mutual

theorem sorted_of_value? {t : Tree δ} {j : Json} (h : value? t = some j) : j.Sorted := by
  cases t with
  | null | bool | number | string =>
    simp only [value?, Option.some.injEq] at h; subst h; trivial
  | array items =>
    simp only [value?, Option.map_eq_some_iff] at h
    obtain ⟨values, h, rfl⟩ := h
    exact areSorted_of_values? h
  | object members =>
    simp only [value?, Option.map_eq_some_iff] at h
    obtain ⟨values, h, rfl⟩ := h
    exact sorted_object_sorted (membersAreSorted_of_memberValues? h)
  | defect => simp [value?] at h

theorem areSorted_of_values? {items : List (Tree δ)} {values : List Json}
    (h : values? items = some values) : AreSorted values := by
  match items with
  | [] => simp only [values?, Option.some.injEq] at h; subst h; trivial
  | item :: rest =>
    simp only [values?, Option.bind_eq_some_iff, Option.map_eq_some_iff] at h
    obtain ⟨value, hvalue, values, hvalues, rfl⟩ := h
    exact ⟨sorted_of_value? hvalue, areSorted_of_values? hvalues⟩

theorem membersAreSorted_of_memberValues? {members : List (String × Tree δ)}
    {values : List (String × Json)} (h : memberValues? members = some values) :
    MembersAreSorted values := by
  match members with
  | [] => simp only [memberValues?, Option.some.injEq] at h; subst h; trivial
  | (key, item) :: rest =>
    simp only [memberValues?, Option.bind_eq_some_iff, Option.map_eq_some_iff] at h
    obtain ⟨value, hvalue, values, hvalues, rfl⟩ := h
    exact ⟨sorted_of_value? hvalue, membersAreSorted_of_memberValues? hvalues⟩

end

end Tree

/-- A document in which the keys of every object increase strictly. -/
structure Value where
  json : Json
  sorted : json.Sorted

namespace Value

/-- The value that a tree stands for, if all its leaves have values. -/
def ofTree? {δ : Type} (t : Tree δ) : Option Value :=
  match h : t.value? with
  | some json => some ⟨json, Tree.sorted_of_value? h⟩
  | none => none

def same (a b : Value) : Bool := Tree.same a.json b.json

end Value

/-- Named values, sorted by name. -/
structure Fields where
  members : List (String × Json)
  sorted : (Tree.object members).Sorted

namespace Fields

def empty : Fields := ⟨[], .nil, trivial⟩

instance : Inhabited Fields := ⟨empty⟩

/-- Sets a field, in place of one with the same name. -/
def insert (key : String) (value : Value) (fields : Fields) : Fields :=
  ⟨Tree.put key value.json fields.members, Tree.sorted_object_put value.sorted fields.sorted⟩

/-- The fields of a list of members, the last one of each name. -/
def ofMembers (members : List (String × Value)) : Fields :=
  members.foldl (fun fields member => fields.insert member.1 member.2) empty

/-- Drops the fields whose names are in a list. -/
def dropNames (names : List String) (fields : Fields) : Fields :=
  ⟨fields.members.filter fun m => !names.contains m.1,
    Tree.sorted_object_filter _ fields.sorted⟩

/-- The document under a name. -/
def get? (fields : Fields) (key : String) : Option Json := Tree.find? key fields.members

end Fields
end LabExchange
