import LabExchange.Proofs.Hub.Narrowing
import LabExchange.Proofs.Json.Equality

/-!
# Criteria on extra fields

A criterion on an extra field asks for a value: the field is to be equal to it, or to be an array
with an item that is. An array that is asked for is only ever compared with the whole field, so a
field that has it among its items is missed.
-/
namespace LabExchange

namespace Json

def IsArray (j : Json) : Prop := ∃ items, j = .array items

/-- A stored document is equal to the wanted one, or is an array with an item that is. -/
def EqualsOrContains (stored wanted : Json) : Prop :=
  stored.Equals wanted ∨ ∃ items, stored = .array items ∧ ∃ item ∈ items, Equals item wanted

end Json

namespace EntryFilter

open Json (same_iff Equals)

variable {stored wanted : Json} {items : List Json}

/-- A field that is no array, or an array that is asked for, is compared as a whole. -/
theorem fieldMatches_whole (h : stored.IsArray → wanted.IsArray) :
    fieldMatches stored wanted = Tree.same stored wanted := by
  cases stored with
  | array items =>
    obtain ⟨items', rfl⟩ := h ⟨items, rfl⟩
    rw [Tree.same]
    rfl
  | _ => cases wanted <;> rfl

theorem fieldMatches_item (h : ¬wanted.IsArray) :
    fieldMatches (.array items) wanted = items.any (Tree.same · wanted) := by
  cases wanted with
  | array items' => exact absurd ⟨items', rfl⟩ h
  | _ => rfl

theorem not_equals_array (h : ¬wanted.IsArray) : ¬Equals (.array items) wanted := by
  rw [← same_iff]
  cases wanted with
  | array items' => exact absurd ⟨items', rfl⟩ h
  | _ => simp [Tree.same]

theorem fieldMatches_iff : fieldMatches stored wanted = true ↔
    stored.EqualsOrContains wanted ∧ (wanted.IsArray → stored.Equals wanted) := by
  by_cases h : stored.IsArray → wanted.IsArray
  · rw [fieldMatches_whole h, same_iff]
    constructor
    · exact fun hequal => ⟨.inl hequal, fun _ => hequal⟩
    · rintro ⟨hequal | ⟨items, rfl, -⟩, hwhole⟩
      · exact hequal
      · exact hwhole (h ⟨items, rfl⟩)
  · obtain ⟨⟨items, rfl⟩, hwanted⟩ := Classical.not_imp.mp h
    rw [fieldMatches_item hwanted, List.any_eq_true]
    simp only [same_iff]
    constructor
    · exact fun hitem => ⟨.inr ⟨items, rfl, hitem⟩, fun harray => absurd harray hwanted⟩
    · rintro ⟨hequal | ⟨items', heq, hitem⟩, -⟩
      · exact absurd hequal (not_equals_array hwanted)
      · obtain rfl := Tree.array.inj heq
        exact hitem

/-- A filter with one criterion on an extra field accepts the entries that have the field with a
value which is equal to the wanted one, or contains it and the wanted one is no array. -/
theorem accepts_field_iff (e : Entry) (key : String) (wanted : Value) :
    (Criterion.field key wanted).filter.accepts e = true ↔
      ∃ stored, e.metadata.extra.get? key = some stored ∧
        stored.EqualsOrContains wanted.json ∧
        (wanted.json.IsArray → stored.Equals wanted.json) := by
  rw [accepts_filter_iff]
  exact exists_congr fun stored => and_congr_right fun _ => fieldMatches_iff

end EntryFilter

/-- The array of a number. -/
def arrayOf (n : Nat) : Json := .array [Json.ofNat n]

/-- An entry that is tagged with two arrays. -/
def taggedEntry : Entry :=
  ⟨⟨"a"⟩, .scalars, "plot", .scalar (.zero false), ⟨"tagged", "", .noon,
    .insert "tags" ⟨.array [arrayOf 1, arrayOf 2], ⟨trivial, trivial⟩, ⟨trivial, trivial⟩, trivial⟩
      .empty⟩, 0⟩

/-- A tag that is an array is not found among the tags. -/
theorem accepts_field_misses_array :
    (∃ stored, taggedEntry.metadata.extra.get? "tags" = some stored ∧
      stored.EqualsOrContains (arrayOf 1)) ∧
    (Criterion.field "tags" ⟨arrayOf 1, trivial, trivial⟩).filter.accepts taggedEntry = false := by
  constructor
  · exact ⟨_, rfl, .inr ⟨_, rfl, arrayOf 1, List.mem_cons_self, rfl⟩⟩
  · decide +kernel

end LabExchange
