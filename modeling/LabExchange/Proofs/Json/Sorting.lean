import LabExchange.Json.Record
import LabExchange.Proofs.Json.Parsing
import Mathlib.Data.List.Nodup

/-!
# Records in sorted documents

Sorting the members of an object by key only changes their order when no key stands twice, and
nothing at all when they are sorted. So the fields of a record are found in the sorted document
just as they were written, and sorted members are fields as they stand.
-/
namespace LabExchange

namespace Tree

variable {α δ : Type} {members : List (String × α)}

/-! ## Sorting members -/

theorem nodup_keys_middle {before later : List (String × α)} {member : String × α} :
    ((before ++ member :: later).map Prod.fst).Nodup ↔
      member.1 ∉ (before ++ later).map Prod.fst ∧ ((before ++ later).map Prod.fst).Nodup := by
  rw [List.map_append, List.map_cons, List.nodup_middle, List.nodup_cons, ← List.map_append]

theorem put_perm {key : String} {value : α} (h : key ∉ members.map Prod.fst) :
    (put key value members).Perm ((key, value) :: members) := by
  induction members with
  | nil => exact .refl _
  | cons member rest ih =>
    rw [List.map_cons, List.mem_cons, not_or] at h
    simp only [put]
    rw [if_neg h.1]
    split
    · exact .refl _
    · exact ((ih h.2).cons member).trans (.swap _ _ _)

theorem find?_cons {key other : String} {value : α} :
    find? other ((key, value) :: members) =
      if key = other then some value else find? other members := by
  by_cases h : key = other <;> simp [find?, h]

/-- What stands under a key is what was put there last. -/
@[simp] theorem find?_put (key : String) (value : α) (members : List (String × α))
    (other : String) :
    find? other (put key value members) =
      if key = other then some value else find? other members := by
  induction members with
  | nil => rw [put, find?_cons]
  | cons member rest ih =>
    obtain ⟨k, v⟩ := member
    simp only [put]
    split
    · rw [find?_cons]
    · split
      · next heq =>
        subst heq
        rw [find?_cons, find?_cons]
        split <;> rfl
      · next hne =>
        rw [find?_cons, find?_cons, ih]
        by_cases hk : k = other
        · subst hk
          rw [if_pos rfl, if_neg hne, if_pos rfl]
        · rw [if_neg hk, if_neg hk]

/-- A key that does not stand twice has at most the member that is found under it. -/
theorem filter_key_eq {key : String} (h : (members.map Prod.fst).count key ≤ 1) :
    members.filter (·.1 == key) = ((find? key members).map (key, ·)).toList := by
  have hlength : (members.filter (·.1 == key)).length ≤ 1 := by
    rwa [List.count_eq_length_filter, List.filter_map, List.length_map] at h
  have hkey : ∀ m ∈ members.filter (·.1 == key), m.1 = key := fun m hm => by
    simpa using (List.mem_filter.mp hm).2
  rw [find?, ← List.head?_filter]
  generalize members.filter (·.1 == key) = found at hlength hkey
  match found, hlength with
  | [], _ => rfl
  | [member], _ =>
    obtain rfl := hkey member List.mem_cons_self
    rfl
  | _ :: _ :: _, h => simp at h

theorem find?_eq_some_iff_of_count {key : String} {value : α}
    (h : (members.map Prod.fst).count key ≤ 1) :
    find? key members = some value ↔ (key, value) ∈ members := by
  have hfilter : (key, value) ∈ members ↔ (key, value) ∈ members.filter (·.1 == key) := by
    simp [List.mem_filter]
  rw [hfilter, filter_key_eq h]
  cases find? key members <;> simp [eq_comm]

theorem find?_eq_none_iff {key : String} :
    find? key members = none ↔ key ∉ members.map Prod.fst := by
  rw [find?, Option.map_eq_none_iff, List.find?_eq_none, List.mem_map]
  constructor
  · rintro h ⟨m, hm, rfl⟩
    exact h m hm (beq_self_eq_true _)
  · intro h m hm heq
    exact h ⟨m, hm, eq_of_beq heq⟩

theorem find?_eq_some_iff (h : (members.map Prod.fst).Nodup) {key : String} {value : α} :
    find? key members = some value ↔ (key, value) ∈ members :=
  find?_eq_some_iff_of_count (List.nodup_iff_count_le_one.mp h key)

theorem sorted_perm (h : (members.map Prod.fst).Nodup) : (sorted members).Perm members := by
  suffices ∀ done : List (String × α), ((done ++ members).map Prod.fst).Nodup →
      (members.foldl (fun done member => put member.1 member.2 done) done).Perm
        (done ++ members) from this [] h
  clear h
  induction members with
  | nil =>
    intro done hdone
    rw [List.append_nil]
    exact .refl _
  | cons member rest ih =>
    intro done hdone
    obtain ⟨hmember, -⟩ := nodup_keys_middle.mp hdone
    have hput : (put member.1 member.2 done).Perm (member :: done) :=
      put_perm fun hmem => hmember (by rw [List.map_append]; exact List.mem_append_left _ hmem)
    have hmoved : (put member.1 member.2 done ++ rest).Perm (done ++ member :: rest) :=
      (hput.append_right rest).trans List.perm_middle.symm
    exact (ih _ ((hmoved.map _).nodup_iff.mpr hdone)).trans hmoved

theorem keysIncrease_sorted (members : List (String × α)) : KeysIncrease (sorted members) := by
  suffices ∀ done : List (String × α), KeysIncrease done →
      KeysIncrease (members.foldl (fun done member => put member.1 member.2 done) done) from
    this [] .nil
  induction members with
  | nil => exact fun done hdone => hdone
  | cons member rest ih => exact fun done hdone => ih _ (keysIncrease_put hdone)

theorem KeysIncrease.nodup (h : KeysIncrease members) : (members.map Prod.fst).Nodup := by
  refine List.pairwise_map.mpr (h.imp fun {a b} hlt heq => ?_)
  rw [heq] at hlt
  exact absurd hlt (String.lt_irrefl _)

/-- Members can increase in one order only. -/
theorem KeysIncrease.eq_of_perm {others : List (String × α)} (h : KeysIncrease members)
    (hothers : KeysIncrease others) (hperm : members.Perm others) : members = others :=
  hperm.eq_of_pairwise (fun _ _ _ _ hab hba => absurd hba (String.lt_asymm hab)) h hothers

theorem sorted_eq_self (h : KeysIncrease members) : sorted members = members :=
  (keysIncrease_sorted members).eq_of_perm h (sorted_perm h.nodup)

/-! ## Sorted documents -/

mutual

@[simp] theorem value?_eq (j : Json) : value? j = some j.normal := by
  cases j with
  | null | bool | number | string => rfl
  | array items => rw [value?, values?_eq items]; rfl
  | object members => rw [value?, memberValues?_eq members]; rfl
  | defect reason => exact reason.elim

theorem values?_eq (items : List Json) : values? items = some (Json.normalItems items) := by
  match items with
  | [] => rfl
  | item :: rest => rw [values?, value?_eq item, values?_eq rest]; rfl

theorem memberValues?_eq (members : List (String × Json)) :
    memberValues? members = some (Json.normalMembers members) := by
  match members with
  | [] => rfl
  | (key, item) :: rest => rw [memberValues?, value?_eq item, memberValues?_eq rest]; rfl

end

end Tree

namespace Json

open LabExchange.Tree

theorem normalItems_eq (items : List Json) : normalItems items = items.map normal := by
  induction items with
  | nil => rfl
  | cons item rest ih => rw [normalItems, ih, List.map_cons]

theorem normalMembers_eq (members : List (String × Json)) :
    normalMembers members = members.map fun m => (m.1, normal m.2) := by
  induction members with
  | nil => rfl
  | cons member rest ih => rw [normalMembers, ih, List.map_cons]

mutual

/-- A sorted document stays as it is. -/
theorem normal_eq_self {j : Json} (h : j.Sorted) : normal j = j := by
  cases j with
  | null | bool | number | string => rfl
  | array items => rw [normal, normalItems_eq_self h]
  | object members => rw [normal, normalMembers_eq_self h.2, sorted_eq_self h.1]
  | defect reason => exact reason.elim

theorem normalItems_eq_self {items : List Json} (h : AreSorted items) :
    normalItems items = items := by
  match items with
  | [] => rfl
  | item :: rest => rw [normalItems, normal_eq_self h.1, normalItems_eq_self h.2]

theorem normalMembers_eq_self {members : List (String × Json)} (h : MembersAreSorted members) :
    normalMembers members = members := by
  match members with
  | [] => rfl
  | (key, item) :: rest => rw [normalMembers, normal_eq_self h.1, normalMembers_eq_self h.2]

end

theorem sorted_normal (j : Json) : (normal j).Sorted := sorted_of_value? (value?_eq j)

/-- The members of a record come out of the sorted document in another order. -/
theorem normal_object_perm {members : List (String × Json)}
    (h : (members.map Prod.fst).Nodup) :
    (Tree.sorted (normalMembers members)).Perm (members.map fun m => (m.1, normal m.2)) := by
  rw [normalMembers_eq]
  exact sorted_perm (by simpa [List.map_map, Function.comp_def] using h)

end Json

/-! ## Fields of records -/

namespace Tree

variable {δ : Type}

/-- A field that does not stand twice is what is found under its name. -/
theorem field?_eq_find? {members : List (String × Tree δ)} {name : String}
    (h : (members.map Prod.fst).count name ≤ 1) :
    field? name members = some (find? name members) := by
  rw [field?, filter_key_eq h]
  cases find? name members <;> rfl

theorem field?_of_mem {members : List (String × Tree δ)} {name : String} {t : Tree δ}
    (hnodup : (members.map Prod.fst).Nodup) (h : (name, t) ∈ members) :
    field? name members = some (some t) := by
  rw [field?_eq_find? (List.nodup_iff_count_le_one.mp hnodup name),
    (find?_eq_some_iff hnodup).mpr h]

/-- The first fields of a record in its sorted document, as they were written. -/
theorem fields?_normal (fixed others : List (String × Json)) (optional : Nat)
    (h : ((fixed ++ others).map Prod.fst).Nodup) :
    fields? (fixed.map Prod.fst) optional (Json.normal (.object (fixed ++ others))) =
      some (fixed.map fun m => some m.2.normal) := by
  have hperm := Json.normal_object_perm h
  have hnodup : ((Tree.sorted (Json.normalMembers (fixed ++ others))).map Prod.fst).Nodup :=
    (keysIncrease_sorted _).nodup
  have hfound : ∀ m ∈ fixed,
      field? m.1 (Tree.sorted (Json.normalMembers (fixed ++ others))) = some (some m.2.normal) := by
    intro m hm
    refine field?_of_mem hnodup (hperm.mem_iff.mpr ?_)
    exact List.mem_map_of_mem (f := fun m => (m.1, Json.normal m.2)) (List.mem_append_left _ hm)
  simp only [Json.normal, fields?]
  clear hperm hnodup h
  generalize Tree.sorted (Json.normalMembers (fixed ++ others)) = members at hfound
  induction fixed with
  | nil => rfl
  | cons m rest ih =>
    obtain ⟨hm, hrest⟩ := List.forall_mem_cons.mp hfound
    simp [hm, ih hrest]

/-- All fields of a record. -/
theorem fields?_normal_record (members : List (String × Json)) (optional : Nat)
    (h : (members.map Prod.fst).Nodup) :
    fields? (members.map Prod.fst) optional (Json.normal (.object members)) =
      some (members.map fun m => some m.2.normal) := by
  have hfields := fields?_normal members [] optional (by rwa [List.append_nil])
  rwa [List.append_nil] at hfields

end Tree
end LabExchange
