import LabExchange.Store
import Mathlib.Data.List.Flatten
import Mathlib.Data.List.Nodup
import Mathlib.Logic.Relation
import Mathlib.Tactic.SplitIfs

/-!
# What can happen to a store

Every operation on a store comes down to three kinds of steps: an id is issued, an entry is taken
in under a new id, or the lists are thinned out. An accepted insertion takes its entry in exactly
as a restoration does. What every step preserves holds of every state that a store can come to.
-/
namespace LabExchange

namespace Category

theorem nodup_all : all.Nodup := by decide

/-- If one category holds one item more and the others hold the same, so does the whole. -/
theorem flatMap_all_perm {α : Type} {f g : Category → List α} {c : Category} {a : α}
    (hc : (f c).Perm (a :: g c)) (hother : ∀ d, d ≠ c → f d = g d) :
    (all.flatMap f).Perm (a :: all.flatMap g) := by
  obtain ⟨before, later, hall⟩ := List.append_of_mem (mem_all c)
  have hnodup := nodup_all
  rw [hall, List.nodup_middle, List.nodup_cons, List.mem_append, not_or] at hnodup
  obtain ⟨⟨hbefore, hlater⟩, -⟩ := hnodup
  have h₁ : before.flatMap f = before.flatMap g :=
    List.flatMap_congr fun d hd => hother d (by rintro rfl; exact hbefore hd)
  have h₂ : later.flatMap f = later.flatMap g :=
    List.flatMap_congr fun d hd => hother d (by rintro rfl; exact hlater hd)
  rw [hall, List.flatMap_append, List.flatMap_append, List.flatMap_cons, List.flatMap_cons, h₁, h₂]
  exact ((hc.append_right _).append_left _).trans List.perm_middle

end Category

namespace Store

/-! ## The lists -/

@[simp] theorem entries_empty (c : Category) : empty.entries c = [] := PerCategory.get_ofFn _ c

theorem toList_eq (s : Store) : s.toList = Category.all.flatMap s.entries := rfl

theorem mem_toList {s : Store} {e : Entry} : e ∈ s.toList ↔ ∃ c, e ∈ s.entries c := by
  simp [toList_eq, Category.mem_all]

@[simp] theorem toList_empty : empty.toList = [] := by simp [toList_eq]

/-! ## The operations in terms of a few building blocks -/

/-- Takes an entry in. Its id counts as issued and its sequence number as seen. -/
def takeIn (s : Store) (e : Entry) : Store :=
  { s.append e with
    issued := e.id :: s.issued
    nextSequence := max s.nextSequence (after e.sequence) }

/-- Marks an id as issued. -/
def issue (s : Store) (id : EntryId) : Store := { s with issued := id :: s.issued }

/-- The same store with other lists. -/
def withLists (s : Store) (lists : PerCategory (List Entry)) : Store := { s with lists := lists }

/-- The entry that an export under a drawn id makes if it is accepted. -/
def newEntry (s : Store) (id : EntryId) (now : Timestamp) (tab : String) (category : Category)
    (payload : Payload) (metadata : Option ExportMetadata) : Entry :=
  ⟨id, category, tab, payload, (metadata.getD .new).resolve id category tab now, s.nextSequence⟩

@[simp] theorem entries_takeIn (s : Store) (e : Entry) (c : Category) :
    (s.takeIn e).entries c = if c = e.category then s.entries c ++ [e] else s.entries c := by
  simp only [takeIn, append, entries, PerCategory.get_set]
  split
  · next h => rw [h]
  · rfl

/-- The new entry comes somewhere among the others. -/
theorem toList_takeIn_perm (s : Store) (e : Entry) :
    (s.takeIn e).toList.Perm (e :: s.toList) := by
  rw [toList_eq, toList_eq]
  refine Category.flatMap_all_perm (f := (s.takeIn e).entries) (c := e.category) ?_ fun d hd => ?_
  · rw [entries_takeIn, if_pos rfl]
    exact List.perm_append_singleton _ _
  · rw [entries_takeIn, if_neg hd]

@[simp] theorem mem_toList_takeIn {s : Store} {e f : Entry} :
    f ∈ (s.takeIn e).toList ↔ f = e ∨ f ∈ s.toList := by
  rw [(toList_takeIn_perm s e).mem_iff, List.mem_cons]

theorem toList_sublist {s s' : Store} (h : ∀ c, (s'.entries c).Sublist (s.entries c)) :
    s'.toList.Sublist s.toList := List.Sublist.flatMap_right _ fun c _ => h c

theorem toList_withLists_sublist {s : Store} {lists : PerCategory (List Entry)}
    (h : ∀ c, (lists.get c).Sublist (s.entries c)) : (s.withLists lists).toList.Sublist s.toList :=
  toList_sublist h

theorem toNat_after {n : UInt64} {m : Nat} (h : n.toNat < m) (hm : m < UInt64.size) :
    (after n).toNat = n.toNat + 1 := by
  change m < 18446744073709551616 at hm
  rw [after, if_neg, UInt64.toNat_add]
  · exact Nat.mod_eq_of_lt (by simpa using by omega)
  · change n.toNat + 1 ≠ 18446744073709551616
    omega

@[simp] theorem toNat_max (a b : UInt64) : (max a b).toNat = max a.toNat b.toNat := by
  change (if a ≤ b then b else a).toNat = _
  split
  · next h => exact (Nat.max_eq_right (UInt64.le_iff_toNat_le.mp h)).symm
  · next h => exact (Nat.max_eq_left (by have := mt UInt64.le_iff_toNat_le.mpr h; omega)).symm

/-- The number after one that has another one after it. -/
theorem max_after {n : UInt64} (h : n.toNat + 1 ≠ UInt64.size) : max n (after n) = n + 1 := by
  have hlt := n.toNat_lt_size
  have hafter : (after n).toNat = n.toNat + 1 := toNat_after (Nat.lt_succ_self _) (by omega)
  have hone : after n = n + 1 := if_neg h
  rw [← hone]
  refine UInt64.toNat_inj.mp ?_
  rw [toNat_max]
  omega

theorem insert_eq (s : Store) (id : EntryId) (now : Timestamp) (tab : String) (c : Category)
    (p : Payload) (m : Option ExportMetadata) :
    s.insert id now tab c p m =
      if p.category ≠ c then .refused (.payloadMismatch c p.category)
      else if !p.isFinite then .refused (.nonFiniteValue c)
      else if id ∈ s.issued then .taken
      else if s.nextSequence.toNat + 1 = UInt64.size then .exhausted (s.issue id)
      else .stored (s.newEntry id now tab c p m) (s.takeIn (s.newEntry id now tab c p m)) := by
  unfold insert
  by_cases hfull : s.nextSequence.toNat + 1 = UInt64.size
  · simp only [if_pos hfull, issue]
  · simp only [if_neg hfull, takeIn, newEntry, max_after hfull, append, entries]

theorem restore?_eq (s : Store) (e : Entry) :
    s.restore? e =
      if e.payload.category ≠ e.category ∨ e.id ∈ s.issued then none else some (s.takeIn e) := rfl

theorem insert_eq_stored {s s' : Store} {id : EntryId} {now : Timestamp} {tab : String}
    {c : Category} {p : Payload} {m : Option ExportMetadata} {e : Entry}
    (h : s.insert id now tab c p m = .stored e s') :
    e = s.newEntry id now tab c p m ∧ s' = s.takeIn e ∧ p.category = c ∧ p.isFinite = true ∧
      id ∉ s.issued ∧ s.nextSequence.toNat + 1 ≠ UInt64.size := by
  rw [insert_eq] at h
  split_ifs at h with hcategory hfinite hissued hfull
  obtain ⟨rfl, rfl⟩ := Insertion.stored.inj h
  exact ⟨rfl, rfl, not_not.mp hcategory, by simpa using hfinite, hissued, hfull⟩

theorem insert_eq_exhausted {s s' : Store} {id : EntryId} {now : Timestamp} {tab : String}
    {c : Category} {p : Payload} {m : Option ExportMetadata}
    (h : s.insert id now tab c p m = .exhausted s') : s' = s.issue id ∧ id ∉ s.issued := by
  rw [insert_eq] at h
  split_ifs at h with hcategory hfinite hissued hfull
  exact ⟨(Insertion.exhausted.inj h).symm, hissued⟩

theorem restore?_eq_some {s s' : Store} {e : Entry} :
    s.restore? e = some s' ↔
      e.payload.category = e.category ∧ e.id ∉ s.issued ∧ s.takeIn e = s' := by
  rw [restore?_eq]
  split_ifs with h
  · simp only [false_iff]
    rintro ⟨hfits, hfresh, -⟩
    exact h.elim (absurd hfits) (absurd · hfresh)
  · rw [not_or, not_not] at h
    simp [h]

theorem remove?_eq_some {s s' : Store} {c : Category} {id : EntryId} {e : Entry} :
    s.remove? c id = some (e, s') ↔
      s.find? c id = some e ∧
        s.withLists (s.lists.set c ((s.entries c).eraseP (·.id == id))) = s' := by
  simp [remove?, withLists, Option.map_eq_some_iff]

/-! ## Steps -/

/-- One step in the life of a store. -/
inductive Step (s : Store) : Store → Prop where
  | issued (id : EntryId) (fresh : id ∉ s.issued) : Step s (s.issue id)
  | takenIn (e : Entry) (fits : e.payload.category = e.category) (fresh : e.id ∉ s.issued) :
      Step s (s.takeIn e)
  | thinned (lists : PerCategory (List Entry))
      (kept : ∀ c, (lists.get c).Sublist (s.entries c)) : Step s (s.withLists lists)

/-- Any number of steps, also none. -/
def Steps : Store → Store → Prop := Relation.ReflTransGen Step

theorem Steps.refl (s : Store) : s.Steps s := Relation.ReflTransGen.refl

theorem Steps.trans {s t u : Store} (h : s.Steps t) (h' : t.Steps u) : s.Steps u :=
  Relation.ReflTransGen.trans h h'

theorem Step.steps {s s' : Store} (h : s.Step s') : s.Steps s' := Relation.ReflTransGen.single h

/-- Replacing one list by a part of it makes no list longer. -/
theorem sublist_set {s : Store} {c : Category} {l : List Entry} (h : l.Sublist (s.entries c))
    (d : Category) : ((s.lists.set c l).get d).Sublist (s.entries d) := by
  rw [PerCategory.get_set]
  split
  · next hd => exact hd ▸ h
  · exact List.Sublist.refl _

theorem step_of_stored {s s' : Store} {id : EntryId} {now : Timestamp} {tab : String}
    {c : Category} {p : Payload} {m : Option ExportMetadata} {e : Entry}
    (h : s.insert id now tab c p m = .stored e s') : s.Step s' := by
  obtain ⟨rfl, rfl, hfits, -, hfresh, -⟩ := insert_eq_stored h
  exact .takenIn _ hfits hfresh

theorem step_of_exhausted {s s' : Store} {id : EntryId} {now : Timestamp} {tab : String}
    {c : Category} {p : Payload} {m : Option ExportMetadata}
    (h : s.insert id now tab c p m = .exhausted s') : s.Step s' := by
  obtain ⟨rfl, hfresh⟩ := insert_eq_exhausted h
  exact .issued id hfresh

theorem step_of_restored {s s' : Store} {e : Entry} (h : s.restore? e = some s') : s.Step s' := by
  obtain ⟨hfits, hfresh, rfl⟩ := restore?_eq_some.mp h
  exact .takenIn e hfits hfresh

theorem step_of_removed {s s' : Store} {c : Category} {id : EntryId} {e : Entry}
    (h : s.remove? c id = some (e, s')) : s.Step s' := by
  obtain ⟨-, rfl⟩ := remove?_eq_some.mp h
  exact .thinned _ (sublist_set List.eraseP_sublist)

theorem step_clear (s : Store) (c : Category) : s.Step (s.clear c).2 :=
  .thinned _ (sublist_set (List.nil_sublist _))

theorem step_clearAll (s : Store) : s.Step s.clearAll.2 := by
  refine .thinned _ fun c => ?_
  rw [PerCategory.get_ofFn]
  exact List.nil_sublist _

end Store
end LabExchange
