import LabExchange.Proofs.Hub.Calls

/-!
# Restoring a whole store

A restoration takes in the entries that are welcome, one after the other. The entries of a sound
store are all welcome in an empty one, so a snapshot restored there gives every category its list
again. Where the ids have been issued before, none is.
-/
namespace LabExchange

namespace Store

/-- Takes entries in, one after the other. -/
def takeAll (s : Store) (l : List Entry) : Store := l.foldl takeIn s

@[simp] theorem entries_takeAll (s : Store) (l : List Entry) (c : Category) :
    (s.takeAll l).entries c = s.entries c ++ l.filter (·.category = c) := by
  induction l generalizing s with
  | nil => simp [takeAll]
  | cons e rest ih =>
    have hrest : (s.takeAll (e :: rest)).entries c = ((s.takeIn e).takeAll rest).entries c := rfl
    rw [hrest, ih, entries_takeIn]
    by_cases hc : c = e.category
    · simp [hc]
    · simp [hc, Ne.symm hc]

theorem toList_takeAll_perm (s : Store) (l : List Entry) :
    (s.takeAll l).toList.Perm (s.toList ++ l) := by
  induction l generalizing s with
  | nil => simp [takeAll]
  | cons e rest ih =>
    have hrest : (s.takeAll (e :: rest)).toList.Perm ((s.takeIn e).toList ++ rest) := ih _
    exact hrest.trans (((toList_takeIn_perm s e).append_right rest).trans List.perm_middle.symm)

@[simp] theorem mem_toList_takeAll {s : Store} {l : List Entry} {e : Entry} :
    e ∈ (s.takeAll l).toList ↔ e ∈ s.toList ∨ e ∈ l := by
  rw [(toList_takeAll_perm s l).mem_iff, List.mem_append]

@[simp] theorem mem_issued_takeAll {s : Store} {l : List Entry} {id : EntryId} :
    id ∈ (s.takeAll l).issued ↔ id ∈ s.issued ∨ id ∈ l.map (·.id) := by
  induction l generalizing s with
  | nil => simp [takeAll]
  | cons e rest ih =>
    change id ∈ ((s.takeIn e).takeAll rest).issued ↔ _
    rw [ih, List.map_cons, List.mem_cons]
    change (id ∈ e.id :: s.issued ∨ _) ↔ _
    rw [List.mem_cons]
    tauto

theorem nextSequence_takeIn (s : Store) (e : Entry) :
    (s.takeIn e).nextSequence.toNat = max s.nextSequence.toNat (after e.sequence).toNat :=
  toNat_max _ _

/-- The next number is at least the one before, and it has passed each entry that came in. -/
theorem le_nextSequence_takeAll (s : Store) (l : List Entry) :
    s.nextSequence.toNat ≤ (s.takeAll l).nextSequence.toNat ∧
      ∀ e ∈ l, (after e.sequence).toNat ≤ (s.takeAll l).nextSequence.toNat := by
  induction l generalizing s with
  | nil => exact ⟨Nat.le_refl _, by simp⟩
  | cons e rest ih =>
    obtain ⟨hold, hrest⟩ := ih (s.takeIn e)
    rw [nextSequence_takeIn] at hold
    change _ ≤ ((s.takeIn e).takeAll rest).nextSequence.toNat ∧
      ∀ f ∈ e :: rest, _ ≤ ((s.takeIn e).takeAll rest).nextSequence.toNat
    refine ⟨by omega, fun f hf => ?_⟩
    rcases List.mem_cons.mp hf with rfl | hmem
    · omega
    · exact hrest f hmem

/-- No number is passed that was not there before and follows none of the entries. -/
theorem nextSequence_takeAll_le {s : Store} {l : List Entry} {n : Nat}
    (hs : s.nextSequence.toNat ≤ n) (hl : ∀ e ∈ l, (after e.sequence).toNat ≤ n) :
    (s.takeAll l).nextSequence.toNat ≤ n := by
  induction l generalizing s with
  | nil => exact hs
  | cons e rest ih =>
    refine ih ?_ fun f hf => hl f (List.mem_cons_of_mem _ hf)
    have he := hl e List.mem_cons_self
    rw [nextSequence_takeIn]
    omega

/-- The entries of a list that are taken in when they are restored one after the other. -/
def welcome (s : Store) : List Entry → List Entry
  | [] => []
  | e :: rest => match s.restore? e with
    | some s => e :: s.welcome rest
    | none => s.welcome rest

theorem restoreEntries_eq_welcome (s : Store) (l : List Entry) :
    (s.restoreEntries l).1 = s.takeAll (s.welcome l) ∧
      (s.restoreEntries l).2.1 = (s.welcome l).length := by
  induction l generalizing s with
  | nil => exact ⟨rfl, rfl⟩
  | cons e rest ih =>
    obtain ⟨hstore, hcount⟩ := restoreEntries_cons s e rest
    rw [hstore, hcount, welcome]
    cases h : s.restore? e with
    | none => exact ih s
    | some s' =>
      obtain ⟨-, -, rfl⟩ := restore?_eq_some.mp h
      obtain ⟨hrest, hlength⟩ := ih (s.takeIn e)
      exact ⟨hrest, congrArg (· + 1) hlength⟩

theorem of_mem_welcome {s : Store} {l : List Entry} {e : Entry} (h : e ∈ s.welcome l) :
    e ∈ l ∧ e.payload.category = e.category ∧ e.id ∉ s.issued := by
  induction l generalizing s with
  | nil => exact absurd h List.not_mem_nil
  | cons f rest ih =>
    rw [welcome] at h
    cases hf : s.restore? f with
    | none =>
      rw [hf] at h
      obtain ⟨hmem, hrest⟩ := ih h
      exact ⟨List.mem_cons_of_mem _ hmem, hrest⟩
    | some s' =>
      obtain ⟨hfits, hfresh, rfl⟩ := restore?_eq_some.mp hf
      rw [hf] at h
      rcases List.mem_cons.mp h with rfl | hlater
      · exact ⟨List.mem_cons_self, hfits, hfresh⟩
      · obtain ⟨hmem, hfits, hfresh⟩ := ih hlater
        exact ⟨List.mem_cons_of_mem _ hmem, hfits, fun hid => hfresh (List.mem_cons_of_mem _ hid)⟩

theorem nodup_welcome (s : Store) (l : List Entry) : ((s.welcome l).map (·.id)).Nodup := by
  induction l generalizing s with
  | nil => exact List.nodup_nil
  | cons e rest ih =>
    rw [welcome]
    cases h : s.restore? e with
    | none => exact ih s
    | some s' =>
      obtain ⟨-, -, rfl⟩ := restore?_eq_some.mp h
      refine List.nodup_cons.mpr ⟨fun hmem => ?_, ih (s.takeIn e)⟩
      obtain ⟨f, hf, hid⟩ := List.mem_map.mp hmem
      exact (of_mem_welcome hf).2.2 (hid ▸ List.mem_cons_self)

/-- A call restores a snapshot, or it stores a finite payload under a new id and number, or it
brings no entry and leaves the counter. -/
theorem call_cases (s : Store) (k : Call) :
    (∃ snapshot, k = .request (.restore snapshot) ∧
        (s.call k).2 = s.takeAll (s.welcome snapshot.entries)) ∨
      (∃ x id now c, k = .exportData x id now ∧ x.payload.isFinite = true ∧
        s.nextSequence.toNat + 1 ≠ UInt64.size ∧
        (s.call k).2 = s.takeIn (s.newEntry id now x.tab c x.payload x.metadata)) ∨
      (∀ c, ((s.call k).2.entries c).Sublist (s.entries c)) ∧
        (s.call k).2.nextSequence = s.nextSequence := by
  cases k with
  | request q =>
    by_cases hq : ∃ snapshot, q = .restore snapshot
    · obtain ⟨snapshot, rfl⟩ := hq
      exact .inl ⟨snapshot, rfl, (restoreEntries_eq_welcome s snapshot.entries).1⟩
    · obtain ⟨lists, hlists, hstore⟩ := thinned_answer s (not_exists.mp hq)
      refine .inr (.inr ?_)
      rw [call, hstore]
      exact ⟨hlists, rfl⟩
  | exportData x id now =>
    simp only [call]
    cases h : s.exportData x id now with
    | refused e => exact .inr (.inr ⟨fun c => List.Sublist.refl _, rfl⟩)
    | redraw => exact .inr (.inr ⟨fun c => List.Sublist.refl _, rfl⟩)
    | exhausted s' =>
      obtain ⟨c, hinsert⟩ := exportData_eq_exhausted h
      obtain ⟨rfl, -⟩ := insert_eq_exhausted hinsert
      exact .inr (.inr ⟨fun c => List.Sublist.refl _, rfl⟩)
    | stored effect =>
      obtain ⟨c, e, hinsert, -⟩ := exportData_eq_stored h
      obtain ⟨rfl, hstore, -, hfinite, -, hroom⟩ := insert_eq_stored hinsert
      exact .inr (.inl ⟨x, id, now, c, rfl, hfinite, hroom, hstore⟩)

/-- Of the entries that fit under a new id, one is taken in. -/
theorem exists_mem_welcome {s : Store} {l : List Entry} {e : Entry} (he : e ∈ l)
    (hfits : e.payload.category = e.category) (hfresh : e.id ∉ s.issued) :
    ∃ f ∈ s.welcome l, f.id = e.id := by
  induction l generalizing s with
  | nil => exact absurd he List.not_mem_nil
  | cons f rest ih =>
    rw [welcome]
    cases hf : s.restore? f with
    | none =>
      rcases List.mem_cons.mp he with rfl | hrest
      · rw [restore?_eq_some.mpr ⟨hfits, hfresh, rfl⟩] at hf
        cases hf
      · exact ih hrest hfresh
    | some s' =>
      obtain ⟨-, -, rfl⟩ := restore?_eq_some.mp hf
      by_cases hid : f.id = e.id
      · exact ⟨f, List.mem_cons_self, hid⟩
      · rcases List.mem_cons.mp he with rfl | hrest
        · exact absurd rfl hid
        · obtain ⟨g, hg, hsame⟩ := ih (s := s.takeIn f) hrest fun hmem =>
            (List.mem_cons.mp hmem).elim (fun heq => hid heq.symm) hfresh
          exact ⟨g, List.mem_cons_of_mem _ hg, hsame⟩

/-- A restoration takes in nothing whose id has been issued. -/
theorem welcome_eq_nil {s : Store} {l : List Entry} (h : ∀ e ∈ l, e.id ∈ s.issued) :
    s.welcome l = [] := by
  refine List.eq_nil_iff_forall_not_mem.mpr fun e he => ?_
  obtain ⟨hmem, -, hfresh⟩ := of_mem_welcome he
  exact hfresh (h e hmem)

/-- Entries of their categories under new and different ids are all restored. -/
theorem restoreEntries_eq_takeAll {s : Store} {l : List Entry}
    (hfits : ∀ e ∈ l, e.payload.category = e.category) (hids : (l.map (·.id)).Nodup)
    (hfresh : ∀ e ∈ l, e.id ∉ s.issued) : s.restoreEntries l = (s.takeAll l, l.length, []) := by
  induction l generalizing s with
  | nil => rfl
  | cons e rest ih =>
    rw [List.map_cons, List.nodup_cons] at hids
    have he : s.restore? e = some (s.takeIn e) :=
      restore?_eq_some.mpr ⟨hfits e List.mem_cons_self, hfresh e List.mem_cons_self, rfl⟩
    have hrest :
        (s.takeIn e).restoreEntries rest = ((s.takeIn e).takeAll rest, rest.length, []) := by
      refine ih (fun f hf => hfits f (List.mem_cons_of_mem _ hf)) hids.2 fun f hf hmem => ?_
      rcases List.mem_cons.mp hmem with hid | hissued
      · exact hids.1 (hid ▸ List.mem_map_of_mem hf)
      · exact hfresh f (List.mem_cons_of_mem _ hf) hissued
    simp only [restoreEntries, he, hrest]
    rfl

/-- The entries of one category, picked out of all. -/
theorem IsSound.filter_toList {s : Store} (hs : s.IsSound) (c : Category) :
    s.toList.filter (·.category = c) = s.entries c := by
  have hlist : ∀ d, (s.entries d).filter (·.category = c) = if d = c then s.entries d else [] := by
    intro d
    split
    · next hd => exact List.filter_eq_self.mpr fun e he => by simp [hs.filed d e he, hd]
    · next hd => exact List.filter_eq_nil_iff.mpr fun e he => by simp [hs.filed d e he, hd]
  rw [toList_eq, List.filter_flatMap]
  simp only [hlist]
  cases c <;> simp [Category.all]

/-- The store after a restart: a new one into which a snapshot of the old one is restored. -/
def restart (s : Store) (now : Timestamp) : Store :=
  (empty.restore (.ofEntries s.toList now)).store

theorem IsSound.restart_eq {s : Store} (hs : s.IsSound) (now : Timestamp) :
    s.restart now = Store.empty.takeAll s.toList := by
  have h : Store.empty.restoreEntries s.toList = _ :=
    restoreEntries_eq_takeAll hs.fits hs.ids_nodup fun e _ => List.not_mem_nil
  exact congrArg Prod.fst h

/-- A restart keeps the lists as they are. -/
theorem IsSound.entries_restart {s : Store} (hs : s.IsSound) (now : Timestamp) (c : Category) :
    (s.restart now).entries c = s.entries c := by
  rw [hs.restart_eq, entries_takeAll, entries_empty, hs.filter_toList, List.nil_append]

theorem IsSound.toList_restart {s : Store} (hs : s.IsSound) (now : Timestamp) :
    (s.restart now).toList = s.toList := List.flatMap_congr fun c _ => hs.entries_restart now c

theorem isSound_restart (s : Store) (now : Timestamp) : (s.restart now).IsSound :=
  IsSound.empty.steps (steps_restoreEntries empty s.toList)

end Store
end LabExchange
