import LabExchange.Proofs.Store.Steps

/-!
# Sound stores

In a sound store every entry is filed where it belongs, under an id of its own that counts as
issued. Steps keep a store sound. They also respect its past: what has been issued stays issued,
and an entry that was not there before comes under an id that had not been issued.
-/
namespace LabExchange

namespace Store

/-- What holds of a store that began empty. -/
structure IsSound (s : Store) : Prop where
  /-- No id occurs twice, in one list or in two. -/
  ids_nodup : (s.toList.map (·.id)).Nodup
  filed : ∀ c, ∀ e ∈ s.entries c, e.category = c
  fits : ∀ e ∈ s.toList, e.payload.category = e.category
  issued : ∀ e ∈ s.toList, e.id ∈ s.issued

namespace IsSound

theorem empty : Store.empty.IsSound where
  ids_nodup := by simp
  filed := by simp
  fits := by simp
  issued := by simp

/-- Two entries with one id are the same entry. -/
theorem eq_of_id_eq {s : Store} (hs : s.IsSound) {e f : Entry} (he : e ∈ s.toList)
    (hf : f ∈ s.toList) (h : e.id = f.id) : e = f :=
  List.inj_on_of_nodup_map hs.ids_nodup he hf h

theorem entries_nodup {s : Store} (hs : s.IsSound) (c : Category) :
    ((s.entries c).map (·.id)).Nodup := by
  obtain ⟨before, later, hall⟩ := List.append_of_mem (Category.mem_all c)
  refine hs.ids_nodup.sublist (List.Sublist.map _ ?_)
  rw [toList_eq, hall, List.flatMap_append, List.flatMap_cons]
  exact (List.sublist_append_left _ _).trans (List.sublist_append_right _ _)

theorem takeIn {s : Store} (hs : s.IsSound) {e : Entry} (hfits : e.payload.category = e.category)
    (hfresh : e.id ∉ s.issued) : (s.takeIn e).IsSound where
  ids_nodup := by
    rw [((toList_takeIn_perm s e).map _).nodup_iff, List.map_cons, List.nodup_cons]
    refine ⟨fun hmem => ?_, hs.ids_nodup⟩
    obtain ⟨f, hf, hid⟩ := List.mem_map.mp hmem
    exact hfresh (hid ▸ hs.issued f hf)
  filed := by
    intro c f hf
    rw [entries_takeIn] at hf
    split at hf
    · next hc =>
      rcases List.mem_append.mp hf with hold | hnew
      · exact hs.filed c f hold
      · rw [List.mem_singleton.mp hnew, hc]
    · exact hs.filed c f hf
  fits := by
    intro f hf
    rcases mem_toList_takeIn.mp hf with rfl | hold
    · exact hfits
    · exact hs.fits f hold
  issued := by
    intro f hf
    rcases mem_toList_takeIn.mp hf with rfl | hold
    · exact List.mem_cons_self
    · exact List.mem_cons_of_mem _ (hs.issued f hold)

theorem issue {s : Store} (hs : s.IsSound) (id : EntryId) : (s.issue id).IsSound where
  ids_nodup := hs.ids_nodup
  filed := hs.filed
  fits := hs.fits
  issued e he := List.mem_cons_of_mem _ (hs.issued e he)

theorem withLists {s : Store} (hs : s.IsSound) {lists : PerCategory (List Entry)}
    (h : ∀ c, (lists.get c).Sublist (s.entries c)) : (s.withLists lists).IsSound where
  ids_nodup := hs.ids_nodup.sublist ((toList_withLists_sublist h).map _)
  filed c e he := hs.filed c e ((h c).subset he)
  fits e he := hs.fits e ((toList_withLists_sublist h).subset he)
  issued e he := hs.issued e ((toList_withLists_sublist h).subset he)

theorem step {s s' : Store} (hs : s.IsSound) (h : s.Step s') : s'.IsSound := by
  cases h with
  | issued id fresh => exact hs.issue id
  | takenIn e fits fresh => exact hs.takeIn fits fresh
  | thinned lists kept => exact hs.withLists kept

theorem steps {s s' : Store} (hs : s.IsSound) (h : s.Steps s') : s'.IsSound := by
  induction h with
  | refl => exact hs
  | tail _ hstep ih => exact ih.step hstep

end IsSound

/-- Where ids are unique, erasing the entry with an id is the same as sifting it out. -/
theorem eraseP_eq_filter {l : List Entry} (h : (l.map (·.id)).Nodup) (id : EntryId) :
    l.eraseP (·.id == id) = l.filter fun e => !(e.id == id) := by
  induction l with
  | nil => rfl
  | cons e l ih =>
    rw [List.map_cons, List.nodup_cons] at h
    by_cases he : e.id = id
    · have hother : ∀ f ∈ l, (!(f.id == id)) = true := by
        intro f hf
        have hne : f.id ≠ id := fun hid => h.1 (List.mem_map.mpr ⟨f, hf, hid.trans he.symm⟩)
        simpa using hne
      rw [List.eraseP_cons_of_pos (by simpa using he), List.filter_cons_of_neg (by simpa using he),
        List.filter_eq_self.mpr hother]
    · rw [List.eraseP_cons_of_neg (by simpa using he), List.filter_cons_of_pos (by simpa using he),
        ih h.2]

/-- A store respects an earlier one: ids stay issued, and only under new ids come new entries. -/
structure Respects (s' s : Store) : Prop where
  issued : s.issued ⊆ s'.issued
  kept_or_fresh : ∀ e ∈ s'.toList, e ∈ s.toList ∨ e.id ∉ s.issued

namespace Respects

theorem refl (s : Store) : s.Respects s := ⟨List.Subset.refl _, fun _ he => .inl he⟩

theorem trans {s t u : Store} (htu : u.Respects t) (hst : t.Respects s) : u.Respects s where
  issued := List.Subset.trans hst.issued htu.issued
  kept_or_fresh e he := by
    rcases htu.kept_or_fresh e he with hold | hfresh
    · exact hst.kept_or_fresh e hold
    · exact .inr fun hmem => hfresh (hst.issued hmem)

end Respects

theorem Step.respects {s s' : Store} (h : s.Step s') : s'.Respects s := by
  cases h with
  | issued id fresh => exact ⟨List.subset_cons_self _ _, fun e he => .inl he⟩
  | takenIn e fits fresh =>
    refine ⟨List.subset_cons_self _ _, fun f hf => ?_⟩
    rcases mem_toList_takeIn.mp hf with rfl | hold
    · exact .inr fresh
    · exact .inl hold
  | thinned lists kept =>
    exact ⟨List.Subset.refl _, fun e he => .inl ((toList_withLists_sublist kept).subset he)⟩

theorem Steps.respects {s s' : Store} (h : s.Steps s') : s'.Respects s := by
  induction h with
  | refl => exact .refl _
  | tail _ hstep ih => exact hstep.respects.trans ih

/-- An entry that was there is the only one that its id may come to stand for. -/
theorem IsSound.eq_of_steps {s s' : Store} (hs : s.IsSound) (hsteps : s.Steps s') {e f : Entry}
    (he : e ∈ s.toList) (hf : f ∈ s'.toList) (h : e.id = f.id) : e = f := by
  rcases hsteps.respects.kept_or_fresh f hf with hold | hfresh
  · exact hs.eq_of_id_eq he hold h
  · exact absurd (hs.issued e he) (h ▸ hfresh)

/-- An entry that is gone does not come back. -/
theorem IsSound.not_mem_of_steps {s s' s'' : Store} (hs : s.IsSound) (hsteps : s.Steps s')
    (hsteps' : s'.Steps s'') {e : Entry} (he : e ∈ s.toList) (hgone : e ∉ s'.toList) :
    e ∉ s''.toList := by
  intro hback
  rcases hsteps'.respects.kept_or_fresh e hback with hold | hfresh
  · exact hgone hold
  · exact hfresh (hsteps.respects.issued (hs.issued e he))

/-! ## Runs of operations -/

/-- An operation that may change a store. -/
inductive Operation where
  | insert (id : EntryId) (now : Timestamp) (tab : String) (category : Category)
    (payload : Payload) (metadata : Option ExportMetadata)
  | restore (entry : Entry)
  | remove (category : Category) (id : EntryId)
  | clear (category : Category)
  | clearAll

/-- The store after an operation. An insertion that is refused, or whose id has been issued
before, leaves it as it is; one that finds the sequence numbers used up has issued its id. -/
def carryOut (s : Store) : Operation → Store
  | .insert id now tab c payload metadata =>
    match s.insert id now tab c payload metadata with
    | .stored _ s' | .exhausted s' => s'
    | .refused _ | .taken => s
  | .restore e => (s.restore? e).getD s
  | .remove c id => ((s.remove? c id).map Prod.snd).getD s
  | .clear c => (s.clear c).2
  | .clearAll => s.clearAll.2

theorem steps_carryOut (s : Store) (o : Operation) : s.Steps (s.carryOut o) := by
  cases o with
  | insert id now tab c payload metadata =>
    simp only [carryOut]
    cases h : s.insert id now tab c payload metadata with
    | stored e s' => exact (step_of_stored h).steps
    | exhausted s' => exact (step_of_exhausted h).steps
    | refused e => exact .refl s
    | taken => exact .refl s
  | restore e =>
    cases h : s.restore? e with
    | some s' => simpa [carryOut, h] using (step_of_restored h).steps
    | none => simpa [carryOut, h] using Steps.refl s
  | remove c id =>
    cases h : s.remove? c id with
    | some r => simpa [carryOut, h] using (step_of_removed h).steps
    | none => simpa [carryOut, h] using Steps.refl s
  | clear c => exact (step_clear s c).steps
  | clearAll => exact (step_clearAll s).steps

theorem steps_foldl_carryOut (s : Store) (operations : List Operation) :
    s.Steps (operations.foldl carryOut s) := by
  induction operations generalizing s with
  | nil => exact .refl s
  | cons o rest ih => exact (steps_carryOut s o).trans (ih _)

/-- Whatever is done to a store that began empty, it is sound, and it keeps a list for each of the
seven categories. -/
theorem isSound_of_operations (operations : List Operation) :
    (operations.foldl carryOut empty).IsSound ∧
      (operations.foldl carryOut empty).lists.toList.length = 7 :=
  ⟨IsSound.empty.steps (steps_foldl_carryOut empty operations), rfl⟩

end Store
end LabExchange
