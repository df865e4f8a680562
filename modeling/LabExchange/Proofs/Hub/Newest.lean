import LabExchange.Proofs.Hub.Merging
import LabExchange.Proofs.Hub.Mutations
import LabExchange.Proofs.Hub.Numbering

/-!
# The newest entry

A new entry has a greater number than all that are stored, wherever their numbers come from. So an
export at a time that is not before theirs comes first in every listing of the newest, also among
entries of just that time.
-/
namespace LabExchange

/-- A listing begins with an entry that no other one may stand before. -/
theorem head?_newestFirst {l : List Entry} {e : Entry} (he : e ∈ l)
    (hfirst : ∀ f ∈ l, IsAhead f.rank e.rank → f = e) : (newestFirst l).head? = some e := by
  have hperm := newestFirst_perm l
  have hsorted := List.pairwise_map.mp (pairwise_newestFirst l)
  cases hlist : newestFirst l with
  | nil =>
    rw [hlist] at hperm
    exact absurd (hperm.mem_iff.mpr he) List.not_mem_nil
  | cons f rest =>
    rw [hlist] at hperm hsorted
    refine congrArg some ?_
    rcases List.mem_cons.mp (hperm.mem_iff.mpr he) with rfl | hrest
    · rfl
    · exact hfirst f (hperm.mem_iff.mp List.mem_cons_self)
        ((List.pairwise_cons.mp hsorted).1 e hrest)

namespace Store

variable {s : Store} {e : Entry}

/-- An entry comes first among all entries and among those that any filter accepts with it, and last
in its category. -/
structure IsNewest (s : Store) (e : Entry) : Prop where
  listAll : s.listAll.head? = some (.ofEntry e)
  query : ∀ f : EntryFilter, f.accepts e = true → (s.query f).head? = some (.ofEntry e)
  list : (s.list e.category).getLast? = some (.ofEntry e)

/-- The same by ids: that of the entry heads the listings and ends that of its category. -/
theorem IsNewest.ids (h : s.IsNewest e) :
    (s.listAll.map (·.id)).head? = some e.id ∧
      (∀ f : EntryFilter, f.accepts e = true → ((s.query f).map (·.id)).head? = some e.id) ∧
      ((s.list e.category).map (·.id)).getLast? = some e.id := by
  refine ⟨?_, fun f haccepts => ?_, ?_⟩
  · rw [List.head?_map, h.listAll]
    rfl
  · rw [List.head?_map, h.query f haccepts]
    rfl
  · rw [List.getLast?_map, h.list]
    rfl

/-- An entry that comes to others is the newest if its time is not before theirs and its number is
above theirs. -/
theorem isNewest_takeIn
    (htime : ∀ f ∈ s.toList, f.metadata.timestamp.key ≤ e.metadata.timestamp.key)
    (hnumber : ∀ f ∈ s.toList, f.sequence < e.sequence) : (s.takeIn e).IsNewest e := by
  have hmem : e ∈ (s.takeIn e).toList := mem_toList_takeIn.mpr (.inl rfl)
  have hfirst : ∀ f ∈ (s.takeIn e).toList, IsAhead f.rank e.rank → f = e := by
    intro f hf hahead
    rcases mem_toList_takeIn.mp hf with rfl | hold
    · rfl
    · rcases hahead with hlater | ⟨-, hle⟩
      · exact absurd (htime f hold) (Int.not_le.mpr hlater)
      · exact absurd (hnumber f hold) (UInt64.not_lt.mpr hle)
  refine ⟨?_, fun f haccepts => ?_, ?_⟩
  · rw [Store.listAll, List.head?_map, head?_newestFirst hmem hfirst]
    rfl
  · have haccepted : e ∈ (s.takeIn e).toList.filter f.accepts :=
      List.mem_filter.mpr ⟨hmem, haccepts⟩
    rw [Store.query, List.head?_map, head?_newestFirst haccepted fun g hg =>
      hfirst g (List.mem_filter.mp hg).1]
    rfl
  · rw [Store.list, entries_takeIn, if_pos rfl]
    simp

/-- As long as there is room for another entry, its number is above those of all that are stored. -/
theorem sequence_lt_of_room {calls : List Call}
    (hroom : (empty.afterCalls calls).nextSequence.toNat + 1 ≠ UInt64.size)
    (he : e ∈ (empty.afterCalls calls).toList) :
    e.sequence < (empty.afterCalls calls).nextSequence := by
  have hafter := after_le_of_held (held_of_mem he)
  have hlt := (empty.afterCalls calls).nextSequence.toNat_lt_size
  rw [toNat_after_eq] at hafter
  rw [UInt64.lt_iff_toNat_lt]
  omega

end Store

namespace World

variable {σ : Type} {w : World σ} {hub : Nat} {h : Hub σ} {supply : Supply} {patience : Nat}
  {x : Store.Export} {id : EntryId}

/-- In a hub that has come from a new one by any calls, an export that succeeds at a time not before
those of the stored entries makes the newest entry. -/
theorem isNewest_of_export {calls : List Call} (hhub : w.hub? hub = some h)
    (hcalls : h.store = Store.empty.afterCalls calls)
    (hgives : (w.reply supply patience (.exportData hub x)).Gives (some (.ok id)))
    (htime : ∀ f ∈ h.store.toList,
      f.metadata.timestamp.key ≤ (supply.time w.drawnTimes).key) :
    ∃ e, e.id = id ∧ id ∉ h.store.issued ∧ e.category.name = x.category ∧
      e.metadata.timestamp = supply.time w.drawnTimes ∧
      ((w.reply supply patience (.exportData hub x)).world w).store? hub =
        some (h.store.takeIn e) ∧
      (h.store.takeIn e).IsNewest e := by
  have hreply : w.reply supply patience (.exportData hub x) =
      w.exportReply supply patience hub h x := withHub_of_hub? hhub _
  rw [hreply] at hgives ⊢
  have hcases := ofExport_exportReply supply patience w hub h x
  generalize w.exportReply supply patience hub h x = reply at hgives hcases ⊢
  cases hcases with
  | waiting | exhausted => exact hgives.elim
  | refused e => exact absurd (Option.some.inj hgives) nofun
  | stored drawn hexport hevent =>
    obtain ⟨e, hcategory, -, hanswer, hstore, hnew, hfresh, hroom⟩ :=
      Store.exists_entry_of_stored hexport
    obtain ⟨_, hid⟩ := hgives
    obtain rfl : e.id = id := hanswer.symm.trans (Except.ok.inj (Option.some.inj hid))
    have hdrawn : e.id = _ := congrArg Entry.id hnew
    have hnow : e.metadata.timestamp = supply.time w.drawnTimes :=
      congrArg (fun e => e.metadata.timestamp) hnew
    have hnumber : e.sequence = h.store.nextSequence := congrArg Entry.sequence hnew
    refine ⟨e, rfl, hdrawn ▸ hfresh, hcategory.symm, hnow, ?_, Store.isNewest_takeIn ?_ ?_⟩
    · rw [← hstore]
      exact store?_of_hub? (hub?_setStore hhub _)
    · rw [hnow]
      exact htime
    · intro f hf
      rw [hcalls] at hf hroom hnumber
      exact hnumber ▸ Store.sequence_lt_of_room hroom hf

/-- Beside an entry of the same time with the greatest number that leaves another one. -/
theorem isNewest_of_export_sameTime : ∃ e,
    ((worldWithNumber 18446744073709551613).reply standingSupply 1
      (.exportData 0 squareExport)).Gives (some (.ok e.id)) ∧
    e.metadata.timestamp = (numberedEntry 18446744073709551613).metadata.timestamp ∧
    numberedEntry 18446744073709551613 ∈ (hubWithNumber 18446744073709551613).store.toList ∧
    ((hubWithNumber 18446744073709551613).store.takeIn e).IsNewest e := by
  have hhub : (worldWithNumber 18446744073709551613).hub? 0 =
      some (hubWithNumber 18446744073709551613) := rfl
  have hcalls : (hubWithNumber 18446744073709551613).store =
      Store.empty.afterCalls [restoreNumbered 18446744073709551613] := rfl
  have hlist : (hubWithNumber 18446744073709551613).store.toList =
      [numberedEntry 18446744073709551613] := rfl
  have hgives : ((worldWithNumber 18446744073709551613).reply standingSupply 1
      (.exportData 0 squareExport)).Gives (some (.ok ⟨"a"⟩)) := ⟨⟨0, 0⟩, rfl⟩
  obtain ⟨e, hid, -, -, htime, -, hnewest⟩ := isNewest_of_export hhub hcalls hgives fun f hf => by
    rw [hlist, List.mem_singleton] at hf
    rw [hf]
    exact Int.le_refl _
  exact ⟨e, hid ▸ hgives, htime, hlist ▸ List.mem_singleton_self _, hnewest⟩

end World
end LabExchange
