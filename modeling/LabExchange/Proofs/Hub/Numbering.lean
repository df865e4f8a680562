import LabExchange.Proofs.Hub.Adequacy
import LabExchange.Proofs.Hub.History
import LabExchange.Proofs.Hub.Restoring
import Mathlib.Data.List.Induction

/-!
# Numbers for exports

The counter of a hub follows the greatest number that an entry in it has ever had, as far as there
is a number after it. So a valid export is stored unless an entry has been there that leaves no
number for it, and in a hub that takes numbers from outside this can be the very first one.
-/
namespace LabExchange

namespace Store

variable {s : Store}

/-! ## The counter -/

/-- An entry has been in the store at some point of a run of calls. -/
def Held (s : Store) (calls : List Call) (e : Entry) : Prop :=
  ∃ earlier, earlier <+: calls ∧ e ∈ (s.afterCalls earlier).toList

/-- An entry leaves no number for a new one. -/
def IsLast (e : Entry) : Prop := UInt64.size ≤ e.sequence.toNat + 2

instance (e : Entry) : Decidable (IsLast e) := inferInstanceAs (Decidable (_ ≤ _))

theorem toNat_after_eq (n : UInt64) : (after n).toNat = min (n.toNat + 1) (UInt64.size - 1) := by
  have hlt := n.toNat_lt_size
  by_cases hfull : n.toNat + 1 = UInt64.size
  · rw [after, if_pos hfull]
    omega
  · rw [toNat_after (Nat.lt_succ_self _) (by omega)]
    omega

/-- The counter stands at the last number after an entry if that leaves no number. -/
theorem isLast_iff {e : Entry} : IsLast e ↔ (after e.sequence).toNat + 1 = UInt64.size := by
  have hsize : (1 : Nat) < UInt64.size := by decide
  rw [IsLast, toNat_after_eq]
  omega

/-- The counter stays, or one of the entries that come in sets it. -/
theorem nextSequence_takeAll_eq (s : Store) (l : List Entry) :
    (s.takeAll l).nextSequence.toNat = s.nextSequence.toNat ∨
      ∃ e ∈ l, (s.takeAll l).nextSequence.toNat = (after e.sequence).toNat := by
  induction l generalizing s with
  | nil => exact .inl rfl
  | cons f rest ih =>
    change ((s.takeIn f).takeAll rest).nextSequence.toNat = _ ∨
      ∃ e ∈ f :: rest, ((s.takeIn f).takeAll rest).nextSequence.toNat = _
    rcases ih (s.takeIn f) with hsame | ⟨e, he, hnext⟩
    · rw [hsame, nextSequence_takeIn]
      rcases Nat.le_total (after f.sequence).toNat s.nextSequence.toNat with hle | hle
      · exact .inl (Nat.max_eq_left hle)
      · exact .inr ⟨f, List.mem_cons_self, Nat.max_eq_right hle⟩
    · exact .inr ⟨e, List.mem_cons_of_mem _ he, hnext⟩

/-- A call takes entries in, or it brings none and leaves the counter. -/
theorem call_takes (s : Store) (k : Call) :
    (∃ taken, (s.call k).2 = s.takeAll taken) ∨
      (s.call k).2.toList ⊆ s.toList ∧ (s.call k).2.nextSequence = s.nextSequence := by
  rcases call_cases s k with ⟨snapshot, -, hstore⟩ | ⟨x, id, now, c, -, -, -, hstore⟩ |
    ⟨hthins, hnext⟩
  · exact .inl ⟨_, hstore⟩
  · exact .inl ⟨[_], hstore⟩
  · exact .inr ⟨(toList_sublist hthins).subset, hnext⟩

@[simp] theorem afterCalls_concat (s : Store) (calls : List Call) (k : Call) :
    s.afterCalls (calls ++ [k]) = ((s.afterCalls calls).call k).2 := by
  simp [afterCalls]

theorem Held.concat {calls : List Call} {e : Entry} (h : s.Held calls e) (k : Call) :
    s.Held (calls ++ [k]) e := by
  obtain ⟨earlier, hprefix, he⟩ := h
  exact ⟨earlier, hprefix.trans (List.prefix_append calls [k]), he⟩

theorem held_of_mem {calls : List Call} {e : Entry} (h : e ∈ (s.afterCalls calls).toList) :
    s.Held calls e := ⟨calls, List.prefix_refl calls, h⟩

theorem not_held_nil {e : Entry} : ¬empty.Held [] e := by
  rintro ⟨earlier, hprefix, he⟩
  obtain rfl := List.prefix_nil.mp hprefix
  simp [afterCalls] at he

theorem held_concat_iff {calls : List Call} {k : Call} {e : Entry} :
    s.Held (calls ++ [k]) e ↔
      s.Held calls e ∨ e ∈ ((s.afterCalls calls).call k).2.toList := by
  constructor
  · rintro ⟨earlier, hprefix, he⟩
    rcases List.prefix_concat_iff.mp hprefix with rfl | hshort
    · rw [afterCalls_concat] at he
      exact .inr he
    · exact .inl ⟨earlier, hshort, he⟩
  · rintro (hheld | he)
    · exact hheld.concat k
    · rw [← afterCalls_concat] at he
      exact held_of_mem he

/-- The counter has passed every entry that has been there. -/
theorem after_le_of_held {calls : List Call} {e : Entry} (h : empty.Held calls e) :
    (after e.sequence).toNat ≤ (empty.afterCalls calls).nextSequence.toNat := by
  induction calls using List.reverseRecOn with
  | nil => exact absurd h not_held_nil
  | append_singleton calls k ih =>
    rw [afterCalls_concat]
    rcases call_takes (empty.afterCalls calls) k with ⟨taken, htaken⟩ | ⟨hsubset, hnext⟩
    · obtain ⟨hmono, hall⟩ := le_nextSequence_takeAll (empty.afterCalls calls) taken
      rw [held_concat_iff, htaken, mem_toList_takeAll] at h
      rw [htaken]
      rcases h with hheld | hold | hnew
      · exact Nat.le_trans (ih hheld) hmono
      · exact Nat.le_trans (ih (held_of_mem hold)) hmono
      · exact hall e hnew
    · rw [held_concat_iff] at h
      rw [hnext]
      rcases h with hheld | hmem
      · exact ih hheld
      · exact ih (held_of_mem (hsubset hmem))

/-- The counter of a store that began empty is at its start, or right after an entry that has been
there. -/
theorem nextSequence_afterCalls (calls : List Call) :
    (empty.afterCalls calls).nextSequence.toNat = 0 ∨
      ∃ e, empty.Held calls e ∧
        (empty.afterCalls calls).nextSequence.toNat = (after e.sequence).toNat := by
  induction calls using List.reverseRecOn with
  | nil => exact .inl rfl
  | append_singleton calls k ih =>
    rw [afterCalls_concat]
    have hold : ((empty.afterCalls calls).nextSequence.toNat = 0 ∨ ∃ e,
        empty.Held (calls ++ [k]) e ∧
          (empty.afterCalls calls).nextSequence.toNat = (after e.sequence).toNat) :=
      ih.imp_right fun ⟨e, hheld, hnext⟩ => ⟨e, hheld.concat k, hnext⟩
    rcases call_takes (empty.afterCalls calls) k with ⟨taken, htaken⟩ | ⟨-, hnext⟩
    · rcases nextSequence_takeAll_eq (empty.afterCalls calls) taken with hsame | ⟨e, he, hnext⟩
      · rw [htaken, hsame]
        exact hold
      · refine .inr ⟨e, held_concat_iff.mpr (.inr ?_), htaken ▸ hnext⟩
        rw [htaken, mem_toList_takeAll]
        exact .inr he
    · rw [hnext]
      exact hold

/-- The numbers are used up if and only if an entry has been there that leaves none. -/
theorem exhausted_iff (calls : List Call) :
    (empty.afterCalls calls).nextSequence.toNat + 1 = UInt64.size ↔
      ∃ e, empty.Held calls e ∧ IsLast e := by
  have hsize : (1 : Nat) < UInt64.size := by decide
  constructor
  · intro hfull
    rcases nextSequence_afterCalls calls with hzero | ⟨e, hheld, hnext⟩
    · omega
    · exact ⟨e, hheld, isLast_iff.mpr (hnext ▸ hfull)⟩
  · rintro ⟨e, hheld, hlast⟩
    have hle := after_le_of_held hheld
    have hlt := (empty.afterCalls calls).nextSequence.toNat_lt_size
    have hafter := isLast_iff.mp hlast
    omega

/-! ## Drawing an id -/

/-- What a valid export comes to under a drawn id. -/
inductive OfValid (s : Store) (x : Export) (id : EntryId) (now : Timestamp) : ExportResult → Prop
  | redraw (issued : id ∈ s.issued) : OfValid s x id now .redraw
  | exhausted (fresh : id ∉ s.issued) (full : s.nextSequence.toNat + 1 = UInt64.size) :
      OfValid s x id now (.exhausted (s.issue id))
  | stored {e : Entry} (fresh : id ∉ s.issued) (room : s.nextSequence.toNat + 1 ≠ UInt64.size)
      (new : e = s.newEntry id now x.tab x.payload.category x.payload x.metadata)
      (log : List LogLine) :
      OfValid s x id now (.stored ⟨s.takeIn e, log, some (.entryCreated e e.category), e.id⟩)

theorem ofValid_exportData {x : Export} (h : x.draws = true) (id : EntryId) (now : Timestamp) :
    s.OfValid x id now (s.exportData x id now) := by
  rcases Category.parse_cases x.category with ⟨c, hc⟩ | ⟨hnone, -⟩
  · obtain ⟨rfl, hfinite⟩ : x.payload.category = c ∧ x.payload.isFinite = true := by
      simpa [Export.draws, hc] using h
    simp only [exportData, hc, Category.parse_name, insert_eq]
    rw [if_neg (not_not.mpr rfl), if_neg (by simp [hfinite])]
    by_cases hissued : id ∈ s.issued
    · rw [if_pos hissued]
      exact .redraw hissued
    · rw [if_neg hissued]
      by_cases hfull : s.nextSequence.toNat + 1 = UInt64.size
      · rw [if_pos hfull]
        exact .exhausted hissued hfull
      · rw [if_neg hfull]
        exact .stored hissued hfull rfl _
  · simp [Export.draws, hnone] at h

/-- An export that must not draw again is over. -/
theorem exportDrawing_of_fresh {x : Export} (h : x.draws = true) {ids : Nat → EntryId}
    (now : Timestamp) {drawn : Nat} (hfresh : ids drawn ∉ s.issued) :
    s.exportDrawing x ids now 1 drawn = some (s.exportData x (ids drawn) now, drawn + 1) := by
  have hvalid := ofValid_exportData (s := s) h (ids drawn) now
  rw [exportDrawing]
  generalize s.exportData x (ids drawn) now = result at hvalid ⊢
  cases hvalid with
  | redraw hissued => exact absurd hissued hfresh
  | exhausted | stored => rfl

/-- A valid export goes on drawing until it has an id that has not been issued. -/
theorem exists_exportDrawing_eq {x : Export} (h : x.draws = true) {ids : Nat → EntryId}
    (now : Timestamp) {drawn : Nat} (hfresh : ∃ n, drawn ≤ n ∧ ids n ∉ s.issued) :
    ∃ patience n, ids n ∉ s.issued ∧ s.exportDrawing x ids now patience drawn =
      some (s.exportData x (ids n) now, n + 1) := by
  obtain ⟨n, hn, hnew⟩ := hfresh
  obtain ⟨later, rfl⟩ := Nat.exists_eq_add_of_le hn
  induction later generalizing drawn with
  | zero => exact ⟨1, drawn, hnew, exportDrawing_of_fresh h now hnew⟩
  | succ later ih =>
    by_cases hissued : ids drawn ∈ s.issued
    · rw [← Nat.add_assoc, Nat.add_right_comm] at hnew
      obtain ⟨patience, n, hn, hdrawing⟩ := ih (Nat.le_add_right _ _) hnew
      refine ⟨patience + 1, n, hn, ?_⟩
      have hvalid := ofValid_exportData (s := s) h (ids drawn) now
      rw [exportDrawing]
      generalize s.exportData x (ids drawn) now = result at hvalid ⊢
      cases hvalid with
      | redraw => exact hdrawing
      | exhausted hfresh => exact absurd hissued hfresh
      | stored hfresh => exact absurd hissued hfresh
    · exact ⟨1, drawn, hissued, exportDrawing_of_fresh h now hissued⟩

end Store

/-! ## Exporting -/

/-- A reply to an export at a time: an entry has been made of it under a new id, it stands last in
its category, and the id is the answer. -/
def Reply.Stores {σ : Type} (hub : Nat) (h : Hub σ) (x : Store.Export) (now : Timestamp)
    (reply : Reply σ (Option (Except HubError EntryId))) : Prop :=
  ∃ e w', reply = .raises hub (.entryCreated e e.category) (fun _ => some (.ok e.id)) w' ∧
    e = h.store.newEntry e.id now x.tab x.payload.category x.payload x.metadata ∧
    e.id ∉ h.store.issued ∧
    ∃ s, w'.store? hub = some s ∧ s.entries e.category = h.store.entries e.category ++ [e]

namespace World

variable {σ : Type} {w : World σ} {hub : Nat} {h : Hub σ} {supply : Supply} {x : Store.Export}

/-- With patience a valid export is stored, or it finds that the numbers are used up. -/
theorem exists_reply_export (hhub : w.hub? hub = some h) (hx : x.draws = true)
    (hfresh : ∃ n, w.drawnIds ≤ n ∧ supply.id n ∉ h.store.issued) :
    ∃ patience,
      h.store.nextSequence.toNat + 1 ≠ UInt64.size ∧
          (w.reply supply patience (.exportData hub x)).Stores hub h x (supply.time w.drawnTimes) ∨
        h.store.nextSequence.toNat + 1 = UInt64.size ∧ ∃ w',
          w.reply supply patience (.exportData hub x) = .panics Store.overflowMessage w' := by
  obtain ⟨patience, n, hn, hdrawing⟩ :=
    Store.exists_exportDrawing_eq hx (supply.time w.drawnTimes) hfresh
  have hvalid := Store.ofValid_exportData (s := h.store) hx (supply.id n) (supply.time w.drawnTimes)
  have hreply : w.reply supply patience (.exportData hub x) =
      w.exportReply supply patience hub h x := withHub_of_hub? hhub _
  refine ⟨patience, ?_⟩
  rw [hreply, exportReply, hdrawing]
  generalize h.store.exportData x (supply.id n) (supply.time w.drawnTimes) = result at hvalid ⊢
  cases hvalid with
  | redraw issued => exact absurd issued hn
  | exhausted fresh full => exact .inr ⟨full, _, rfl⟩
  | @stored e fresh room new log =>
    have hid : e.id = supply.id n := by rw [new]; rfl
    refine .inl ⟨room, e, _, rfl, by rw [hid]; exact new, hid ▸ fresh, h.store.takeIn e, ?_, ?_⟩
    · exact store?_eq_some.mpr ⟨_, hub?_setStore hhub _, rfl⟩
    · rw [Store.entries_takeIn, if_pos rfl]

/-- Two replies to one request, each with its patience, are the same. -/
theorem reply_unique {r : Request} {n m : Nat} {a b : Reply σ r.Answer}
    (ha : w.reply supply n r = a) (hb : w.reply supply m r = b) (hna : a ≠ .waiting)
    (hnb : b ≠ .waiting) : a = b :=
  (reply_mono (Nat.le_max_left n m) ha hna).symm.trans (reply_mono (Nat.le_max_right n m) hb hnb)

/-- In a hub that has come from a new one by any calls, restorations of any snapshots among them, a
valid export is stored under a new id exactly if no entry has been there that leaves no number;
otherwise it panics. -/
theorem export_stored_iff (hhub : w.hub? hub = some h) {calls : List Call}
    (hcalls : h.store = Store.empty.afterCalls calls) (hx : x.draws = true)
    (hfresh : ∃ n, w.drawnIds ≤ n ∧ supply.id n ∉ h.store.issued) :
    ((∃ patience, (w.reply supply patience (.exportData hub x)).Stores hub h x
        (supply.time w.drawnTimes)) ↔
      ∀ e, Store.empty.Held calls e → ¬Store.IsLast e) ∧
    ((∃ patience w', w.reply supply patience (.exportData hub x) =
        .panics Store.overflowMessage w') ↔
      ∃ e, Store.empty.Held calls e ∧ Store.IsLast e) := by
  have hfull := Store.exhausted_iff calls
  rw [← hcalls] at hfull
  obtain ⟨patience, ⟨hroom, hstores⟩ | ⟨hnone, w', hpanics⟩⟩ :=
    exists_reply_export hhub hx hfresh
  · have hnot := mt hfull.mpr hroom
    refine ⟨iff_of_true ⟨patience, hstores⟩ fun e he hlast => hnot ⟨e, he, hlast⟩, ?_⟩
    refine iff_of_false ?_ hnot
    rintro ⟨patience', w', hpanics⟩
    obtain ⟨e, w'', hraises, -⟩ := hstores
    have heq := reply_unique hraises hpanics nofun nofun
    contradiction
  · obtain ⟨e, he, hlast⟩ := hfull.mp hnone
    refine ⟨iff_of_false ?_ fun hall => hall e he hlast, iff_of_true ⟨_, _, hpanics⟩ ⟨e, he, hlast⟩⟩
    rintro ⟨patience', e', w'', hraises, -⟩
    have heq := reply_unique hraises hpanics nofun nofun
    contradiction

/-- An entry from elsewhere with a number of its own. -/
def numberedEntry (sequence : UInt64) : Entry :=
  ⟨⟨"b"⟩, .functions, "plot", .function "x^2", ⟨"Square", "", .noon, .empty⟩, sequence⟩

/-- A call that restores an entry with a number. -/
def restoreNumbered (sequence : UInt64) : Call :=
  .request (.restore ⟨1, .noon, [numberedEntry sequence]⟩)

/-- A new hub into which an entry with a number has been restored. -/
def hubWithNumber (sequence : UInt64) : Hub Unit :=
  { Hub.new with store := Store.empty.afterCalls [restoreNumbered sequence] }

/-- A world with that hub alone. -/
def worldWithNumber (sequence : UInt64) : World Unit :=
  { World.new 0 ⟨[], .empty⟩ () with hubs := [hubWithNumber sequence] }

/-- A valid export. -/
def squareExport : Store.Export := ⟨"plot", "functions", .function "x^2", none⟩

theorem held_restoreNumbered {sequence : UInt64} {e : Entry}
    (h : Store.empty.Held [restoreNumbered sequence] e) : e = numberedEntry sequence := by
  obtain ⟨earlier, hprefix, he⟩ := h
  rcases List.prefix_cons_iff.mp hprefix with rfl | ⟨rest, rfl, hrest⟩
  · exact absurd he List.not_mem_nil
  · obtain rfl := List.prefix_nil.mp hrest
    exact List.mem_singleton.mp he

/-- After the greatest number that leaves another one, a valid export is still stored. -/
theorem export_stored_iff_lastButTwo :
    ∃ patience, ((worldWithNumber 18446744073709551613).reply standingSupply patience
      (.exportData 0 squareExport)).Stores 0 (hubWithNumber 18446744073709551613) squareExport
      .noon := by
  have hhub : (worldWithNumber 18446744073709551613).hub? 0 =
      some (hubWithNumber 18446744073709551613) := rfl
  have hcalls : (hubWithNumber 18446744073709551613).store =
      Store.empty.afterCalls [restoreNumbered 18446744073709551613] := rfl
  have hvalid : squareExport.draws = true := rfl
  have hfresh : ∃ n, (worldWithNumber 18446744073709551613).drawnIds ≤ n ∧
      standingSupply.id n ∉ (hubWithNumber 18446744073709551613).store.issued := ⟨0, by decide⟩
  have hstored := (export_stored_iff hhub hcalls hvalid hfresh).1
  refine hstored.mpr fun e he hlast => ?_
  rw [held_restoreNumbered he] at hlast
  exact absurd hlast (by decide)

/-- The very first export of a hub panics when an entry with the greatest number of all has been
restored, although it is valid and its id is new. -/
theorem export_panics_lastNumber :
    (hubWithNumber 18446744073709551615).store =
        Store.empty.afterCalls [restoreNumbered 18446744073709551615] ∧
      squareExport.draws = true ∧
      standingSupply.id 0 ∉ (hubWithNumber 18446744073709551615).store.issued ∧
      ∃ w', (worldWithNumber 18446744073709551615).reply standingSupply 1
        (.exportData 0 squareExport) = .panics Store.overflowMessage w' :=
  ⟨rfl, rfl, by decide, _, rfl⟩

end World
end LabExchange
