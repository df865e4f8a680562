import LabExchange.Proofs.Hub.History
import LabExchange.Proofs.Hub.Restoring

/-!
# Snapshots as copies

A snapshot of a hub is a complete copy of it. Restored into a new hub it gives every category its
list again, so that no request which only reads can tell the two hubs apart; restored where its
entries already are, it changes nothing. All of this holds for hubs that took in foreign entries as
well, since a store that began empty is sound whatever was restored into it.
-/
namespace LabExchange

namespace Store

variable {s t : Store}

/-- The answer to a request that only reads depends on the lists alone. -/
theorem answer_eq_of_lists_eq (h : t.lists = s.lists) {q : StoreRequest} (hq : q.reads = true) :
    (t.answer q).answer = (s.answer q).answer := by
  have hentries : t.entries = s.entries := by
    funext c
    rw [entries, h, entries]
  have htoList : t.toList = s.toList := by rw [toList, h, toList]
  have hfind : t.find? = s.find? := by
    funext c id
    rw [find?, hentries, find?]
  cases q with
  | importData name id => exact answer_inCategory name fun c => by simp only [importData, hfind]
  | importAll name => exact answer_inCategory name fun c => by simp only [reply, hentries]
  | getEntry name id => exact answer_inCategory name fun c => by simp only [reply, hfind]
  | getLatest name => exact answer_inCategory name fun c => by simp only [reply, latest?, hentries]
  | list name => exact answer_inCategory name fun c => by simp only [reply, list, hentries]
  | listAll =>
    have hlistAll : t.listAll = s.listAll := by rw [Store.listAll, htoList, Store.listAll]
    exact hlistAll
  | query filter =>
    have hquery : t.query filter = s.query filter := by rw [Store.query, htoList, Store.query]
    exact hquery
  | counts =>
    have hcounts : CategoryCounts.ofStore t = .ofStore s := by
      simp only [CategoryCounts.ofStore, count, total, hentries, htoList]
    exact hcounts
  | requestUse name id target =>
    refine answer_inCategory name fun c => answer_inCategory target fun d => ?_
    rw [requestUse_answer, requestUse_answer, hfind]
  | remove | clear | clearAll | restore => contradiction

end Store

namespace Snapshot

/-- A new hub into which the snapshot has been restored. -/
def copy (snapshot : Snapshot) : Store := (Store.empty.answer (.restore snapshot)).store

/-- A restoration into a store finds every entry there. -/
structure AddsNothingTo (snapshot : Snapshot) (s : Store) : Prop where
  answer : (s.answer (.restore snapshot)).answer = (0 : Nat)
  store : (s.answer (.restore snapshot)).store = s

/-- A snapshot holds all of a store. -/
structure IsCopyOf (snapshot : Snapshot) (s : Store) : Prop where
  /-- A new hub takes all entries in, and no line is about one that it does not. -/
  complete : Store.empty.answer (.restore snapshot) =
    ⟨snapshot.copy, [.report .info .hub s!"Restored {s.total} of {s.total} snapshot entries"],
      none, (CategoryCounts.ofStore s).total⟩
  /-- It has the same entries in the same order. -/
  entries : ∀ c, snapshot.copy.entries c = s.entries c
  /-- Whatever is read there is what is read from the store. -/
  answers : ∀ q : StoreRequest, q.reads = true →
    (snapshot.copy.answer q).answer = (s.answer q).answer
  again : snapshot.AddsNothingTo s
  againCopy : snapshot.AddsNothingTo snapshot.copy

/-- Where all ids have been issued, nothing is taken in. -/
theorem addsNothingTo_of_issued {snapshot : Snapshot} {s : Store}
    (h : ∀ e ∈ snapshot.entries, e.id ∈ s.issued) : snapshot.AddsNothingTo s := by
  obtain ⟨hstore, hcount⟩ := s.restoreEntries_eq_welcome snapshot.entries
  rw [Store.welcome_eq_nil h] at hstore hcount
  exact ⟨hcount, hstore⟩

/-- A snapshot of the entries of a sound store is a copy of it. -/
theorem isCopyOf_ofEntries {s : Store} (hs : s.IsSound) (now : Timestamp) :
    (ofEntries s.toList now).IsCopyOf s := by
  have hrestored : Store.empty.restoreEntries s.toList =
      (Store.empty.takeAll s.toList, s.total, []) :=
    Store.restoreEntries_eq_takeAll hs.fits hs.ids_nodup fun e _ => List.not_mem_nil
  have hentries : ∀ c, (ofEntries s.toList now).copy.entries c = s.entries c :=
    hs.entries_restart now
  refine ⟨?_, hentries, fun q hq => ?_, addsNothingTo_of_issued hs.issued,
    addsNothingTo_of_issued fun e he => ?_⟩
  · simp only [copy, Store.answer, Store.restore, ofEntries, hrestored]
    rfl
  · exact Store.answer_eq_of_lists_eq (PerCategory.ext_get hentries) hq
  · have hcopy : (ofEntries s.toList now).copy = Store.empty.takeAll s.toList := hs.restart_eq now
    rw [hcopy, Store.mem_issued_takeAll]
    exact .inr (List.mem_map_of_mem he)

end Snapshot

namespace World

variable {σ : Type}

/-- A snapshot of a hub is a copy of it, whatever the hub has been through since it was new. -/
theorem isCopyOf_takeSnapshot (supply : Supply) (w : World σ) {h : Hub σ} {calls : List Call}
    (hcalls : h.store = Store.empty.afterCalls calls) :
    (w.takeSnapshot supply h).1.IsCopyOf h.store := by
  have hsound : h.store.IsSound := by
    rw [hcalls]
    exact Store.IsSound.empty.steps (Store.steps_afterCalls .empty calls)
  exact Snapshot.isCopyOf_ofEntries hsound (supply.time w.drawnTimes)

/-- A hub that has been fed with a snapshot of which it refuses one entry for its id and one for
its payload, then with exports, and of whose entries one has been removed. -/
def fedHub : Hub Unit :=
  let foreign (id : String) (c : Category) (sequence : UInt64) : Entry :=
    ⟨⟨id⟩, c, "plot", .function "x^2", ⟨"Square", "", .noon, .empty⟩, sequence⟩
  let snapshot : Snapshot := ⟨1, .noon, [foreign "b" .functions 7, foreign "b" .functions 8,
    foreign "c" .vectors 9, foreign "d" .functions 18446744073709551613]⟩
  let x : Store.Export := ⟨"plot", "functions", .function "x^3", none⟩
  { Hub.new with store := Store.empty.afterCalls [.exportData x ⟨"a"⟩ .noon,
    .request (.restore snapshot), .request (.remove "functions" ⟨"a"⟩),
    .exportData x ⟨"e"⟩ .noon] }

theorem isCopyOf_takeSnapshot_fedHub :
    (fedHub.store.entries .functions).map (·.id.text) = ["b", "d", "e"] ∧
      (World.takeSnapshot standingSupply { World.new 0 ⟨[], .empty⟩ () with hubs := [fedHub] }
        fedHub).1.IsCopyOf fedHub.store :=
  ⟨by decide, isCopyOf_takeSnapshot standingSupply _ rfl⟩

end World
end LabExchange
