import LabExchange.Proofs.Hub.Carrying
import LabExchange.Proofs.Hub.Narrowing
import LabExchange.Proofs.Hub.Newest

/-!
# The latest entry and the newest

A category gives what came to it last, a listing what is the newest. While the clock does not go
back an export is both, so the two can differ only where a restoration has put an entry behind
others that are not older.
-/
namespace LabExchange

/-! ## Listings in reverse -/

theorem not_sublist_swap {α : Type} {l : List α} {a b : α} (hl : l.Nodup) (h : [a, b].Sublist l) :
    ¬[b, a].Sublist l := by
  induction l with
  | nil => cases h
  | cons x l ih =>
    obtain ⟨hx, hl⟩ := List.nodup_cons.mp hl
    intro h'
    cases h with
    | cons _ hrest =>
      cases h' with
      | cons _ hrest' => exact ih hl hrest hrest'
      | cons_cons _ hrest' => exact hx (hrest.subset (by simp))
    | cons_cons _ hrest =>
      cases h' with
      | cons _ hrest' => exact hx (hrest'.subset (by simp))
      | cons_cons _ hrest' => exact hx (hrest.subset (by simp))

/-- The newest of a list is what stands last in it exactly if nothing else may stand ahead. -/
theorem head?_newestFirst_iff {l : List Entry} {e : Entry} (hl : l.Nodup)
    (hlast : l.getLast? = some e) :
    (newestFirst l).head? = some e ↔ ∀ a, [a, e].Sublist l → ¬IsAhead a.rank e.rank := by
  have hperm := newestFirst_perm l
  obtain ⟨front, rfl⟩ := List.getLast?_eq_some_iff.mp hlast
  constructor
  · intro hhead a hpair
    obtain ⟨rest, hlist⟩ := List.head?_eq_some_iff.mp hhead
    have hstands := pairwise_newestFirst_stable (front ++ [e])
    rw [hlist] at hstands hperm
    have hne : a ≠ e := by
      rintro rfl
      exact not_sublist_swap hl hpair hpair
    have ha : a ∈ rest :=
      List.mem_of_ne_of_mem hne (hperm.mem_iff.mpr (hpair.subset List.mem_cons_self))
    rcases (List.pairwise_cons.mp hstands).1 a ha with hnot | ⟨-, hback⟩
    · exact hnot
    · exact absurd hback (not_sublist_swap hl hpair)
  · intro h
    refine head?_newestFirst (List.mem_append_right front (List.mem_singleton_self e)) ?_
    intro f hf hahead
    rcases List.mem_append.mp hf with hfront | hself
    · exact absurd hahead (h f ((List.singleton_sublist.mpr hfront).append (List.Sublist.refl [e])))
    · exact List.mem_singleton.mp hself

/-- A listing is a list in reverse exactly if nothing in the list may stand ahead of what comes
after it. -/
theorem newestFirst_eq_reverse_iff {l : List Entry} (hl : l.Nodup) :
    newestFirst l = l.reverse ↔ ∀ a b, [a, b].Sublist l → ¬IsAhead a.rank b.rank := by
  constructor
  · intro heq a b hpair
    have hstands := pairwise_newestFirst_stable l
    rw [heq, List.pairwise_reverse, List.pairwise_iff_forall_sublist] at hstands
    rcases hstands hpair with hnot | ⟨-, hback⟩
    · exact hnot
    · exact absurd hback (not_sublist_swap hl hpair)
  · intro h
    have hstrict : l.Pairwise fun a b => ¬IsAhead a.rank b.rank :=
      List.pairwise_iff_forall_sublist.mpr (h _ _)
    have hranks : (l.map Entry.rank).Nodup := by
      refine List.pairwise_map.mpr (hstrict.imp fun hnot heq => hnot ?_)
      rw [heq]
      exact (isAhead_total _ _).elim id id
    -- Sorted permutations agree only up to ties, but here there are none.
    have hsorted : l.reverse.Pairwise fun a b => a.isNewer b = true :=
      List.pairwise_reverse.mpr (hstrict.imp fun hnot =>
        Entry.isNewer_iff.mpr ((isAhead_total _ _).resolve_left hnot))
    have hperm : (newestFirst l).Perm l.reverse := (newestFirst_perm l).trans l.reverse_perm.symm
    refine hperm.eq_of_pairwise (fun a b ha hb hab hba => ?_)
      (List.pairwise_mergeSort Entry.isNewer_trans Entry.isNewer_total l) hsorted
    exact List.inj_on_of_nodup_map hranks (mem_newestFirst.mp ha) (List.mem_reverse.mp hb)
      (isAhead_antisymm (Entry.isNewer_iff.mp hab) (Entry.isNewer_iff.mp hba))

/-! ## The clock -/

/-- The times that come to a hub with a call. -/
def Call.times : Call → List Timestamp
  | exportData _ _ now => [now]
  | request (.restore snapshot) => snapshot.entries.map (·.metadata.timestamp)
  | request _ => []

/-- No export is earlier than what came before it: the clock does not go back, and nothing is
restored from the future. -/
def ClockRuns (calls : List Call) : Prop :=
  calls.Pairwise fun k k' => ∀ x id now, k' = .exportData x id now → ∀ t ∈ k.times, t.key ≤ now.key

namespace Store

variable {s : Store} {calls : List Call} {c : Category} {a b e : Entry}

/-- The time of an entry came with one of the calls. -/
theorem exists_mem_times (h : e ∈ (empty.afterCalls calls).toList) :
    ∃ k ∈ calls, e.metadata.timestamp ∈ k.times := by
  induction calls using List.reverseRecOn with
  | nil =>
    rw [afterCalls, List.foldl_nil, toList_empty] at h
    exact absurd h List.not_mem_nil
  | append_singleton calls k ih =>
    have hold : e ∈ (empty.afterCalls calls).toList →
        ∃ k' ∈ calls ++ [k], e.metadata.timestamp ∈ k'.times := by
      intro hmem
      obtain ⟨k', hk', htime⟩ := ih hmem
      exact ⟨k', List.mem_append_left _ hk', htime⟩
    have hk : k ∈ calls ++ [k] := List.mem_append_right _ (List.mem_singleton_self k)
    rw [afterCalls_concat] at h
    rcases call_cases (empty.afterCalls calls) k with ⟨snapshot, rfl, hstore⟩ |
      ⟨x, id, now, d, rfl, -, -, hstore⟩ | ⟨hthins, -⟩
    · rw [hstore, mem_toList_takeAll] at h
      rcases h with hmem | hwelcome
      · exact hold hmem
      · exact ⟨_, hk, List.mem_map_of_mem (of_mem_welcome hwelcome).1⟩
    · rw [hstore, mem_toList_takeIn] at h
      rcases h with rfl | hmem
      · exact ⟨_, hk, List.mem_singleton_self _⟩
      · exact hold hmem
    · exact hold ((toList_sublist hthins).subset h)

/-- An export does not stand behind what is not later and has a lower number. -/
theorem not_isAhead_newEntry {now : Timestamp} (htime : a.metadata.timestamp.key ≤ now.key)
    (hnumber : a.sequence < s.nextSequence) (id : EntryId) (tab : String) (c : Category)
    (p : Payload) (m : Option ExportMetadata) :
    ¬IsAhead a.rank (s.newEntry id now tab c p m).rank := by
  rintro (hlater | ⟨-, hle⟩)
  · exact absurd htime (Int.not_le.mpr hlater)
  · exact absurd hnumber (UInt64.not_lt.mpr hle)

/-- What has not been brought by a restoration is newer than all that stands before it. -/
theorem not_isAhead_of_exported (hclock : ClockRuns calls)
    (hpair : [a, b].Sublist ((empty.afterCalls calls).entries c))
    (hb : ¬empty.Brought calls b) : ¬IsAhead a.rank b.rank := by
  induction calls using List.reverseRecOn with
  | nil =>
    rw [afterCalls, List.foldl_nil, entries_empty] at hpair
    cases hpair
  | append_singleton calls k ih =>
    obtain ⟨hearlier, -, hnow⟩ := List.pairwise_append.mp hclock
    have hold : [a, b].Sublist ((empty.afterCalls calls).entries c) → ¬IsAhead a.rank b.rank :=
      fun h => ih hearlier h fun hbrought => hb (hbrought.concat k)
    rw [afterCalls_concat] at hpair
    -- Either the two stood there before the last call, or the second one has come with it.
    rcases call_cases (empty.afterCalls calls) k with ⟨snapshot, rfl, hstore⟩ |
      ⟨x, id, now, d, rfl, -, hroom, hstore⟩ | ⟨hthins, -⟩
    · rw [hstore, entries_takeAll] at hpair
      have hnew : ∀ f, f ∈ ((empty.afterCalls calls).welcome snapshot.entries).filter
          (·.category = c) → empty.Brought (calls ++ [.request (.restore snapshot)]) f :=
        fun f hf => ⟨calls, snapshot, List.prefix_refl _, (List.mem_filter.mp hf).1⟩
      rcases pair_sublist_append hpair with hboth | hboth | ⟨-, hmem⟩
      · exact hold hboth
      · exact absurd (hnew b (hboth.subset (List.mem_cons_of_mem a (List.mem_singleton_self b)))) hb
      · exact absurd (hnew b hmem) hb
    · rw [hstore, entries_takeIn] at hpair
      split at hpair
      · rcases pair_sublist_append hpair with hboth | hboth | ⟨ha, hmem⟩
        · exact hold hboth
        · exact absurd hboth.length_le (by simp)
        · have hstored := mem_toList.mpr ⟨c, ha⟩
          obtain ⟨k, hk, htime⟩ := exists_mem_times hstored
          have hlate := hnow k hk _ List.mem_cons_self x id now rfl _ htime
          rw [List.mem_singleton.mp hmem]
          exact not_isAhead_newEntry hlate (sequence_lt_of_room hroom hstored) _ _ _ _ _
      · exact hold hpair
    · exact hold (hpair.trans (hthins c))

/-- A restoration has put an entry behind another one of its category that may stand ahead of it in
a listing. -/
structure PutBehind (calls : List Call) (c : Category) (a b : Entry) : Prop where
  behind : [a, b].Sublist ((empty.afterCalls calls).entries c)
  ahead : IsAhead a.rank b.rank
  brought : empty.Brought calls b

theorem putBehind_iff (hclock : ClockRuns calls) : PutBehind calls c a b ↔
    [a, b].Sublist ((empty.afterCalls calls).entries c) ∧ IsAhead a.rank b.rank := by
  refine ⟨fun h => ⟨h.behind, h.ahead⟩, fun ⟨hpair, hahead⟩ => ⟨hpair, hahead, ?_⟩⟩
  by_contra hb
  exact not_isAhead_of_exported hclock hpair hb hahead

/-! ## Latest and newest -/

theorem IsSound.query_ofCategory (hs : s.IsSound) (c : Category) :
    s.query (.ofCategory c) = (newestFirst (s.entries c)).map .ofEntry := by
  have haccepts : (EntryFilter.ofCategory c).accepts = fun e => decide (e.category = c) := by
    funext e
    rw [Bool.eq_iff_iff, decide_eq_true_iff]
    exact EntryFilter.accepts_filter_iff (e := e) (c := .category c)
  rw [query, haccepts, hs.filter_toList]

/-- Entries of a sound store can be told by their rows. -/
theorem IsSound.map_ofEntry_inj (hs : s.IsSound) {l l' : List Entry} (hl : l ⊆ s.toList)
    (hl' : l' ⊆ s.toList) :
    l.map EntrySummary.ofEntry = l'.map EntrySummary.ofEntry ↔ l = l' := by
  refine ⟨fun h => ?_, congrArg _⟩
  induction l generalizing l' with
  | nil => exact (List.map_eq_nil_iff.mp h.symm).symm
  | cons e rest ih =>
    obtain ⟨f, rest', rfl, hrow, hrest⟩ := List.map_eq_cons_iff.mp h.symm
    obtain ⟨he, hl⟩ := List.cons_subset.mp hl
    obtain ⟨hf, hl'⟩ := List.cons_subset.mp hl'
    rw [hs.eq_of_id_eq he hf (congrArg EntrySummary.id hrow.symm), ih hl hl' hrest.symm]

theorem IsSound.head?_map_ofEntry (hs : s.IsSound) {l : List Entry} (hl : l ⊆ s.toList)
    (he : e ∈ s.toList) :
    (l.map EntrySummary.ofEntry).head? = some (.ofEntry e) ↔ l.head? = some e := by
  rw [List.head?_map]
  refine ⟨fun h => ?_, congrArg _⟩
  obtain ⟨f, hf, hrow⟩ := Option.map_eq_some_iff.mp h
  rw [hf, hs.eq_of_id_eq (hl (List.mem_of_head? hf)) he (congrArg EntrySummary.id hrow)]

theorem answer_getLatest (s : Store) (c : Category) :
    (s.answer (.getLatest c.name)).answer = .ok (s.latest? c) := by
  rw [answer, inCategory_name]
  rfl

theorem answer_list (s : Store) (c : Category) :
    (s.answer (.list c.name)).answer = .ok (s.list c) := by
  rw [answer, inCategory_name]
  rfl

end Store

/-- While the clock runs, the last entry of a category is the first in the query for it unless a
restoration has put it behind one that may stand ahead, and the category is listed the other way
round exactly if this has happened to none of its entries. -/
theorem latest_iff_newest {calls : List Call} (hclock : ClockRuns calls) {s : Store}
    (hs : s = Store.empty.afterCalls calls) (c : Category) :
    ((s.answer (.getLatest c.name)).answer = .ok none ↔ s.entries c = []) ∧
    (∀ e, (s.answer (.getLatest c.name)).answer = .ok (some e) →
      ((s.query (.ofCategory c)).head? = some (.ofEntry e) ↔ ∀ a, ¬Store.PutBehind calls c a e)) ∧
    ((s.answer (.list c.name)).answer = .ok (s.query (.ofCategory c)).reverse ↔
      ∀ a b, ¬Store.PutBehind calls c a b) := by
  have hsound : s.IsSound := hs ▸ Store.isSound_afterCalls calls
  have hnodup : (s.entries c).Nodup := List.Nodup.of_map _ (hsound.entries_nodup c)
  have hstored : s.entries c ⊆ s.toList := fun e he => Store.mem_toList.mpr ⟨c, he⟩
  have hlisted : newestFirst (s.entries c) ⊆ s.toList :=
    fun e he => hstored (mem_newestFirst.mp he)
  have hbehind : ∀ a b, ¬Store.PutBehind calls c a b ↔
      ([a, b].Sublist (s.entries c) → ¬IsAhead a.rank b.rank) := by
    intro a b
    rw [Store.putBehind_iff hclock, ← hs, not_and]
  rw [hsound.query_ofCategory, s.answer_getLatest, s.answer_list]
  refine ⟨?_, fun e hlatest => ?_, ?_⟩
  · exact ⟨fun h => List.getLast?_eq_none_iff.mp (Except.ok.inj h),
      fun h => congrArg _ (List.getLast?_eq_none_iff.mpr h)⟩
  · have hlast : (s.entries c).getLast? = some e := Except.ok.inj hlatest
    rw [hsound.head?_map_ofEntry hlisted (hstored (List.mem_of_getLast? hlast)),
      head?_newestFirst_iff hnodup hlast]
    exact forall_congr' fun a => (hbehind a e).symm
  · have hrows : s.list c = ((newestFirst (s.entries c)).map EntrySummary.ofEntry).reverse ↔
        newestFirst (s.entries c) = (s.entries c).reverse := by
      rw [Store.list, ← List.map_reverse, hsound.map_ofEntry_inj hstored fun e he =>
        hlisted (List.mem_reverse.mp he), ← List.reverse_eq_iff, eq_comm]
    have hforall := forall₂_congr fun a b => (hbehind a b).symm
    rw [← hforall, ← newestFirst_eq_reverse_iff hnodup, ← hrows]
    exact ⟨Except.ok.inj, congrArg _⟩

/-- An hour after noon. -/
def Timestamp.afternoon : Timestamp := ⟨noon.date, 13, 0, 0, 0, by decide⟩

def exportAfternoon : Call := .exportData World.squareExport ⟨"a"⟩ .afternoon

/-- What is stored by this export. -/
def afternoonEntry (sequence : UInt64) : Entry :=
  ⟨⟨"a"⟩, .functions, "plot", .function "x^2",
    ⟨"functions_a", "Exported from plot", .afternoon, .empty⟩, sequence⟩

/-- After an entry of noon has been restored, an export in the afternoon is both. -/
theorem latest_iff_newest_restoredFirst :
    ClockRuns [World.restoreNumbered 0, exportAfternoon] ∧
      ((Store.empty.afterCalls [World.restoreNumbered 0, exportAfternoon]).answer
        (.getLatest "functions")).answer = .ok (some (afternoonEntry 1)) ∧
      ((Store.empty.afterCalls [World.restoreNumbered 0, exportAfternoon]).query
        (.ofCategory .functions)).head? = some (.ofEntry (afternoonEntry 1)) ∧
      ((Store.empty.afterCalls [World.restoreNumbered 0, exportAfternoon]).answer
        (.list "functions")).answer =
          .ok ((Store.empty.afterCalls [World.restoreNumbered 0, exportAfternoon]).query
            (.ofCategory .functions)).reverse := by
  have hclock : ClockRuns [World.restoreNumbered 0, exportAfternoon] := by
    refine List.pairwise_pair.mpr fun x id now hexport t ht => ?_
    obtain ⟨-, -, rfl⟩ := Call.exportData.inj hexport
    obtain rfl : t = .noon := List.mem_singleton.mp ht
    decide
  have hentries : (Store.empty.afterCalls [World.restoreNumbered 0, exportAfternoon]).entries
      .functions = [World.numberedEntry 0, afternoonEntry 1] := rfl
  have hbehind : ∀ a b,
      ¬Store.PutBehind [World.restoreNumbered 0, exportAfternoon] .functions a b := by
    rintro a b ⟨hpair, hahead, -⟩
    rw [hentries] at hpair
    obtain ⟨rfl, rfl⟩ : a = World.numberedEntry 0 ∧ b = afternoonEntry 1 := by
      simpa using hpair.eq_of_length rfl
    revert hahead
    decide
  obtain ⟨-, hlatest, hlist⟩ := latest_iff_newest hclock rfl .functions
  exact ⟨hclock, rfl, (hlatest (afternoonEntry 1) rfl).mpr fun a => hbehind a _, hlist.mpr hbehind⟩

/-- The other way round, what is restored counts as the latest, though it is an hour older than what
was exported. -/
theorem latest_not_newest_restoredLast :
    ClockRuns [exportAfternoon, World.restoreNumbered 0] ∧
      ((Store.empty.afterCalls [exportAfternoon, World.restoreNumbered 0]).answer
        (.getLatest "functions")).answer = .ok (some (World.numberedEntry 0)) ∧
      ((Store.empty.afterCalls [exportAfternoon, World.restoreNumbered 0]).query
        (.ofCategory .functions)).head? = some (.ofEntry (afternoonEntry 0)) ∧
      ((Store.empty.afterCalls [exportAfternoon, World.restoreNumbered 0]).answer
        (.list "functions")).answer ≠
          .ok ((Store.empty.afterCalls [exportAfternoon, World.restoreNumbered 0]).query
            (.ofCategory .functions)).reverse ∧
      (afternoonEntry 0).rank ≠ (World.numberedEntry 0).rank := by
  have hentries : (Store.empty.afterCalls [exportAfternoon, World.restoreNumbered 0]).toList.filter
      (EntryFilter.ofCategory .functions).accepts = [afternoonEntry 0, World.numberedEntry 0] := rfl
  have hlisting : newestFirst [afternoonEntry 0, World.numberedEntry 0] =
      [afternoonEntry 0, World.numberedEntry 0] :=
    List.mergeSort_of_pairwise (List.pairwise_pair.mpr (by decide))
  have hquery : (Store.empty.afterCalls [exportAfternoon, World.restoreNumbered 0]).query
      (.ofCategory .functions) =
        [.ofEntry (afternoonEntry 0), .ofEntry (World.numberedEntry 0)] := by
    rw [Store.query, hentries, hlisting]
    rfl
  have hclock : ClockRuns [exportAfternoon, World.restoreNumbered 0] :=
    List.pairwise_pair.mpr fun x id now hexport => by simp [World.restoreNumbered] at hexport
  refine ⟨hclock, rfl, by rw [hquery]; rfl, ?_, by decide⟩
  rw [hquery]
  intro hlist
  exact absurd (Except.ok.inj hlist) (by decide)

end LabExchange
