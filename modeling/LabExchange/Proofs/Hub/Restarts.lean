import LabExchange.Proofs.Hub.Restoring

/-!
# Restarts

A hub that is restarted from snapshots of itself answers as one that lives on, but for the
sequence numbers that its entries show. The restarted hub may give numbers again that removed
entries have had; what carries the proof is that its entries are those of the other hub numbered
anew, in the same order of numbers.
-/
namespace LabExchange

namespace Entry

/-- The entry with its number changed. -/
def renumber (r : UInt64 → UInt64) (e : Entry) : Entry := { e with sequence := r e.sequence }

/-- The entry without its number. -/
def unnumbered (e : Entry) : Entry := e.renumber fun _ => 0

end Entry

/-- An answer without the numbers of the entries in it. -/
def StoreRequest.unnumbered : (q : StoreRequest) → q.Answer → q.Answer
  | getEntry .., answer => answer.map (Option.map Entry.unnumbered)
  | getLatest _, answer => answer.map (Option.map Entry.unnumbered)
  | importData .., answer => answer
  | importAll _, answer => answer
  | remove .., answer => answer
  | clear _, answer => answer
  | clearAll, answer => answer
  | list _, answer => answer
  | listAll, answer => answer
  | counts, answer => answer
  | query _, answer => answer
  | requestUse .., answer => answer
  | restore _, answer => answer

/-- A call with the answer to it. -/
structure Exchange where
  call : Call
  answer : call.Answer

namespace Exchange

def unnumbered : Exchange → Exchange
  | ⟨.request q, answer⟩ => ⟨.request q, q.unnumbered answer⟩
  | ⟨.exportData x id now, answer⟩ => ⟨.exportData x id now, answer⟩

/-- Whether a call has come to an end: an export has an answer. -/
def isAnswered : Exchange → Bool
  | ⟨.request _, _⟩ => true
  | ⟨.exportData .., answer⟩ => Option.isSome answer

end Exchange

/-- The id that is drawn in a call, by an export that is not refused before. -/
def Call.drawnId? : Call → Option EntryId
  | request _ => none
  | exportData x id _ => if x.draws then some id else none

/-- What happens to a hub: it is called, or it is dropped and a new one is restored from its
snapshot. -/
inductive Episode where
  | call (k : Call)
  | restart (now : Timestamp)

namespace Episode

def isCall : Episode → Bool
  | call _ => true
  | restart _ => false

/-- The ids that are drawn, in their order. -/
def drawnIds : List Episode → List EntryId
  | [] => []
  | call k :: rest => k.drawnId?.toList ++ drawnIds rest
  | restart _ :: rest => drawnIds rest

end Episode

namespace Store

/-- The answers that calls get, whatever restarts there are between them. -/
def exchanges (s : Store) : List Episode → List Exchange
  | [] => []
  | .call k :: rest => ⟨k, (s.call k).1⟩ :: (s.call k).2.exchanges rest
  | .restart now :: rest => (s.restart now).exchanges rest

/-! ## The state of one hub -/

/-- What holds of a hub after some ids have been drawn, restarts or not. -/
structure IsWithin (s : Store) (drawn : List EntryId) : Prop where
  sound : s.IsSound
  /-- The next number is above those of all entries. -/
  numbered : ∀ e ∈ s.toList, e.sequence.toNat < s.nextSequence.toNat
  issued : ∀ id ∈ s.issued, id ∈ drawn
  bounded : s.nextSequence.toNat ≤ drawn.length

namespace IsWithin

theorem empty : Store.empty.IsWithin [] where
  sound := .empty
  numbered := by simp
  issued := by simp [Store.empty]
  bounded := by simp [Store.empty]

/-- A new hub in place of the old one is no worse off. -/
theorem restart {s : Store} {drawn : List EntryId} (h : s.IsWithin drawn) (now : Timestamp) :
    (s.restart now).IsWithin drawn := by
  have hsize : s.nextSequence.toNat < UInt64.size := s.nextSequence.toNat_lt_size
  have hafter : ∀ e ∈ s.toList, (after e.sequence).toNat = e.sequence.toNat + 1 :=
    fun e he => toNat_after (h.numbered e he) hsize
  refine ⟨isSound_restart s now, fun e he => ?_, fun id hid => ?_, ?_⟩
  · rw [h.sound.toList_restart] at he
    have hle := (le_nextSequence_takeAll Store.empty s.toList).2 e he
    rw [hafter e he] at hle
    rw [h.sound.restart_eq]
    omega
  · rw [h.sound.restart_eq, mem_issued_takeAll] at hid
    rcases hid with hnone | hmem
    · exact absurd hnone List.not_mem_nil
    · obtain ⟨e, he, rfl⟩ := List.mem_map.mp hmem
      exact h.issued _ (h.sound.issued e he)
  · rw [h.sound.restart_eq]
    refine Nat.le_trans (nextSequence_takeAll_le (Nat.zero_le _) fun e he => ?_) h.bounded
    rw [hafter e he]
    exact h.numbered e he

/-- Fewer entries are as good. -/
theorem withLists {s : Store} {drawn : List EntryId} (h : s.IsWithin drawn)
    {lists : PerCategory (List Entry)} (hlists : ∀ c, (lists.get c).Sublist (s.entries c)) :
    (s.withLists lists).IsWithin drawn where
  sound := h.sound.withLists hlists
  numbered e he := h.numbered e ((toList_withLists_sublist hlists).subset he)
  issued := h.issued
  bounded := h.bounded

/-- An entry comes in under the id that has been drawn for it. -/
theorem takeIn {s : Store} {drawn : List EntryId} (h : s.IsWithin drawn) {e : Entry}
    (hfits : e.payload.category = e.category) (hfresh : e.id ∉ s.issued)
    (hsequence : e.sequence = s.nextSequence) (hroom : drawn.length + 1 < UInt64.size) :
    (s.takeIn e).IsWithin (drawn ++ [e.id]) := by
  have hnext : (s.takeIn e).nextSequence.toNat = s.nextSequence.toNat + 1 := by
    have hafter := toNat_after (Nat.lt_succ_of_le h.bounded) hroom
    rw [nextSequence_takeIn, hsequence, hafter]
    omega
  refine ⟨h.sound.takeIn hfits hfresh, fun f hf => ?_, fun id hid => ?_, ?_⟩
  · rw [hnext]
    rcases mem_toList_takeIn.mp hf with rfl | hold
    · rw [hsequence]
      omega
    · have hlt := h.numbered f hold
      omega
  · rw [List.mem_append, List.mem_singleton]
    rcases List.mem_cons.mp hid with rfl | hold
    · exact .inr rfl
    · exact .inl (h.issued id hold)
  · have hb := h.bounded
    rw [hnext, List.length_append, List.length_singleton]
    omega

theorem request {s : Store} {drawn : List EntryId} (h : s.IsWithin drawn) {q : StoreRequest}
    (hq : ∀ snapshot, q ≠ .restore snapshot) : (s.answer q).store.IsWithin drawn := by
  obtain ⟨lists, hlists, hstore⟩ := thinned_answer s hq
  rw [hstore]
  exact h.withLists hlists

/-- An id that has not been drawn is new to the hub, and there is a number for its entry. -/
theorem room {s : Store} {drawn : List EntryId} (h : s.IsWithin drawn) {id : EntryId}
    (hid : id ∉ drawn) (hroom : drawn.length + 1 < UInt64.size) :
    id ∉ s.issued ∧ s.nextSequence.toNat + 1 ≠ UInt64.size := by
  have hb := h.bounded
  exact ⟨fun hmem => hid (h.issued id hmem), by omega⟩

end IsWithin

/-! ## Two hubs side by side -/

/-- A store holds the entries of another one under other numbers, which are in the same order. -/
structure IsRenumberingOf (t s : Store) (r : UInt64 → UInt64) : Prop where
  entries : ∀ c, t.entries c = (s.entries c).map (Entry.renumber r)
  order : ∀ a ∈ s.toList, ∀ b ∈ s.toList, a.sequence ≤ b.sequence ↔ r a.sequence ≤ r b.sequence

namespace IsRenumberingOf

variable {s t : Store} {r : UInt64 → UInt64}

theorem toList_eq (h : t.IsRenumberingOf s r) : t.toList = s.toList.map (Entry.renumber r) := by
  rw [Store.toList_eq, Store.toList_eq, List.map_flatMap]
  exact List.flatMap_congr fun c _ => h.entries c

theorem find?_eq (h : t.IsRenumberingOf s r) (c : Category) (id : EntryId) :
    t.find? c id = (s.find? c id).map (Entry.renumber r) := by
  rw [find?, h.entries, List.find?_map]
  rfl

/-- Listings have the same entries in the same order. -/
theorem newestFirst_eq (h : t.IsRenumberingOf s r) {l : List Entry} (hl : l ⊆ s.toList) :
    newestFirst (l.map (Entry.renumber r)) = (newestFirst l).map (Entry.renumber r) := by
  refine (List.map_mergeSort fun a ha b hb => ?_).symm
  have horder : decide (b.sequence ≤ a.sequence) = decide (r b.sequence ≤ r a.sequence) :=
    decide_eq_decide.mpr (h.order b (hl hb) a (hl ha))
  simp only [Entry.isNewer, Entry.renumber, horder]
  rfl

theorem query_eq (h : t.IsRenumberingOf s r) (f : EntryFilter) : t.query f = s.query f := by
  have hfilter :
      t.toList.filter f.accepts = (s.toList.filter f.accepts).map (Entry.renumber r) := by
    rw [h.toList_eq, List.filter_map]
    rfl
  rw [query, hfilter, h.newestFirst_eq (List.filter_subset_self _), List.map_map]
  rfl

theorem listAll_eq (h : t.IsRenumberingOf s r) : t.listAll = s.listAll := by
  rw [listAll, h.toList_eq, h.newestFirst_eq (List.Subset.refl _), List.map_map]
  rfl

theorem counts_eq (h : t.IsRenumberingOf s r) : CategoryCounts.ofStore t = .ofStore s := by
  have hcount : t.count = s.count := by
    ext c
    rw [count, h.entries, List.length_map, count]
  rw [CategoryCounts.ofStore, hcount, total, h.toList_eq, List.length_map]
  rfl

/-- The same may be done to the lists of both. -/
theorem withLists (h : t.IsRenumberingOf s r) {lists lists' : PerCategory (List Entry)}
    (hlists : ∀ c, (lists.get c).Sublist (s.entries c))
    (heq : ∀ c, lists'.get c = (lists.get c).map (Entry.renumber r)) :
    (t.withLists lists').IsRenumberingOf (s.withLists lists) r where
  entries := heq
  order a ha b hb :=
    h.order a ((toList_withLists_sublist hlists).subset ha) b
      ((toList_withLists_sublist hlists).subset hb)

theorem set (h : t.IsRenumberingOf s r) {c : Category} {l l' : List Entry}
    (hl : l.Sublist (s.entries c)) (heq : l' = l.map (Entry.renumber r)) :
    (t.withLists (t.lists.set c l')).IsRenumberingOf (s.withLists (s.lists.set c l)) r := by
  refine h.withLists (fun d => ?_) fun d => ?_
  · rw [PerCategory.get_set]
    split
    · next hd => exact hd ▸ hl
    · exact List.Sublist.refl _
  · rw [PerCategory.get_set, PerCategory.get_set]
    split
    · exact heq
    · exact h.entries d

/-- Two effects that differ in numbers only: the answers are the same without the numbers that
`u` forgets, and the second store is the first one with other numbers. -/
structure Alike {α : Type} (u : α → α) (r : UInt64 → UInt64) (x y : Effect α) : Prop where
  answer : u y.answer = u x.answer
  store : y.store.IsRenumberingOf x.store r

theorem inCategory {α : Type} {u : Except HubError α → Except HubError α}
    {f g : Category → Effect (Except HubError α)} (h : t.IsRenumberingOf s r) (name : String)
    (hfg : ∀ c, Alike u r (f c) (g c)) :
    Alike u r (s.inCategory name f) (t.inCategory name g) := by
  rcases Category.parse_cases name with ⟨c, rfl⟩ | ⟨-, hname⟩
  · rw [inCategory_name, inCategory_name]
    exact hfg c
  · rw [inCategory_unknown s hname, inCategory_unknown t hname]
    exact ⟨rfl, h⟩

theorem removeEntry (h : t.IsRenumberingOf s r) (c : Category) (id : EntryId) :
    Alike (fun a => a) r (s.removeEntry c id) (t.removeEntry c id) where
  answer := by rw [removeEntry_answer, removeEntry_answer, h.find?_eq, Option.isSome_map]
  store := by
    rw [removeEntry_store, removeEntry_store]
    refine h.set List.eraseP_sublist ?_
    rw [h.entries, List.eraseP_map]
    rfl

theorem requestUse (h : t.IsRenumberingOf s r) (c : Category) (id : EntryId) (target : Category) :
    Alike (fun a => a) r (s.requestUse c id target) (t.requestUse c id target) where
  answer := by rw [requestUse_answer, requestUse_answer, h.find?_eq, Option.isSome_map]
  store := by rwa [requestUse_store, requestUse_store]

/-- No request but a restoration tells the two stores apart. -/
theorem request (h : t.IsRenumberingOf s r) {q : StoreRequest}
    (hq : ∀ snapshot, q ≠ .restore snapshot) :
    Alike q.unnumbered r (s.answer q) (t.answer q) := by
  cases q with
  | restore snapshot => exact absurd rfl (hq snapshot)
  | importData name id =>
    refine h.inCategory name fun c => ⟨?_, h⟩
    simp only [importData, h.find?_eq, Option.map_map]
    rfl
  | importAll name =>
    refine h.inCategory name fun c => ⟨?_, h⟩
    simp only [reply, h.entries, List.map_map]
    rfl
  | getEntry name id =>
    refine h.inCategory name fun c => ⟨?_, h⟩
    simp only [reply, h.find?_eq, StoreRequest.unnumbered, Except.map, Option.map_map]
    rfl
  | getLatest name =>
    refine h.inCategory name fun c => ⟨?_, h⟩
    simp only [reply, latest?, h.entries, List.getLast?_map, StoreRequest.unnumbered, Except.map,
      Option.map_map]
    rfl
  | remove name id => exact h.inCategory name fun c => h.removeEntry c id
  | clear name => exact h.inCategory name fun c => ⟨rfl, h.set (List.nil_sublist _) rfl⟩
  | clearAll =>
    refine ⟨rfl, h.withLists (fun c => ?_) fun c => ?_⟩
    · rw [PerCategory.get_ofFn]
      exact List.nil_sublist _
    · rw [PerCategory.get_ofFn]
      rfl
  | list name =>
    refine h.inCategory name fun c => ⟨?_, h⟩
    simp only [reply, list, h.entries, List.map_map]
    rfl
  | listAll => exact ⟨h.listAll_eq, h⟩
  | counts => exact ⟨h.counts_eq, h⟩
  | query f => exact ⟨h.query_eq f, h⟩
  | requestUse name id target =>
    exact h.inCategory name fun c => h.inCategory target fun d => h.requestUse c id d

/-- New entries that differ in their numbers come in on both sides, each above all numbers of its
side. -/
theorem takeIn (h : t.IsRenumberingOf s r) {e : Entry} {n : UInt64}
    (hs : ∀ a ∈ s.toList, a.sequence.toNat < e.sequence.toNat)
    (ht : ∀ a ∈ t.toList, a.sequence.toNat < n.toNat) :
    (t.takeIn { e with sequence := n }).IsRenumberingOf (s.takeIn e)
      fun k => if k = e.sequence then n else r k := by
  have hne : ∀ a ∈ s.toList, a.sequence ≠ e.sequence := by
    intro a ha heq
    have hlt := hs a ha
    rw [heq] at hlt
    exact Nat.lt_irrefl _ hlt
  have hbelow : ∀ a ∈ s.toList, (r a.sequence).toNat < n.toNat := by
    intro a ha
    refine ht (a.renumber r) ?_
    rw [h.toList_eq]
    exact List.mem_map_of_mem ha
  -- the new numbering agrees with the old one on all entries but the new one
  refine ⟨fun c => ?_, fun a ha b hb => ?_⟩
  · have hold : ∀ a ∈ s.entries c,
        a.renumber r = a.renumber fun k => if k = e.sequence then n else r k := by
      intro a ha
      simp only [Entry.renumber, if_neg (hne a (mem_toList.mpr ⟨c, ha⟩))]
    rw [entries_takeIn, entries_takeIn, h.entries, List.map_congr_left hold]
    by_cases hc : c = e.category
    · simp [hc, Entry.renumber]
    · simp [hc]
  · rw [UInt64.le_iff_toNat_le, UInt64.le_iff_toNat_le]
    rcases mem_toList_takeIn.mp ha with rfl | hsa <;> rcases mem_toList_takeIn.mp hb with rfl | hsb
    · simp
    · rw [if_pos rfl, if_neg (hne b hsb)]
      have hlt := hs b hsb
      have hlt' := hbelow b hsb
      omega
    · rw [if_pos rfl, if_neg (hne a hsa)]
      have hlt := hs a hsa
      have hlt' := hbelow a hsa
      omega
    · rw [if_neg (hne a hsa), if_neg (hne b hsb), ← UInt64.le_iff_toNat_le,
        ← UInt64.le_iff_toNat_le]
      exact h.order a hsa b hsb

/-- A restart of the other hub changes nothing between the two. -/
theorem restart (h : t.IsRenumberingOf s r) (ht : t.IsSound) (now : Timestamp) :
    (t.restart now).IsRenumberingOf s r where
  entries c := by rw [ht.entries_restart, h.entries]
  order := h.order

end IsRenumberingOf

/-! ## Runs with and without restarts -/

/-- A hub that has been restarted beside one that has not, after the same ids have been drawn. -/
structure Keeps (t s : Store) (drawn : List EntryId) : Prop where
  unbroken : s.IsWithin drawn
  restarted : t.IsWithin drawn
  renumbering : ∃ r, t.IsRenumberingOf s r

namespace Keeps

variable {s t : Store} {drawn : List EntryId}

theorem empty : Store.empty.Keeps Store.empty [] :=
  ⟨.empty, .empty, id, fun c => by simp, fun _ _ _ _ => Iff.rfl⟩

theorem restart (h : t.Keeps s drawn) (now : Timestamp) : (t.restart now).Keeps s drawn := by
  obtain ⟨r, hr⟩ := h.renumbering
  exact ⟨h.unbroken, h.restarted.restart now, r, hr.restart h.restarted.sound now⟩

theorem request (h : t.Keeps s drawn) {q : StoreRequest} (hq : ∀ snapshot, q ≠ .restore snapshot) :
    q.unnumbered (t.answer q).answer = q.unnumbered (s.answer q).answer ∧
      (t.answer q).store.Keeps (s.answer q).store drawn := by
  obtain ⟨r, hr⟩ := h.renumbering
  obtain ⟨hanswer, hstore⟩ := hr.request hq
  exact ⟨hanswer, h.unbroken.request hq, h.restarted.request hq, r, hstore⟩

/-- An export is answered on both sides alike, under an id that has not been drawn before. -/
theorem exportData (h : t.Keeps s drawn) (x : Export) (id : EntryId) (now : Timestamp)
    (hids : (drawn ++ (Call.exportData x id now).drawnId?.toList).Nodup)
    (hcount : (drawn ++ (Call.exportData x id now).drawnId?.toList).length < UInt64.size) :
    (∃ answer, (s.call (.exportData x id now)).1 = some answer ∧
      (t.call (.exportData x id now)).1 = some answer) ∧
      (t.call (.exportData x id now)).2.Keeps (s.call (.exportData x id now)).2
        (drawn ++ (Call.exportData x id now).drawnId?.toList) := by
  cases hx : x.draws with
  | false =>
    obtain ⟨e, hcall⟩ := call_export_refused hx
    simp only [Call.drawnId?, hx, hcall]
    rw [if_neg Bool.false_ne_true, Option.toList_none, List.append_nil]
    exact ⟨⟨_, rfl, rfl⟩, h⟩
  | true =>
    have hdrawn : (Call.exportData x id now).drawnId?.toList = [id] := by
      rw [Call.drawnId?, if_pos hx]
      rfl
    rw [hdrawn] at hids hcount ⊢
    have hid : id ∉ drawn :=
      fun hmem => List.disjoint_of_nodup_append hids hmem (List.mem_singleton_self id)
    rw [List.length_append, List.length_singleton] at hcount
    obtain ⟨hs, hs'⟩ := h.unbroken.room hid hcount
    obtain ⟨ht, ht'⟩ := h.restarted.room hid hcount
    obtain ⟨r, hr⟩ := h.renumbering
    have hr' := hr.takeIn
      (e := s.newEntry id now x.tab x.payload.category x.payload x.metadata) h.unbroken.numbered
      h.restarted.numbered
    rw [call_export_drawn hx now hs hs', call_export_drawn hx now ht ht']
    refine ⟨⟨_, rfl, rfl⟩, ?_, ?_, _, hr'⟩
    · exact h.unbroken.takeIn rfl hs rfl hcount
    · exact h.restarted.takeIn rfl ht rfl hcount

/-- No call tells the two hubs apart but by numbers, and each is answered. -/
theorem call (h : t.Keeps s drawn) {k : Call} (hk : ∀ snapshot, k ≠ .request (.restore snapshot))
    (hids : (drawn ++ k.drawnId?.toList).Nodup)
    (hcount : (drawn ++ k.drawnId?.toList).length < UInt64.size) :
    (Exchange.mk k (t.call k).1).unnumbered = (Exchange.mk k (s.call k).1).unnumbered ∧
      (Exchange.mk k (t.call k).1).isAnswered = true ∧
        (t.call k).2.Keeps (s.call k).2 (drawn ++ k.drawnId?.toList) := by
  cases k with
  | request q =>
    have hq : ∀ snapshot, q ≠ .restore snapshot := by
      rintro snapshot rfl
      exact hk snapshot rfl
    obtain ⟨hanswer, hkeeps⟩ := h.request hq
    refine ⟨congrArg (Exchange.mk (.request q)) hanswer, rfl, ?_⟩
    rw [Call.drawnId?, Option.toList_none, List.append_nil]
    exact hkeeps
  | exportData x id now =>
    obtain ⟨⟨answer, hs, ht⟩, hkeeps⟩ := h.exportData x id now hids hcount
    refine ⟨?_, ?_, hkeeps⟩
    · rw [hs, ht]
    · rw [ht]
      rfl

/-- Whatever comes next, the hub that is restarted on the way answers as the other one does. -/
theorem exchanges_eq (h : t.Keeps s drawn) {episodes : List Episode}
    (hrestore : ∀ snapshot, .call (.request (.restore snapshot)) ∉ episodes)
    (hids : (drawn ++ Episode.drawnIds episodes).Nodup)
    (hcount : (drawn ++ Episode.drawnIds episodes).length < UInt64.size) :
    (t.exchanges episodes).map Exchange.unnumbered =
        (s.exchanges (episodes.filter Episode.isCall)).map Exchange.unnumbered ∧
      ∀ x ∈ t.exchanges episodes, x.isAnswered = true := by
  induction episodes generalizing t s drawn with
  | nil => exact ⟨rfl, by simp [exchanges]⟩
  | cons episode rest ih =>
    have hrest : ∀ snapshot, .call (.request (.restore snapshot)) ∉ rest :=
      fun snapshot hmem => hrestore snapshot (List.mem_cons_of_mem _ hmem)
    cases episode with
    | call k =>
      -- the id of this call, if it draws one, moves over to those that have been drawn
      have hk : ∀ snapshot, k ≠ .request (.restore snapshot) := by
        rintro snapshot rfl
        exact hrestore snapshot List.mem_cons_self
      rw [Episode.drawnIds, ← List.append_assoc] at hids hcount
      rw [List.length_append] at hcount
      obtain ⟨hanswer, hanswered, hkeeps⟩ :=
        h.call hk (List.nodup_append.mp hids).1 (Nat.lt_of_le_of_lt (Nat.le_add_right _ _) hcount)
      rw [← List.length_append] at hcount
      obtain ⟨heq, hall⟩ := ih hkeeps hrest hids hcount
      rw [List.filter_cons_of_pos rfl, exchanges, exchanges]
      refine ⟨?_, List.forall_mem_cons.mpr ⟨hanswered, hall⟩⟩
      rw [List.map_cons, List.map_cons, hanswer, heq]
    | restart now =>
      -- the hub that goes on unbroken does not see the episode
      rw [List.filter_cons_of_neg Bool.false_ne_true]
      exact ih (h.restart now) hrest hids hcount

end Keeps

end Store

/-- Restarts are transparent: with the same ids and times, calls get the same answers as in the
run without the restarts, but for the numbers of the entries in them, and each call gets one. -/
theorem restarts_transparent (episodes : List Episode)
    (hrestore : ∀ snapshot, .call (.request (.restore snapshot)) ∉ episodes)
    (hids : (Episode.drawnIds episodes).Nodup)
    (hcount : (Episode.drawnIds episodes).length < UInt64.size) :
    (Store.empty.exchanges episodes).map Exchange.unnumbered =
        (Store.empty.exchanges (episodes.filter Episode.isCall)).map Exchange.unnumbered ∧
      ∀ x ∈ Store.empty.exchanges episodes, x.isAnswered = true :=
  Store.Keeps.empty.exchanges_eq hrestore hids hcount

/-- A run in which a removed entry is the last one before a restart, so that the entry that comes
after the restart has its number again. -/
def reuseOfNumber : List Episode :=
  let now := Timestamp.noon
  let x : Store.Export := ⟨"plot", "functions", .function "x^2", none⟩
  [.call (.exportData x ⟨"a"⟩ now), .call (.exportData x ⟨"b"⟩ now),
    .call (.request (.remove "functions" ⟨"b"⟩)), .restart now,
    .call (.exportData x ⟨"c"⟩ now), .call (.request (.getLatest "functions")),
    .call (.request .listAll)]

theorem restarts_transparent_reuseOfNumber :
    Episode.drawnIds reuseOfNumber = [⟨"a"⟩, ⟨"b"⟩, ⟨"c"⟩] ∧
      (Store.empty.exchanges reuseOfNumber).map Exchange.unnumbered =
        (Store.empty.exchanges (reuseOfNumber.filter Episode.isCall)).map Exchange.unnumbered ∧
      ∀ x ∈ Store.empty.exchanges reuseOfNumber, x.isAnswered = true :=
  ⟨by decide, restarts_transparent reuseOfNumber (by simp [reuseOfNumber]) (by decide) (by decide)⟩

end LabExchange
