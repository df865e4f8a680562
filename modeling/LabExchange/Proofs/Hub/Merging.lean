import LabExchange.Proofs.Hub.Restoring
import LabExchange.Proofs.Time.ReadingBack

/-!
# Merging snapshots

Snapshots in which an id always stands for the same entry can be restored in any order and any
number of times. What a restoration takes in is then a set that can be told beforehand: the entries
that fit and whose ids have not been issued. So the hubs that come out hold the same entries and
have the same next number; only entries that came in different orders and that no listing can tell
apart by time and number may stand in each other's places.
-/
namespace LabExchange

/-! ## Places in a listing -/

@[simp] theorem Timestamp.key_inj {t u : Timestamp} : t.key = u.key ↔ t = u := by
  refine ⟨fun h => ?_, congrArg key⟩
  obtain ⟨⟨year, month, day, hdate⟩, hour, minute, second, nanosecond, htime⟩ := t
  obtain ⟨⟨year', month', day', hdate'⟩, hour', minute', second', nanosecond', htime'⟩ := u
  have hday := daysInMonth_le year month
  have hday' := daysInMonth_le year' month'
  unfold Date.Valid at hdate hdate'
  unfold Valid at htime htime'
  dsimp only [key] at h
  have hsame : year = year' ∧ month = month' ∧ day = day' ∧ hour = hour' ∧ minute = minute' ∧
      second = second' ∧ nanosecond = nanosecond' := by
    omega
  obtain ⟨rfl, rfl, rfl, rfl, rfl, rfl, rfl⟩ := hsame
  rfl

/-- What decides on the place of an entry in a listing. -/
def Entry.rank (e : Entry) : Timestamp × UInt64 := (e.metadata.timestamp, e.sequence)

/-- Something of one rank may stand before something of another. -/
def IsAhead (p q : Timestamp × UInt64) : Prop :=
  q.1.key < p.1.key ∨ q.1.key = p.1.key ∧ q.2 ≤ p.2

instance (p q : Timestamp × UInt64) : Decidable (IsAhead p q) := inferInstanceAs (Decidable (_ ∨ _))

theorem isAhead_antisymm {p q : Timestamp × UInt64} (h : IsAhead p q) (h' : IsAhead q p) :
    p = q := by
  rcases h with hlt | ⟨heq, hle⟩
  · rcases h' with hlt' | ⟨heq', -⟩ <;> omega
  · rcases h' with hlt' | ⟨-, hle'⟩
    · omega
    · exact Prod.ext (Timestamp.key_inj.mp heq.symm) (UInt64.le_antisymm hle' hle)

theorem Entry.isNewer_iff {a b : Entry} : a.isNewer b = true ↔ IsAhead a.rank b.rank := by
  simp [isNewer, IsAhead, rank]

/-- The same entries, and at each place entries of the same time and number. -/
structure SameButForTies (l l' : List Entry) : Prop where
  perm : l.Perm l'
  ranks : l.map Entry.rank = l'.map Entry.rank

theorem isAhead_trans {p q r : Timestamp × UInt64} (h : IsAhead p q) (h' : IsAhead q r) :
    IsAhead p r := by
  rcases h with hlt | ⟨heq, hle⟩
  · have hlater : r.1.key < p.1.key := by rcases h' with hlt' | ⟨heq', -⟩ <;> omega
    exact .inl hlater
  · rcases h' with hlt' | ⟨heq', hle'⟩
    · exact .inl (by omega)
    · exact .inr ⟨by omega, UInt64.le_trans hle' hle⟩

theorem isAhead_total (p q : Timestamp × UInt64) : IsAhead p q ∨ IsAhead q p := by
  rcases Int.lt_trichotomy p.1.key q.1.key with hlt | heq | hlt
  · exact .inr (.inl hlt)
  · rcases UInt64.le_total p.2 q.2 with hle | hle
    · exact .inr (.inr ⟨heq, hle⟩)
    · exact .inl (.inr ⟨heq.symm, hle⟩)
  · exact .inl (.inl hlt)

theorem Entry.isNewer_trans (a b c : Entry) :
    a.isNewer b = true → b.isNewer c = true → a.isNewer c = true := by
  simp only [isNewer_iff]
  exact isAhead_trans

theorem Entry.isNewer_total (a b : Entry) : (a.isNewer b || b.isNewer a) = true := by
  simp only [Bool.or_eq_true, isNewer_iff]
  exact isAhead_total a.rank b.rank

theorem newestFirst_perm (l : List Entry) : (newestFirst l).Perm l := List.mergeSort_perm l _

@[simp] theorem mem_newestFirst {l : List Entry} {e : Entry} : e ∈ newestFirst l ↔ e ∈ l :=
  (newestFirst_perm l).mem_iff

theorem pairwise_newestFirst (l : List Entry) :
    ((newestFirst l).map Entry.rank).Pairwise IsAhead := by
  have hsorted := List.pairwise_mergeSort Entry.isNewer_trans Entry.isNewer_total l
  exact List.pairwise_map.mpr (hsorted.imp Entry.isNewer_iff.mp)

/-- A listing depends on the order in which the entries are given only where there are ties. -/
theorem sameButForTies_newestFirst {l l' : List Entry} (h : l.Perm l') :
    SameButForTies (newestFirst l) (newestFirst l') := by
  have hperm : (newestFirst l).Perm (newestFirst l') :=
    (newestFirst_perm l).trans (h.trans (newestFirst_perm l').symm)
  exact ⟨hperm, List.Perm.eq_of_pairwise (fun _ _ _ _ => isAhead_antisymm)
    (pairwise_newestFirst l) (pairwise_newestFirst l') (hperm.map _)⟩

namespace Store

variable {s : Store} {l l' : List Entry}

/-! ## What is taken in -/

theorem welcome_append (s : Store) (l l' : List Entry) :
    s.welcome (l ++ l') = s.welcome l ++ (s.takeAll (s.welcome l)).welcome l' := by
  induction l generalizing s with
  | nil => rfl
  | cons e rest ih =>
    rw [List.cons_append, welcome, welcome]
    cases h : s.restore? e with
    | none => exact ih s
    | some s' =>
      obtain ⟨-, -, rfl⟩ := restore?_eq_some.mp h
      exact congrArg (e :: ·) (ih (s.takeIn e))

@[simp] theorem takeAll_append (s : Store) (l l' : List Entry) :
    s.takeAll (l ++ l') = (s.takeAll l).takeAll l' := List.foldl_append

/-- Where an id stands for one entry only, it does not matter which comes first. -/
theorem mem_welcome_iff (hagree : ∀ e ∈ l, ∀ f ∈ l, e.id = f.id → e = f) {e : Entry} :
    e ∈ s.welcome l ↔ e ∈ l ∧ e.payload.category = e.category ∧ e.id ∉ s.issued := by
  refine ⟨of_mem_welcome, fun ⟨hmem, hfits, hfresh⟩ => ?_⟩
  obtain ⟨f, hf, hid⟩ := exists_mem_welcome hmem hfits hfresh
  obtain rfl := hagree f (of_mem_welcome hf).1 e hmem hid
  exact hf

theorem welcome_perm (hagree : ∀ e ∈ l, ∀ f ∈ l, e.id = f.id → e = f)
    (hmem : ∀ e, e ∈ l ↔ e ∈ l') : (s.welcome l).Perm (s.welcome l') := by
  have hagree' : ∀ e ∈ l', ∀ f ∈ l', e.id = f.id → e = f :=
    fun e he f hf => hagree e ((hmem e).mpr he) f ((hmem f).mpr hf)
  have hnodup := (nodup_welcome s l).of_map
  have hnodup' := (nodup_welcome s l').of_map
  refine (List.perm_ext_iff_of_nodup hnodup hnodup').mpr fun e => ?_
  rw [mem_welcome_iff hagree, mem_welcome_iff hagree', hmem]

theorem nextSequence_takeAll_perm (s : Store) (h : l.Perm l') :
    (s.takeAll l).nextSequence = (s.takeAll l').nextSequence := by
  have hle : ∀ {l l' : List Entry}, l.Perm l' →
      (s.takeAll l).nextSequence.toNat ≤ (s.takeAll l').nextSequence.toNat := by
    intro l l' h
    obtain ⟨hstart, hall⟩ := le_nextSequence_takeAll s l'
    exact nextSequence_takeAll_le hstart fun e he => hall e (h.mem_iff.mp he)
  exact UInt64.toNat_inj.mp (Nat.le_antisymm (hle h) (hle h.symm))

theorem find?_id_eq_some (hids : (l.map (·.id)).Nodup) {id : EntryId} {e : Entry} :
    l.find? (·.id == id) = some e ↔ e ∈ l ∧ e.id = id := by
  constructor
  · intro h
    exact ⟨List.mem_of_find?_eq_some h, by simpa using List.find?_some h⟩
  · rintro ⟨hmem, rfl⟩
    cases h : l.find? (·.id == e.id) with
    | none => simpa using List.find?_eq_none.mp h e hmem
    | some f =>
      have hid : f.id = e.id := by simpa using List.find?_some h
      rw [List.inj_on_of_nodup_map hids (List.mem_of_find?_eq_some h) hmem hid]

/-- Among entries with different ids the one with an id is found in any order. -/
theorem find?_perm (h : l.Perm l') (hids : (l.map (·.id)).Nodup) (id : EntryId) :
    l.find? (·.id == id) = l'.find? (·.id == id) := by
  have hids' := (h.map (·.id)).nodup_iff.mp hids
  ext e
  rw [find?_id_eq_some hids, find?_id_eq_some hids', h.mem_iff]

theorem find?_takeAll_perm (s : Store) (h : l.Perm l') (hids : (l.map (·.id)).Nodup) :
    (s.takeAll l).find? = (s.takeAll l').find? := by
  funext c id
  have hfilter : (l.filter (·.category = c)).Perm (l'.filter (·.category = c)) := h.filter _
  have hnodup : ((l.filter (·.category = c)).map (·.id)).Nodup :=
    hids.sublist (List.filter_sublist.map _)
  rw [find?, find?, entries_takeAll, entries_takeAll, List.find?_append, List.find?_append,
    find?_perm hfilter hnodup]

theorem count_takeAll_perm (s : Store) (h : l.Perm l') :
    (s.takeAll l).count = (s.takeAll l').count := by
  funext c
  rw [count, count, entries_takeAll, entries_takeAll, List.length_append, List.length_append,
    (h.filter _).length_eq]

/-! ## Several snapshots -/

/-- Restores snapshots one after the other. Gives the store and how many entries have been
restored in all. -/
def restoreAll (s : Store) : List Snapshot → Store × Nat
  | [] => (s, 0)
  | snapshot :: rest =>
    let effect := s.restore snapshot
    let (s, n) := effect.store.restoreAll rest
    (s, effect.answer + n)

theorem restoreAll_eq (s : Store) (snapshots : List Snapshot) :
    s.restoreAll snapshots = (s.takeAll (s.welcome (snapshots.flatMap (·.entries))),
      (s.welcome (snapshots.flatMap (·.entries))).length) := by
  induction snapshots generalizing s with
  | nil => rfl
  | cons snapshot rest ih =>
    obtain ⟨hstore, hcount⟩ := restoreEntries_eq_welcome s snapshot.entries
    have heffect : (s.restore snapshot).store = s.takeAll (s.welcome snapshot.entries) ∧
        (s.restore snapshot).answer = (s.welcome snapshot.entries).length := ⟨hstore, hcount⟩
    simp only [restoreAll, heffect, ih]
    rw [List.flatMap_cons, welcome_append, takeAll_append, List.length_append]

/-- Rows of two hubs that are the same but for ties between entries. -/
def RowsAgree (s t : Store) (rows rows' : List EntrySummary) : Prop :=
  ∃ l l', l ⊆ s.toList ∧ l' ⊆ t.toList ∧ SameButForTies l l' ∧
    rows = l.map EntrySummary.ofEntry ∧ rows' = l'.map EntrySummary.ofEntry

/-- Two hubs hold the same entries, which may have come in different orders. -/
structure HoldsAs (s t : Store) : Prop where
  getEntry : ∀ name id,
    (s.answer (.getEntry name id)).answer = (t.answer (.getEntry name id)).answer
  importData : ∀ name id,
    (s.answer (.importData name id)).answer = (t.answer (.importData name id)).answer
  counts : (s.answer .counts).answer = (t.answer .counts).answer
  nextSequence : s.nextSequence = t.nextSequence
  listAll : RowsAgree s t (s.answer .listAll).answer (t.answer .listAll).answer
  query : ∀ f, RowsAgree s t (s.answer (.query f)).answer (t.answer (.query f)).answer

theorem rowsAgree_newestFirst {t : Store} (h : l.Perm l') (hl : l ⊆ s.toList)
    (hl' : l' ⊆ t.toList) :
    RowsAgree s t ((newestFirst l).map .ofEntry) ((newestFirst l').map .ofEntry) := by
  have hsubset : ∀ l : List Entry, newestFirst l ⊆ l := fun l => (newestFirst_perm l).subset
  exact ⟨_, _, List.Subset.trans (hsubset l) hl, List.Subset.trans (hsubset l') hl',
    sameButForTies_newestFirst h, rfl, rfl⟩

/-- Entries with different ids can be taken in in any order. -/
theorem holdsAs_takeAll (s : Store) (h : l.Perm l') (hids : (l.map (·.id)).Nodup) :
    (s.takeAll l).HoldsAs (s.takeAll l') := by
  have hfind := find?_takeAll_perm s h hids
  have hperm : (s.takeAll l).toList.Perm (s.takeAll l').toList :=
    (toList_takeAll_perm s l).trans ((h.append_left _).trans (toList_takeAll_perm s l').symm)
  refine ⟨fun name id => ?_, fun name id => ?_, ?_, nextSequence_takeAll_perm s h, ?_, fun f => ?_⟩
  · exact answer_inCategory name fun c => by simp only [reply, hfind]
  · exact answer_inCategory name fun c => by simp only [Store.importData, hfind]
  · have hcounts : CategoryCounts.ofStore (s.takeAll l) = .ofStore (s.takeAll l') := by
      rw [CategoryCounts.ofStore, count_takeAll_perm s h, total, hperm.length_eq]
      rfl
    exact hcounts
  · exact rowsAgree_newestFirst hperm (List.Subset.refl _) (List.Subset.refl _)
  · exact rowsAgree_newestFirst (hperm.filter _) (List.filter_subset_self _)
      (List.filter_subset_self _)

end Store

/-- Snapshots that agree on the ids which they share can be restored in any order and with any
repetitions: the hub holds the same afterwards, namely also the entries that fit and are new to it,
and as many entries have been restored. -/
theorem restoreAll_holdsAs (s : Store) {snapshots snapshots' : List Snapshot}
    (hmem : ∀ x, x ∈ snapshots ↔ x ∈ snapshots')
    (hagree : ∀ x ∈ snapshots, ∀ y ∈ snapshots, ∀ e ∈ x.entries, ∀ f ∈ y.entries,
      e.id = f.id → e = f) :
    (s.restoreAll snapshots).1.HoldsAs (s.restoreAll snapshots').1 ∧
      (s.restoreAll snapshots).2 = (s.restoreAll snapshots').2 ∧
      ∀ e, e ∈ (s.restoreAll snapshots).1.toList ↔ e ∈ s.toList ∨
        (∃ x ∈ snapshots, e ∈ x.entries) ∧ e.payload.category = e.category ∧ e.id ∉ s.issued := by
  have hagree' : ∀ e ∈ snapshots.flatMap (·.entries), ∀ f ∈ snapshots.flatMap (·.entries),
      e.id = f.id → e = f := by
    intro e he f hf hid
    obtain ⟨x, hx, hex⟩ := List.mem_flatMap.mp he
    obtain ⟨y, hy, hfy⟩ := List.mem_flatMap.mp hf
    exact hagree x hx y hy e hex f hfy hid
  have hentries : ∀ e, e ∈ snapshots.flatMap (·.entries) ↔ e ∈ snapshots'.flatMap (·.entries) := by
    intro e
    simp only [List.mem_flatMap, hmem]
  have hperm := Store.welcome_perm (s := s) hagree' hentries
  rw [Store.restoreAll_eq, Store.restoreAll_eq]
  refine ⟨Store.holdsAs_takeAll s hperm (Store.nodup_welcome _ _), hperm.length_eq, fun e => ?_⟩
  rw [Store.mem_toList_takeAll, Store.mem_welcome_iff hagree', List.mem_flatMap]

/-- An entry for an id, of the same time and number as all the others. The one that is called odd
has a payload of another category. -/
def tiedEntry (id : String) : Entry :=
  ⟨⟨id⟩, if id = "odd" then .vectors else .functions, "plot", .function "x^2",
    ⟨"Square", "", .noon, .empty⟩, 5⟩

/-- A snapshot of such entries. -/
def tiedSnapshot (ids : List String) : Snapshot := ⟨1, .noon, ids.map tiedEntry⟩

/-- Two snapshots that share an entry. -/
def onceEach : List Snapshot := [tiedSnapshot ["a", "odd", "b"], tiedSnapshot ["b", "old", "c"]]

/-- The same two, the second one before the first and after it. -/
def twiceTheSecond : List Snapshot := tiedSnapshot ["b", "old", "c"] :: onceEach

/-- A hub that has issued the id of one of their entries. -/
def hubWithPast : Store :=
  .afterCalls .empty [.exportData ⟨"plot", "functions", .function "x^2", none⟩ ⟨"old"⟩ .noon,
    .request (.remove "functions" ⟨"old"⟩)]

/-- The hub refuses the odd entry and the old one. It takes the same ones in from both lists of
snapshots, and it has them in different orders. -/
theorem restoreAll_holdsAs_tied :
    (hubWithPast.restoreAll onceEach).1.HoldsAs (hubWithPast.restoreAll twiceTheSecond).1 ∧
      (hubWithPast.restoreAll onceEach).2 = (hubWithPast.restoreAll twiceTheSecond).2 ∧
      (hubWithPast.restoreAll onceEach).2 = 3 ∧
      ((hubWithPast.restoreAll onceEach).1.entries .functions).map (·.id.text) =
        ["a", "b", "c"] ∧
      ((hubWithPast.restoreAll twiceTheSecond).1.entries .functions).map (·.id.text) =
        ["b", "c", "a"] := by
  have hmem : ∀ x, x ∈ onceEach ↔ x ∈ twiceTheSecond := by
    intro x
    simp only [onceEach, twiceTheSecond, List.mem_cons, List.not_mem_nil, or_false]
    tauto
  have htied : ∀ x ∈ onceEach, ∀ e ∈ x.entries, e = tiedEntry e.id.text := by
    simp [onceEach, tiedSnapshot, tiedEntry]
  have hagree : ∀ x ∈ onceEach, ∀ y ∈ onceEach, ∀ e ∈ x.entries, ∀ f ∈ y.entries,
      e.id = f.id → e = f := by
    intro x hx y hy e he f hf hid
    rw [htied x hx e he, htied y hy f hf, hid]
  obtain ⟨hholds, hcount, -⟩ := restoreAll_holdsAs hubWithPast hmem hagree
  exact ⟨hholds, hcount, by decide, by decide, by decide⟩

end LabExchange
