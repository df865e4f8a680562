import LabExchange.Hub.World
import LabExchange.Proofs.Hub.Calls

/-!
# A hub as one flat list

The categories are a way of filing only: a hub answers as if it kept all entries in one list in
the order in which they were stored, and looked for a category each time it is asked.
-/
namespace LabExchange

/-- A hub that files nothing. -/
structure FlatHub where
  /-- The entries in the order in which they were stored. -/
  entries : List Entry
  issued : List EntryId
  nextSequence : UInt64

namespace FlatHub

def empty : FlatHub := ⟨[], [], 0⟩

def takeIn (f : FlatHub) (e : Entry) : FlatHub :=
  ⟨f.entries ++ [e], e.id :: f.issued, max f.nextSequence (Store.after e.sequence)⟩

def issue (f : FlatHub) (id : EntryId) : FlatHub := { f with issued := id :: f.issued }

/-- Puts an entry at the end, if its payload is of its category and its id is new. -/
def restore (f : FlatHub) (e : Entry) : FlatHub :=
  if e.payload.category ≠ e.category ∨ e.id ∈ f.issued then f else f.takeIn e

/-- Keeps the entries that meet a condition. -/
def keep (f : FlatHub) (p : Entry → Bool) : FlatHub := { f with entries := f.entries.filter p }

/-- Puts an exported entry at the end, if it passes the checks and there is a number for it. -/
def exportData (f : FlatHub) (x : Store.Export) (id : EntryId) (now : Timestamp) : FlatHub :=
  match Category.ofName? x.category with
  | none => f
  | some c =>
    if x.payload.category ≠ c ∨ !x.payload.isFinite ∨ id ∈ f.issued then f
    else if f.nextSequence.toNat + 1 = UInt64.size then f.issue id
    else
      let metadata := (x.metadata.getD .new).resolve id c x.tab now
      f.takeIn ⟨id, c, x.tab, x.payload, metadata, f.nextSequence⟩

/-- What a call makes of the list. Only the calls that change something are looked at. -/
def call (f : FlatHub) : Call → FlatHub
  | .exportData x id now => f.exportData x id now
  | .request (.restore snapshot) => snapshot.entries.foldl restore f
  | .request (.remove name id) => f.keep fun e => !(e.category.name == name && e.id == id)
  | .request (.clear name) => f.keep fun e => !(e.category.name == name)
  | .request .clearAll => f.keep fun _ => false
  | .request _ => f

def afterCalls (f : FlatHub) (calls : List Call) : FlatHub := calls.foldl call f

/-- The entries of a category. -/
def own (f : FlatHub) (c : Category) : List Entry := f.entries.filter (·.category = c)

/-- The entry of a category with an id. -/
def find? (f : FlatHub) (c : Category) (id : EntryId) : Option Entry :=
  f.entries.find? fun e => e.category = c ∧ e.id = id

end FlatHub

/-- The store files the entries of the flat hub. -/
structure Store.IsFilingOf (s : Store) (f : FlatHub) : Prop where
  entries : ∀ c, s.entries c = f.own c
  issued : s.issued = f.issued
  nextSequence : s.nextSequence = f.nextSequence

namespace Store.IsFilingOf

theorem empty : Store.empty.IsFilingOf .empty where
  entries c := entries_empty c
  issued := rfl
  nextSequence := rfl

theorem takeIn {s : Store} {f : FlatHub} (h : s.IsFilingOf f) (e : Entry) :
    (s.takeIn e).IsFilingOf (f.takeIn e) where
  entries c := by
    rw [entries_takeIn, h.entries]
    simp only [FlatHub.own, FlatHub.takeIn, List.filter_append]
    by_cases hc : c = e.category
    · simp [hc]
    · simp [hc, Ne.symm hc]
  issued := by simp [Store.takeIn, FlatHub.takeIn, append, h.issued]
  nextSequence := by simp [Store.takeIn, FlatHub.takeIn, append, h.nextSequence]

theorem issue {s : Store} {f : FlatHub} (h : s.IsFilingOf f) (id : EntryId) :
    (s.issue id).IsFilingOf (f.issue id) where
  entries := h.entries
  issued := by simp [Store.issue, FlatHub.issue, h.issued]
  nextSequence := h.nextSequence

theorem restore {s : Store} {f : FlatHub} (h : s.IsFilingOf f) (e : Entry) :
    ((s.restore? e).getD s).IsFilingOf (f.restore e) := by
  rw [restore?_eq, FlatHub.restore, h.issued]
  split_ifs
  · exact h
  · exact h.takeIn e

theorem restoreEntries {s : Store} {f : FlatHub} (h : s.IsFilingOf f) (l : List Entry) :
    (s.restoreEntries l).1.IsFilingOf (l.foldl FlatHub.restore f) := by
  induction l generalizing s f with
  | nil => exact h
  | cons e rest ih =>
    rw [(restoreEntries_cons s e rest).1]
    exact ih (h.restore e)

theorem exportData {s : Store} {f : FlatHub} (h : s.IsFilingOf f) (x : Export) (id : EntryId)
    (now : Timestamp) : (s.call (.exportData x id now)).2.IsFilingOf (f.exportData x id now) := by
  rcases Category.parse_cases x.category with ⟨c, hc⟩ | ⟨hnone, hname⟩
  · rw [call_export s hc, FlatHub.exportData, hc, Category.ofName?_name, newEntry, h.issued,
      h.nextSequence]
    by_cases hcategory : x.payload.category = c
    swap
    · simpa [hcategory] using h
    by_cases hfinite : x.payload.isFinite = true
    swap
    · simpa [hcategory, hfinite] using h
    by_cases hissued : id ∈ f.issued
    · simpa [hcategory, hfinite, hissued] using h
    by_cases hfull : f.nextSequence.toNat + 1 = UInt64.size
    · simpa [hcategory, hfinite, hissued, hfull] using h.issue id
    · simpa [hcategory, hfinite, hissued, hfull] using h.takeIn _
  · rw [call_export_unknown s hname, FlatHub.exportData, hnone]
    exact h

theorem category_eq {s : Store} {f : FlatHub} (h : s.IsFilingOf f) {c : Category} {e : Entry}
    (he : e ∈ s.entries c) : e.category = c := by
  rw [h.entries] at he
  simpa using (List.mem_filter.mp he).2

/-- A condition may be put to the lists one by one. -/
theorem keep {s : Store} {f : FlatHub} (h : s.IsFilingOf f) {lists : PerCategory (List Entry)}
    {p : Entry → Bool} (hlists : ∀ c, lists.get c = (s.entries c).filter p) :
    (s.withLists lists).IsFilingOf (f.keep p) where
  entries c := by
    change lists.get c = _
    rw [hlists, h.entries, FlatHub.own, FlatHub.own, FlatHub.keep, List.filter_filter,
      List.filter_filter]
    exact List.filter_congr fun e _ => Bool.and_comm _ _
  issued := h.issued
  nextSequence := h.nextSequence

/-- A condition that only entries of one category fail may be put to its list alone. -/
theorem keep_set {s : Store} {f : FlatHub} (h : s.IsFilingOf f) {c : Category} {l : List Entry}
    {p : Entry → Bool} (hl : l = (s.entries c).filter p) (hp : ∀ e, e.category ≠ c → p e = true) :
    (s.withLists (s.lists.set c l)).IsFilingOf (f.keep p) := by
  refine h.keep fun d => ?_
  rw [PerCategory.get_set]
  split
  · next hd => rw [hl, hd]
  · next hd =>
    refine (List.filter_eq_self.mpr fun e he => hp e ?_).symm
    rw [h.category_eq he]
    exact hd

theorem remove {s : Store} {f : FlatHub} (h : s.IsFilingOf f) (hs : s.IsSound) (c : Category)
    (id : EntryId) :
    (s.removeEntry c id).store.IsFilingOf
      (f.keep fun e => !(e.category.name == c.name && e.id == id)) := by
  rw [removeEntry_store]
  refine h.keep_set ?_ fun e he => ?_
  · rw [eraseP_eq_filter (hs.entries_nodup c)]
    refine List.filter_congr fun e he => ?_
    simp [h.category_eq he]
  · simp [he]

theorem clear {s : Store} {f : FlatHub} (h : s.IsFilingOf f) (c : Category) :
    (s.clear c).2.IsFilingOf (f.keep fun e => !(e.category.name == c.name)) := by
  refine h.keep_set ?_ fun e he => ?_
  · refine (List.filter_eq_nil_iff.mpr fun e he => ?_).symm
    simp [h.category_eq he]
  · simp [he]

/-- A name that is none of a category is not the name of any entry's category. -/
theorem keep_unknown {s : Store} {f : FlatHub} (h : s.IsFilingOf f) {name : String}
    (hname : Category.ofName? name = none) {p : Entry → Bool}
    (hp : ∀ e, e.category.name ≠ name → p e = true) : s.IsFilingOf (f.keep p) := by
  refine h.keep fun c => (List.filter_eq_self.mpr fun e _ => hp e ?_).symm
  rintro rfl
  simp at hname

theorem request {s : Store} {f : FlatHub} (h : s.IsFilingOf f) (hs : s.IsSound)
    (q : StoreRequest) : (s.answer q).store.IsFilingOf (f.call (.request q)) := by
  cases q with
  | restore snapshot => exact h.restoreEntries snapshot.entries
  | clearAll =>
    refine h.keep fun c => ?_
    rw [PerCategory.get_ofFn, List.filter_false]
  | remove name id =>
    rcases Category.parse_cases name with ⟨c, rfl⟩ | ⟨hnone, hname⟩
    · rw [answer, inCategory_name]
      exact h.remove hs c id
    · rw [answer, inCategory_unknown s hname]
      exact h.keep_unknown hnone fun e he => by simp [he]
  | clear name =>
    rcases Category.parse_cases name with ⟨c, rfl⟩ | ⟨hnone, hname⟩
    · rw [answer, inCategory_name]
      exact h.clear c
    · rw [answer, inCategory_unknown s hname]
      exact h.keep_unknown hnone fun e he => by simp [he]
  | importData | importAll | getEntry | getLatest | list | listAll | counts | query | requestUse =>
    rw [store_answer_of_reads s rfl]
    exact h

theorem call {s : Store} {f : FlatHub} (h : s.IsFilingOf f) (hs : s.IsSound) (k : Call) :
    (s.call k).2.IsFilingOf (f.call k) := by
  cases k with
  | request q => exact h.request hs q
  | exportData x id now => exact h.exportData x id now

theorem afterCalls {s : Store} {f : FlatHub} (h : s.IsFilingOf f) (hs : s.IsSound)
    (calls : List Call) : (s.afterCalls calls).IsFilingOf (f.afterCalls calls) := by
  induction calls generalizing s f with
  | nil => exact h
  | cons k rest ih => exact ih (h.call hs k) (hs.steps (steps_call s k))

/-! ## What is read -/

theorem toList_eq {s : Store} {f : FlatHub} (h : s.IsFilingOf f) :
    s.toList = Category.all.flatMap f.own := List.flatMap_congr fun c _ => h.entries c

theorem toList_perm {s : Store} {f : FlatHub} (h : s.IsFilingOf f) :
    s.toList.Perm f.entries := by
  rw [h.toList_eq]
  unfold FlatHub.own
  induction f.entries with
  | nil => simp
  | cons e l ih =>
    refine List.Perm.trans ?_ (ih.cons e)
    refine Category.flatMap_all_perm (c := e.category) (.of_eq ?_) fun d hd => ?_
    · exact List.filter_cons_of_pos (by simp)
    · exact List.filter_cons_of_neg (by simpa using Ne.symm hd)

theorem find?_eq {s : Store} {f : FlatHub} (h : s.IsFilingOf f) (c : Category) (id : EntryId) :
    s.find? c id = f.find? c id := by
  rw [Store.find?, h.entries, FlatHub.own, List.find?_filter, FlatHub.find?]
  simp

end Store.IsFilingOf

/-- What a hub says of its entries is what the flat list says. -/
structure Store.ReadsAs (s : Store) (f : FlatHub) : Prop where
  list : ∀ c, (s.answer (.list c.name)).answer = .ok ((f.own c).map .ofEntry)
  importAll : ∀ c, (s.answer (.importAll c.name)).answer = .ok ((f.own c).map (·.payload))
  getLatest : ∀ c, (s.answer (.getLatest c.name)).answer = .ok (f.own c).getLast?
  getEntry : ∀ c id, (s.answer (.getEntry c.name id)).answer = .ok (f.find? c id)
  importData : ∀ c id,
    (s.answer (.importData c.name id)).answer = .ok ((f.find? c id).map (·.payload))
  count : ∀ c, (s.answer .counts).answer.get c = (f.own c).length
  total : (s.answer .counts).answer.total = f.entries.length
  remove : ∀ c id, (s.answer (.remove c.name id)).answer = .ok (f.find? c id).isSome
  removed : ∀ c id, (s.remove? c id).map Prod.fst = f.find? c id
  cleared : ∀ c, (s.clear c).1 = (f.own c).length
  clearedAll : s.clearAll.1 = f.entries.length
  /-- A snapshot has the entries category by category, each in the order of the list. -/
  snapshot : ∀ {σ : Type} (supply : Supply) (w : World σ) (h : Hub σ), h.store = s →
    (w.takeSnapshot supply h).1.entries = Category.all.flatMap f.own
  /-- There is at most one entry with an id. -/
  ids_nodup : (f.entries.map (·.id)).Nodup

theorem Store.IsFilingOf.readsAs {s : Store} {f : FlatHub} (h : s.IsFilingOf f) (hs : s.IsSound) :
    s.ReadsAs f where
  list c := by
    rw [answer, inCategory_name, ← h.entries]
    rfl
  importAll c := by
    rw [answer, inCategory_name, ← h.entries]
    rfl
  getLatest c := by
    rw [answer, inCategory_name, ← h.entries]
    rfl
  getEntry c id := by
    rw [answer, inCategory_name, ← h.find?_eq]
    rfl
  importData c id := by
    rw [answer, inCategory_name, ← h.find?_eq]
    rfl
  count c := by
    rw [← h.entries]
    change ((PerCategory.ofFn fun c => some (s.count c)).get c).getD 0 = _
    rw [PerCategory.get_ofFn]
    rfl
  total := h.toList_perm.length_eq
  remove c id := by
    rw [answer, inCategory_name, ← h.find?_eq]
    exact removeEntry_answer s c id
  removed c id := by
    rw [← h.find?_eq, remove?]
    cases s.find? c id <;> rfl
  cleared c := by
    rw [← h.entries]
    rfl
  clearedAll := h.toList_perm.length_eq
  snapshot supply w hub hstore := by
    rw [← h.toList_eq, ← hstore]
    rfl
  ids_nodup := (h.toList_perm.map _).nodup_iff.mp hs.ids_nodup

/-- Whatever calls a new hub has answered, it reads as the flat list does after them. -/
theorem readsAs_flatHub (calls : List Call) :
    (Store.empty.afterCalls calls).ReadsAs (FlatHub.empty.afterCalls calls) :=
  (Store.IsFilingOf.empty.afterCalls .empty calls).readsAs
    (Store.IsSound.empty.steps (Store.steps_afterCalls .empty calls))

end LabExchange
