import LabExchange.Proofs.Hub.Calls

/-!
# Stores with the same entries

Two stores that hold the same and differ only in some ids that have been issued. Such an id matters
when it is drawn or comes back with a restored entry; as long as neither happens, both stores give
the same answers and stay as they are to each other.
-/
namespace LabExchange

variable {hidden : EntryId → Prop}

namespace Store

/-- Two stores hold the same, and the same ids have been issued in them except for hidden ones. -/
structure Alike (hidden : EntryId → Prop) (s s' : Store) : Prop where
  lists : s'.lists = s.lists
  nextSequence : s'.nextSequence = s.nextSequence
  issued : ∀ id, ¬hidden id → (id ∈ s.issued ↔ id ∈ s'.issued)

variable {s s' : Store}

namespace Alike

theorem refl (s : Store) : s.Alike hidden s := ⟨rfl, rfl, fun _ _ => Iff.rfl⟩

theorem symm (h : s.Alike hidden s') : s'.Alike hidden s :=
  ⟨h.lists.symm, h.nextSequence.symm, fun id hid => (h.issued id hid).symm⟩

theorem entries (h : s.Alike hidden s') : s'.entries = s.entries := by
  funext c
  rw [Store.entries, h.lists, Store.entries]

theorem toList (h : s.Alike hidden s') : s'.toList = s.toList := by
  rw [Store.toList, h.lists, Store.toList]

theorem withLists (h : s.Alike hidden s') (lists : PerCategory (List Entry)) :
    (s.withLists lists).Alike hidden (s'.withLists lists) := ⟨rfl, h.nextSequence, h.issued⟩

theorem issue (h : s.Alike hidden s') (id : EntryId) :
    (s.issue id).Alike hidden (s'.issue id) := by
  refine ⟨h.lists, h.nextSequence, fun other hother => ?_⟩
  change other ∈ id :: s.issued ↔ other ∈ id :: s'.issued
  rw [List.mem_cons, List.mem_cons, h.issued other hother]

theorem takeIn (h : s.Alike hidden s') (e : Entry) :
    (s.takeIn e).Alike hidden (s'.takeIn e) := by
  refine ⟨?_, ?_, (h.issue e.id).issued⟩
  · simp only [Store.takeIn, append, h.lists, h.entries]
  · simp only [Store.takeIn, h.nextSequence]

theorem newEntry (h : s.Alike hidden s') (id : EntryId) (now : Timestamp) (tab : String)
    (c : Category) (p : Payload) (m : Option ExportMetadata) :
    s'.newEntry id now tab c p m = s.newEntry id now tab c p m := by
  rw [Store.newEntry, h.nextSequence, Store.newEntry]

end Alike
end Store

/-- Two effects are the same except for hidden ids. -/
structure Effect.Alike {α : Type} (hidden : EntryId → Prop) (e e' : Effect α) : Prop where
  store : e.store.Alike hidden e'.store
  log : e'.log = e.log
  event : e'.event = e.event
  answer : e'.answer = e.answer

/-- A request restores an entry under a hidden id. -/
def StoreRequest.Brings (hidden : EntryId → Prop) : StoreRequest → Prop
  | restore snapshot => ∃ e ∈ snapshot.entries, hidden e.id
  | _ => False

namespace Store

variable {s s' : Store}

theorem Alike.reply {α : Type} (h : s.Alike hidden s') (a : α) :
    (s.reply a).Alike hidden (s'.reply a) := ⟨h, rfl, rfl, rfl⟩

theorem Alike.inCategory {α : Type} (h : s.Alike hidden s') (name : String)
    {f f' : Category → Effect (Except HubError α)} (hf : ∀ c, (f c).Alike hidden (f' c)) :
    (s.inCategory name f).Alike hidden (s'.inCategory name f') := by
  rcases Category.parse_cases name with ⟨c, rfl⟩ | ⟨-, hname⟩
  · rw [inCategory_name, inCategory_name]
    exact hf c
  · rw [inCategory_unknown s hname, inCategory_unknown s' hname]
    exact h.reply _

theorem Alike.find? (h : s.Alike hidden s') (c : Category) (id : EntryId) :
    s'.find? c id = s.find? c id := by
  rw [Store.find?, h.entries, Store.find?]

theorem Alike.removeEntry (h : s.Alike hidden s') (c : Category) (id : EntryId) :
    (s.removeEntry c id).Alike hidden (s'.removeEntry c id) := by
  refine ⟨?_, ?_, ?_, ?_⟩
  · rw [removeEntry_store, removeEntry_store, h.lists, h.entries]
    exact h.withLists _
  all_goals
    simp only [Store.removeEntry, remove?, h.find?]
    cases s.find? c id <;> rfl

theorem Alike.requestUse (h : s.Alike hidden s') (c : Category) (id : EntryId)
    (target : Category) : (s.requestUse c id target).Alike hidden (s'.requestUse c id target) := by
  simp only [Store.requestUse, h.find?]
  cases s.find? c id with
  | none => exact h.reply _
  | some e => exact ⟨h, rfl, rfl, rfl⟩

theorem Alike.clearCategory (h : s.Alike hidden s') (c : Category) :
    (s.clearCategory c).Alike hidden (s'.clearCategory c) := by
  refine ⟨?_, ?_, rfl, rfl⟩
  · simp only [Store.clearCategory, clear, h.lists]
    exact h.withLists _
  · simp only [Store.clearCategory, clear, count, h.entries]

theorem Alike.clearEverything (h : s.Alike hidden s') :
    s.clearEverything.Alike hidden s'.clearEverything := by
  refine ⟨h.withLists _, ?_, rfl, rfl⟩
  simp only [Store.clearEverything, clearAll, total, h.toList]

/-- An entry under an id that is not hidden is restored in both or in none. -/
theorem Alike.restore? (h : s.Alike hidden s') {e : Entry} (he : ¬hidden e.id) :
    Option.Rel (Store.Alike hidden) (s.restore? e) (s'.restore? e) := by
  simp only [restore?_eq, ← h.issued e.id he]
  split_ifs
  · exact .none
  · exact .some (h.takeIn e)

theorem Alike.restoreEntries (h : s.Alike hidden s') {l : List Entry}
    (hl : ∀ e ∈ l, ¬hidden e.id) :
    (s.restoreEntries l).1.Alike hidden (s'.restoreEntries l).1 ∧
      (s'.restoreEntries l).2 = (s.restoreEntries l).2 := by
  induction l generalizing s s' with
  | nil => exact ⟨h, rfl⟩
  | cons e rest ih =>
    obtain ⟨he, hrest⟩ := List.forall_mem_cons.mp hl
    have hrestored := h.restore? he
    simp only [Store.restoreEntries]
    generalize s.restore? e = r at hrestored ⊢
    generalize s'.restore? e = r' at hrestored ⊢
    cases hrestored with
    | none =>
      obtain ⟨hstore, hcount⟩ := ih h hrest
      exact ⟨hstore, by simp only [hcount]⟩
    | some halike =>
      obtain ⟨hstore, hcount⟩ := ih halike hrest
      exact ⟨hstore, by simp only [hcount]⟩

/-- A request that brings no hidden id does the same to both stores. -/
theorem Alike.answer (h : s.Alike hidden s') {q : StoreRequest} (hq : ¬q.Brings hidden) :
    (s.answer q).Alike hidden (s'.answer q) := by
  cases q with
  | importData name id =>
    refine h.inCategory name fun c => ⟨h, ?_, rfl, ?_⟩ <;> simp only [importData, h.find?]
  | importAll name =>
    refine h.inCategory name fun c => ?_
    rw [h.entries]
    exact h.reply _
  | getEntry name id =>
    refine h.inCategory name fun c => ?_
    rw [h.find?]
    exact h.reply _
  | getLatest name =>
    refine h.inCategory name fun c => ?_
    rw [latest?, latest?, h.entries]
    exact h.reply _
  | remove name id => exact h.inCategory name fun c => h.removeEntry c id
  | clear name => exact h.inCategory name fun c => h.clearCategory c
  | clearAll => exact h.clearEverything
  | list name =>
    refine h.inCategory name fun c => ?_
    rw [list, list, h.entries]
    exact h.reply _
  | listAll =>
    rw [Store.answer, Store.answer, listAll, listAll, h.toList]
    exact h.reply _
  | counts =>
    have hcounts : CategoryCounts.ofStore s' = CategoryCounts.ofStore s := by
      simp only [CategoryCounts.ofStore, count, total, h.entries, h.toList]
    rw [Store.answer, Store.answer, hcounts]
    exact h.reply _
  | query filter =>
    rw [Store.answer, Store.answer, query, query, h.toList]
    exact h.reply _
  | requestUse name id target =>
    exact h.inCategory name fun c => h.inCategory target fun d => h.requestUse c id d
  | restore snapshot =>
    have hentries : ∀ e ∈ snapshot.entries, ¬hidden e.id := fun e he hid => hq ⟨e, he, hid⟩
    obtain ⟨hstore, hrest⟩ := h.restoreEntries hentries
    exact ⟨hstore, by simp only [Store.answer, Store.restore, hrest], rfl,
      congrArg Prod.fst hrest⟩

/-! ## Exports -/

/-- Two results of an export are the same except for hidden ids. -/
inductive ExportResult.Alike (hidden : EntryId → Prop) : ExportResult → ExportResult → Prop
  | refused (e : HubError) : Alike hidden (.refused e) (.refused e)
  | redraw : Alike hidden .redraw .redraw
  | exhausted {s s' : Store} (h : s.Alike hidden s') : Alike hidden (.exhausted s) (.exhausted s')
  | stored {e e' : Effect EntryId} (h : e.Alike hidden e') : Alike hidden (.stored e) (.stored e')

theorem Alike.exportData (h : s.Alike hidden s') (x : Export) {id : EntryId} (hid : ¬hidden id)
    (now : Timestamp) :
    ExportResult.Alike hidden (s.exportData x id now) (s'.exportData x id now) := by
  rcases Category.parse_cases x.category with ⟨c, hc⟩ | ⟨-, hname⟩
  · simp only [Store.exportData, hc, Category.parse_name, insert_eq, ← h.issued id hid,
      h.nextSequence, h.newEntry]
    split_ifs
    · exact .refused _
    · exact .refused _
    · exact .redraw
    · exact .exhausted (h.issue id)
    · exact .stored ⟨h.takeIn _, rfl, rfl, rfl⟩
  · rw [exportData_unknown s hname, exportData_unknown s' hname]
    exact .refused _

/-- Two sources of ids that give the same ids from some points on, none of them hidden. -/
def SameIds (hidden : EntryId → Prop) (ids ids' : Nat → EntryId) (drawn drawn' : Nat) : Prop :=
  ∀ k, ids' (drawn' + k) = ids (drawn + k) ∧ ¬hidden (ids (drawn + k))

theorem SameIds.later {ids ids' : Nat → EntryId} {drawn drawn' : Nat}
    (h : SameIds hidden ids ids' drawn drawn') (n : Nat) :
    SameIds hidden ids ids' (drawn + n) (drawn' + n) := by
  intro k
  rw [Nat.add_assoc, Nat.add_assoc]
  exact h (n + k)

/-- What two exports come to that draw the same ids, and that they draw equally many of them. -/
theorem Alike.exportDrawing (h : s.Alike hidden s') (x : Export) {ids ids' : Nat → EntryId}
    (now : Timestamp) (patience : Nat) {drawn drawn' : Nat}
    (hids : SameIds hidden ids ids' drawn drawn') :
    Option.Rel (fun r r' => ExportResult.Alike hidden r.1 r'.1 ∧
        ∃ n, r.2 = drawn + n ∧ r'.2 = drawn' + n)
      (s.exportDrawing x ids now patience drawn) (s'.exportDrawing x ids' now patience drawn') := by
  induction patience generalizing drawn drawn' with
  | zero => exact .none
  | succ patience ih =>
    obtain ⟨hsame, hshown⟩ := hids 0
    have hresult := h.exportData x hshown now
    simp only [Nat.add_zero] at hsame hresult
    simp only [Store.exportDrawing, hsame]
    generalize s.exportData x (ids drawn) now = r at hresult ⊢
    generalize s'.exportData x (ids drawn) now = r' at hresult ⊢
    cases hresult with
    | refused e => exact .some ⟨.refused e, 0, rfl, rfl⟩
    | exhausted halike => exact .some ⟨.exhausted halike, 1, rfl, rfl⟩
    | stored halike => exact .some ⟨.stored halike, 1, rfl, rfl⟩
    | redraw =>
      have hrest := ih (hids.later 1)
      dsimp only
      generalize s.exportDrawing x ids now patience (drawn + 1) = r at hrest ⊢
      generalize s'.exportDrawing x ids' now patience (drawn' + 1) = r' at hrest ⊢
      cases hrest with
      | none => exact .none
      | some hboth =>
        obtain ⟨halike, n, hr, hr'⟩ := hboth
        exact .some ⟨halike, n + 1, by omega, by omega⟩

end Store
end LabExchange
