import LabExchange.Hub.Request
import LabExchange.Proofs.Store.Soundness

/-!
# Calls on a hub

A call is one request about the entries, or one attempt to export under a drawn id. Each request
has its equation in terms of the store, and no call does more to the store than its steps.
-/
namespace LabExchange

@[simp] theorem Category.parse_name (c : Category) : parse c.name = .ok c := by
  simp [parse]

@[simp] theorem Category.name_inj {c d : Category} : c.name = d.name ↔ c = d := by
  refine ⟨fun h => ?_, congrArg name⟩
  have hc := ofName?_name c
  rw [h, ofName?_name] at hc
  exact (Option.some.inj hc).symm

/-- A name is that of a category, or it does not parse. -/
theorem Category.parse_cases (name : String) :
    (∃ c, name = Category.name c) ∨
      ofName? name = none ∧ parse name = .error (.unknownCategory name) := by
  cases h : ofName? name with
  | some c => exact .inl ⟨c, (name_of_ofName? h).symm⟩
  | none => exact .inr ⟨rfl, by simp [parse, h]⟩

/-- Whether a request leaves the entries as they are. -/
def StoreRequest.reads : StoreRequest → Bool
  | remove .. | clear _ | clearAll | restore _ => false
  | _ => true

/-- A call on a hub. What comes from outside at an export, its id and its time, is part of it. -/
inductive Call where
  | request (q : StoreRequest)
  | exportData (x : Store.Export) (id : EntryId) (now : Timestamp)

/-- An export has no answer if its id must be drawn again, or if it panics. -/
def Call.Answer : Call → Type
  | request q => q.Answer
  | exportData .. => Option (Except HubError EntryId)

/-- A time for runs that show how things can go. -/
def Timestamp.noon : Timestamp := ⟨⟨2024, 2, 29, by decide⟩, 12, 0, 0, 0, by decide⟩

namespace Store

/-- Whether an export draws an id: its category exists, and its payload is one of it that JSON can
hold. -/
def Export.draws (x : Export) : Bool :=
  (Category.ofName? x.category).any fun c => x.payload.category = c ∧ x.payload.isFinite

/-- Carries out a call. -/
def call (s : Store) : (k : Call) → k.Answer × Store
  | .request q => ((s.answer q).answer, (s.answer q).store)
  | .exportData x id now =>
    match s.exportData x id now with
    | .refused e => (some (.error e), s)
    | .redraw => (none, s)
    | .exhausted s' => (none, s')
    | .stored effect => (some (.ok effect.answer), effect.store)

/-! ## Requests -/

@[simp] theorem inCategory_name {α : Type} (s : Store) (c : Category)
    (f : Category → Effect (Except HubError α)) : s.inCategory c.name f = f c := by
  simp [inCategory]

theorem inCategory_unknown {α : Type} (s : Store) {name : String}
    (h : Category.parse name = .error (.unknownCategory name))
    (f : Category → Effect (Except HubError α)) :
    s.inCategory name f = s.reply (.error (.unknownCategory name)) := by
  simp [inCategory, h]

/-- A name that is none is refused by every store alike. -/
theorem answer_inCategory {α : Type} {s t : Store} (name : String)
    {f g : Category → Effect (Except HubError α)} (h : ∀ c, (f c).answer = (g c).answer) :
    (s.inCategory name f).answer = (t.inCategory name g).answer := by
  rcases Category.parse_cases name with ⟨c, rfl⟩ | ⟨-, hname⟩
  · rw [inCategory_name, inCategory_name]
    exact h c
  · rw [inCategory_unknown s hname, inCategory_unknown t hname]
    rfl

theorem store_inCategory {α : Type} {s : Store} (name : String)
    {f : Category → Effect (Except HubError α)} (h : ∀ c, (f c).store = s) :
    (s.inCategory name f).store = s := by
  rcases Category.parse_cases name with ⟨c, rfl⟩ | ⟨-, hname⟩
  · rw [inCategory_name]
    exact h c
  · rw [inCategory_unknown s hname]
    rfl

theorem thinned_inCategory {α : Type} {s : Store} (name : String)
    {f : Category → Effect (Except HubError α)}
    (h : ∀ c, ∃ lists : PerCategory (List Entry), (∀ d, (lists.get d).Sublist (s.entries d)) ∧
      (f c).store = s.withLists lists) :
    ∃ lists : PerCategory (List Entry), (∀ d, (lists.get d).Sublist (s.entries d)) ∧
      (s.inCategory name f).store = s.withLists lists := by
  rcases Category.parse_cases name with ⟨c, rfl⟩ | ⟨-, hname⟩
  · rw [inCategory_name]
    exact h c
  · rw [inCategory_unknown s hname]
    exact ⟨s.lists, fun d => List.Sublist.refl _, rfl⟩

/-- Removing an entry that is not there erases nothing. -/
theorem removeEntry_store (s : Store) (c : Category) (id : EntryId) :
    (s.removeEntry c id).store =
      s.withLists (s.lists.set c ((s.entries c).eraseP (·.id == id))) := by
  unfold removeEntry
  cases h : s.remove? c id with
  | some r => exact (remove?_eq_some.mp h).2.symm
  | none =>
    have habsent : ∀ e ∈ s.entries c, ¬(e.id == id) = true := by
      simpa [remove?, find?] using h
    have hlists : s.lists.set c (s.entries c) = s.lists := by
      refine PerCategory.ext_get fun d => ?_
      rw [PerCategory.get_set]
      split
      · next hd => rw [hd, entries]
      · rfl
    rw [List.eraseP_of_forall_not habsent, hlists]
    rfl

@[simp] theorem removeEntry_answer (s : Store) (c : Category) (id : EntryId) :
    (s.removeEntry c id).answer = .ok (s.find? c id).isSome := by
  rw [removeEntry, remove?]
  cases s.find? c id <;> rfl

@[simp] theorem requestUse_answer (s : Store) (c : Category) (id : EntryId) (target : Category) :
    (s.requestUse c id target).answer = .ok (s.find? c id).isSome := by
  unfold requestUse
  cases s.find? c id <;> rfl

@[simp] theorem requestUse_store (s : Store) (c : Category) (id : EntryId) (target : Category) :
    (s.requestUse c id target).store = s := by
  unfold requestUse
  cases s.find? c id <;> rfl

theorem restoreEntries_cons (s : Store) (e : Entry) (rest : List Entry) :
    (s.restoreEntries (e :: rest)).1 = (((s.restore? e).getD s).restoreEntries rest).1 ∧
      (s.restoreEntries (e :: rest)).2.1 =
        (((s.restore? e).getD s).restoreEntries rest).2.1 +
          if (s.restore? e).isSome then 1 else 0 := by
  cases h : s.restore? e <;> simp [restoreEntries, h]

theorem steps_restoreEntries (s : Store) (l : List Entry) : s.Steps (s.restoreEntries l).1 := by
  induction l generalizing s with
  | nil => exact .refl s
  | cons e rest ih =>
    rw [(restoreEntries_cons s e rest).1]
    cases h : s.restore? e with
    | none => exact ih s
    | some s' => exact (step_of_restored h).steps.trans (ih s')

theorem store_answer_of_reads (s : Store) {q : StoreRequest} (h : q.reads = true) :
    (s.answer q).store = s := by
  cases q with
  | importData name id => exact store_inCategory name fun c => rfl
  | importAll name => exact store_inCategory name fun c => rfl
  | getEntry name id => exact store_inCategory name fun c => rfl
  | getLatest name => exact store_inCategory name fun c => rfl
  | list name => exact store_inCategory name fun c => rfl
  | requestUse name id target =>
    exact store_inCategory name fun c => store_inCategory target fun d => requestUse_store s c id d
  | listAll | counts | query => rfl
  | remove | clear | clearAll | restore => contradiction

/-- No request but a restoration does more than to thin out the lists. -/
theorem thinned_answer (s : Store) {q : StoreRequest} (h : ∀ snapshot, q ≠ .restore snapshot) :
    ∃ lists : PerCategory (List Entry), (∀ c, (lists.get c).Sublist (s.entries c)) ∧
      (s.answer q).store = s.withLists lists := by
  cases q with
  | remove name id =>
    refine thinned_inCategory name fun c => ⟨_, ?_, removeEntry_store s c id⟩
    exact sublist_set List.eraseP_sublist
  | clear name => exact thinned_inCategory name fun c => ⟨_, sublist_set (List.nil_sublist _), rfl⟩
  | clearAll =>
    refine ⟨_, fun c => ?_, rfl⟩
    rw [PerCategory.get_ofFn]
    exact List.nil_sublist _
  | restore snapshot => exact absurd rfl (h snapshot)
  | importData | importAll | getEntry | getLatest | list | listAll | counts | query | requestUse =>
    exact ⟨s.lists, fun c => List.Sublist.refl _, store_answer_of_reads s rfl⟩

theorem steps_answer (s : Store) (q : StoreRequest) : s.Steps (s.answer q).store := by
  by_cases h : ∃ snapshot, q = .restore snapshot
  · obtain ⟨snapshot, rfl⟩ := h
    exact steps_restoreEntries s snapshot.entries
  · obtain ⟨lists, hlists, hstore⟩ := thinned_answer s (not_exists.mp h)
    rw [hstore]
    exact (Step.thinned lists hlists).steps

/-! ## Exports -/

theorem exportData_unknown (s : Store) {x : Export}
    (h : Category.parse x.category = .error (.unknownCategory x.category)) (id : EntryId)
    (now : Timestamp) : s.exportData x id now = .refused (.unknownCategory x.category) := by
  simp [exportData, h]

theorem call_export_unknown (s : Store) {x : Export}
    (h : Category.parse x.category = .error (.unknownCategory x.category)) (id : EntryId)
    (now : Timestamp) :
    s.call (.exportData x id now) = (some (.error (.unknownCategory x.category)), s) := by
  simp only [call, exportData_unknown s h]
  rfl

/-- The checks of an export in their order, and what it comes to. -/
theorem call_export (s : Store) {x : Export} {c : Category} (hc : x.category = c.name)
    (id : EntryId) (now : Timestamp) :
    s.call (.exportData x id now) =
      if x.payload.category ≠ c then (some (.error (.payloadMismatch c x.payload.category)), s)
      else if !x.payload.isFinite then (some (.error (.nonFiniteValue c)), s)
      else if id ∈ s.issued then (none, s)
      else if s.nextSequence.toNat + 1 = UInt64.size then (none, s.issue id)
      else (some (.ok id), s.takeIn (s.newEntry id now x.tab c x.payload x.metadata)) := by
  simp only [call, exportData, hc, Category.parse_name, insert_eq]
  split_ifs <;> rfl

/-- An export that is refused is refused by every hub alike, whatever id and time it is given. -/
theorem call_export_refused {x : Export} (h : x.draws = false) :
    ∃ e, ∀ (s : Store) (id : EntryId) (now : Timestamp),
      s.call (.exportData x id now) = (some (.error e), s) := by
  rcases Category.parse_cases x.category with ⟨c, hc⟩ | ⟨-, hname⟩
  · by_cases hcategory : x.payload.category = c
    · have hfinite : x.payload.isFinite = false := by
        simpa [Export.draws, hc, hcategory] using h
      refine ⟨.nonFiniteValue c, fun s id now => ?_⟩
      rw [call_export s hc, if_neg (not_not.mpr hcategory), if_pos (by simp [hfinite])]
    · refine ⟨.payloadMismatch c x.payload.category, fun s id now => ?_⟩
      rw [call_export s hc, if_pos hcategory]
  · exact ⟨_, fun s id now => call_export_unknown s hname id now⟩

/-- An export that is not refused is stored, as long as its id has not been issued and the
numbers last. -/
theorem call_export_drawn {s : Store} {x : Export} (h : x.draws = true) {id : EntryId}
    (now : Timestamp) (hfresh : id ∉ s.issued) (hroom : s.nextSequence.toNat + 1 ≠ UInt64.size) :
    s.call (.exportData x id now) = (some (.ok id),
      s.takeIn (s.newEntry id now x.tab x.payload.category x.payload x.metadata)) := by
  rcases Category.parse_cases x.category with ⟨c, hc⟩ | ⟨hnone, -⟩
  · obtain ⟨rfl, hfinite⟩ : x.payload.category = c ∧ x.payload.isFinite = true := by
      simpa [Export.draws, hc] using h
    rw [call_export s hc, if_neg (not_not.mpr rfl), if_neg (by simp [hfinite]),
      if_neg hfresh, if_neg hroom]
  · simp [Export.draws, hnone] at h

/-- An export that is stored announces the entry that it has inserted. -/
theorem exportData_eq_stored {s : Store} {x : Export} {id : EntryId} {now : Timestamp}
    {effect : Effect EntryId} (h : s.exportData x id now = .stored effect) :
    ∃ c e, s.insert id now x.tab c x.payload x.metadata = .stored e effect.store ∧
      effect.event = some (.entryCreated e c) ∧ effect.answer = e.id := by
  rcases Category.parse_cases x.category with ⟨c, hc⟩ | ⟨-, hname⟩
  · rw [exportData, hc, Category.parse_name] at h
    cases hinsert : s.insert id now x.tab c x.payload x.metadata with
    | stored e s' =>
      simp only [hinsert, ExportResult.stored.injEq] at h
      subst h
      exact ⟨c, e, hinsert, rfl, rfl⟩
    | refused e => simp [hinsert] at h
    | taken => simp [hinsert] at h
    | exhausted s' => simp [hinsert] at h
  · simp [exportData_unknown s hname] at h

theorem exportData_eq_exhausted {s s' : Store} {x : Export} {id : EntryId} {now : Timestamp}
    (h : s.exportData x id now = .exhausted s') :
    ∃ c, s.insert id now x.tab c x.payload x.metadata = .exhausted s' := by
  rcases Category.parse_cases x.category with ⟨c, hc⟩ | ⟨-, hname⟩
  · rw [exportData, hc, Category.parse_name] at h
    cases hinsert : s.insert id now x.tab c x.payload x.metadata with
    | exhausted t => exact ⟨c, by simpa [hinsert] using h⟩
    | refused e => simp [hinsert] at h
    | taken => simp [hinsert] at h
    | stored e t => simp [hinsert] at h
  · simp [exportData_unknown s hname] at h

/-- What comes of an export that draws ids is what comes of it under the last one of them. -/
theorem exportDrawing_eq_some {s : Store} {x : Export} {ids : Nat → EntryId} {now : Timestamp}
    {patience drawn : Nat} {result : ExportResult × Nat}
    (h : s.exportDrawing x ids now patience drawn = some result) :
    ∃ id, s.exportData x id now = result.1 := by
  induction patience generalizing drawn with
  | zero => simp [exportDrawing] at h
  | succ patience ih =>
    rw [exportDrawing] at h
    cases hresult : s.exportData x (ids drawn) now with
    | redraw =>
      rw [hresult] at h
      exact ih h
    | refused | exhausted | stored =>
      rw [hresult] at h
      obtain rfl := Option.some.inj h
      exact ⟨_, hresult⟩

theorem steps_call (s : Store) (k : Call) : s.Steps (s.call k).2 := by
  cases k with
  | request q => exact steps_answer s q
  | exportData x id now =>
    simp only [call]
    cases h : s.exportData x id now with
    | refused e => exact .refl s
    | redraw => exact .refl s
    | exhausted s' =>
      obtain ⟨c, hinsert⟩ := exportData_eq_exhausted h
      exact (step_of_exhausted hinsert).steps
    | stored effect =>
      obtain ⟨c, e, hinsert, -⟩ := exportData_eq_stored h
      exact (step_of_stored hinsert).steps

/-- The store after a run of calls. -/
def afterCalls (s : Store) (calls : List Call) : Store := calls.foldl (fun s k => (s.call k).2) s

theorem steps_afterCalls (s : Store) (calls : List Call) : s.Steps (s.afterCalls calls) := by
  induction calls generalizing s with
  | nil => exact .refl s
  | cons k rest ih => exact (steps_call s k).trans (ih _)

theorem isSound_afterCalls (calls : List Call) : (empty.afterCalls calls).IsSound :=
  IsSound.empty.steps (steps_afterCalls empty calls)

end Store
end LabExchange
