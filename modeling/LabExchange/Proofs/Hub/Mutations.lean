import LabExchange.Proofs.Hub.History

/-!
# What events say of the entries

An event other than a request to use an entry says how the lists of a hub have changed. Each call
that changes them raises the event that says so, with the exception of restorations, and no other
call raises such an event.
-/
namespace LabExchange

/-- The lists that come of others when an event is taken at its word: what has been created stands
last in its category, and what has been removed or cleared is gone. -/
def HubEvent.replay (lists : PerCategory (List Entry)) : HubEvent → PerCategory (List Entry)
  | entryCreated e c => lists.set c (lists.get c ++ [e])
  | entryRemoved e _ => .ofFn fun c => (lists.get c).filter fun f => !(f.id == e.id)
  | entriesCleared (.category c) => lists.set c []
  | entriesCleared .all => .ofFn fun _ => []
  | useData .. => lists

/-- An event says that entries have changed. -/
def HubEvent.tells (event : HubEvent) : Prop := event.kind ∈ World.watchedKinds

/-- Every event does but a request to use an entry. -/
theorem HubEvent.tells_iff {event : HubEvent} :
    event.tells ↔ ∀ e target, event ≠ .useData e target := by
  cases event <;> simp [tells, kind, World.watchedKinds]

namespace Store

variable {s : Store}

/-- The events that requests about the entries raise. -/
inductive Raises (s : Store) : StoreRequest → HubEvent → Prop
  | removed {c : Category} {e : Entry} (h : s.find? c e.id = some e) :
      Raises s (.remove c.name e.id) (.entryRemoved e c)
  | cleared (c : Category) : Raises s (.clear c.name) (.entriesCleared (.category c))
  | clearedAll : Raises s .clearAll (.entriesCleared .all)
  | used {c : Category} {id : EntryId} {e : Entry} (target : Category)
      (h : s.find? c id = some e) : Raises s (.requestUse c.name id target.name) (.useData e target)

theorem raises_of_event {q : StoreRequest} {event : HubEvent}
    (h : (s.answer q).event = some event) : s.Raises q event := by
  cases q with
  | remove name id =>
    obtain ⟨c, rfl, hremove⟩ := exists_category_of_event h
    cases hfind : s.find? c id with
    | none => simp [removeEntry, remove?, hfind] at hremove
    | some e =>
      obtain ⟨-, rfl⟩ := mem_of_find? hfind
      obtain rfl : HubEvent.entryRemoved e c = event := by
        simpa [removeEntry, remove?, hfind] using hremove
      exact .removed hfind
  | requestUse name id target =>
    obtain ⟨c, rfl, hcategory⟩ := exists_category_of_event h
    obtain ⟨d, rfl, huse⟩ := exists_category_of_event hcategory
    cases hfind : s.find? c id with
    | none => simp [requestUse, reply, hfind] at huse
    | some e =>
      obtain rfl : HubEvent.useData e d = event := by simpa [requestUse, hfind] using huse
      exact .used d hfind
  | clear name =>
    obtain ⟨c, rfl, hclear⟩ := exists_category_of_event h
    obtain rfl := Option.some.inj hclear
    exact .cleared c
  | clearAll =>
    obtain rfl := Option.some.inj h
    exact .clearedAll
  | importData | importAll | getEntry | getLatest | list =>
    obtain ⟨c, -, hnone⟩ := exists_category_of_event h
    contradiction
  | listAll | counts | query | restore => contradiction

/-- A request to use an entry raises nothing but an event of its kind. -/
theorem not_tells_of_requestUse {name target : String} {id : EntryId} {event : HubEvent}
    (h : (s.answer (.requestUse name id target)).event = some event) : ¬event.tells := by
  have hraises := raises_of_event h
  generalize hq : StoreRequest.requestUse name id target = q at hraises
  cases hraises with
  | used d hfind => exact fun htells => HubEvent.tells_iff.mp htells _ _ rfl
  | removed | cleared | clearedAll => contradiction

/-- In a sound store an entry with an id is in one list only, and removing it there leaves none
with the id anywhere. -/
theorem IsSound.lists_removeEntry (hs : s.IsSound) {c : Category} {e : Entry}
    (h : s.find? c e.id = some e) :
    (s.removeEntry c e.id).store.lists = (HubEvent.entryRemoved e c).replay s.lists := by
  rw [removeEntry_store]
  refine PerCategory.ext_get fun d => ?_
  rw [HubEvent.replay, PerCategory.get_ofFn, Store.withLists, PerCategory.get_set]
  split
  · next hd =>
    rw [eraseP_eq_filter (hs.entries_nodup c), hd]
    rfl
  · next hd =>
    refine (List.filter_eq_self.mpr fun f hf => ?_).symm
    have hmem := (mem_of_find? h).1
    have hne : f.id ≠ e.id := by
      intro hid
      obtain rfl := hs.eq_of_id_eq (mem_toList.mpr ⟨d, hf⟩) (mem_toList.mpr ⟨c, hmem⟩) hid
      exact hd ((hs.filed d f hf).symm.trans (hs.filed c f hmem))
    simpa using hne

/-- The event of a request says how the lists have changed. -/
theorem Raises.lists_eq {q : StoreRequest} {event : HubEvent} (h : s.Raises q event)
    (hs : s.IsSound) : (s.answer q).store.lists = event.replay s.lists := by
  cases h with
  | removed hfind =>
    rw [answer, inCategory_name]
    exact hs.lists_removeEntry hfind
  | cleared c =>
    rw [answer, inCategory_name]
    rfl
  | clearedAll => rfl
  | used target hfind =>
    rw [store_answer_of_reads s rfl]
    rfl

/-- A request that raises no event leaves the lists, unless it is a restoration. -/
theorem lists_answer_of_silent {q : StoreRequest} (h : (s.answer q).event = none)
    (hq : ∀ snapshot, q ≠ .restore snapshot) : (s.answer q).store.lists = s.lists := by
  cases q with
  | remove name id =>
    rcases Category.parse_cases name with ⟨c, rfl⟩ | ⟨-, hname⟩
    · rw [answer, inCategory_name] at h ⊢
      unfold removeEntry at h ⊢
      cases hremove : s.remove? c id with
      | none => rfl
      | some r =>
        rw [hremove] at h
        contradiction
    · rw [answer, inCategory_unknown s hname]
      rfl
  | clear name =>
    rcases Category.parse_cases name with ⟨c, rfl⟩ | ⟨-, hname⟩
    · rw [answer, inCategory_name] at h
      contradiction
    · rw [answer, inCategory_unknown s hname]
      rfl
  | clearAll => contradiction
  | restore snapshot => exact absurd rfl (hq snapshot)
  | importData | importAll | getEntry | getLatest | list | listAll | counts | query | requestUse =>
    rw [store_answer_of_reads s rfl]

/-- A request changes the lists only if it is a restoration or raises an event that tells so. -/
theorem lists_answer {q : StoreRequest} (hq : ∀ snapshot, q ≠ .restore snapshot)
    (htells : ∀ event, (s.answer q).event = some event → ¬event.tells) :
    (s.answer q).store.lists = s.lists := by
  cases hevent : (s.answer q).event with
  | none => exact lists_answer_of_silent hevent hq
  | some event =>
    have hnot := htells event hevent
    cases raises_of_event hevent with
    | used =>
      rw [store_answer_of_reads s rfl]
    | removed | cleared | clearedAll => exact absurd (HubEvent.tells_iff.mpr (by simp)) hnot

/-- What is known of an export that is stored. -/
theorem exists_entry_of_stored {x : Export} {id : EntryId} {now : Timestamp}
    {effect : Effect EntryId} (h : s.exportData x id now = .stored effect) :
    ∃ e, x.category = e.category.name ∧ effect.event = some (.entryCreated e e.category) ∧
      effect.answer = e.id ∧ effect.store = s.takeIn e ∧
      e = s.newEntry id now x.tab e.category x.payload x.metadata ∧ id ∉ s.issued ∧
      s.nextSequence.toNat + 1 ≠ UInt64.size := by
  rcases Category.parse_cases x.category with ⟨c, hc⟩ | ⟨-, hname⟩
  · rw [exportData, hc, Category.parse_name] at h
    cases hinsert : s.insert id now x.tab c x.payload x.metadata with
    | stored e s' =>
      obtain ⟨rfl, rfl, -, -, hfresh, hroom⟩ := insert_eq_stored hinsert
      simp only [hinsert, ExportResult.stored.injEq] at h
      subst h
      exact ⟨_, hc, rfl, rfl, rfl, rfl, hfresh, hroom⟩
    | refused e => simp [hinsert] at h
    | taken => simp [hinsert] at h
    | exhausted s' => simp [hinsert] at h
  · simp [exportData_unknown s hname] at h

theorem lists_takeIn (s : Store) (e : Entry) :
    (s.takeIn e).lists = (HubEvent.entryCreated e e.category).replay s.lists := rfl

end Store

/-- An export that gives an id has stored a new entry under it. -/
theorem World.exists_newEntry_of_export {σ : Type} {w : World σ} {hub : Nat} {h : Hub σ}
    {supply : Supply} {patience : Nat} {x : Store.Export} {id : EntryId}
    (hhub : w.hub? hub = some h)
    (hgives : (w.reply supply patience (.exportData hub x)).Gives (some (.ok id))) :
    ∃ c, c.name = x.category ∧
      ((w.reply supply patience (.exportData hub x)).world w).store? hub = some (h.store.takeIn
        (h.store.newEntry id (supply.time w.drawnTimes) x.tab c x.payload x.metadata)) := by
  have hreply : w.reply supply patience (.exportData hub x) =
      w.exportReply supply patience hub h x := withHub_of_hub? hhub _
  rw [hreply] at hgives ⊢
  have hcases := ofExport_exportReply supply patience w hub h x
  generalize w.exportReply supply patience hub h x = reply at hgives hcases ⊢
  cases hcases with
  | waiting | exhausted => exact hgives.elim
  | refused e => exact absurd (Option.some.inj hgives) nofun
  | @stored drawnId _ _ _ drawn hexport hevent =>
    obtain ⟨e, hcategory, -, hanswer, hstore, hnew, -⟩ := Store.exists_entry_of_stored hexport
    obtain ⟨_, hid⟩ := hgives
    obtain rfl : e.id = id := hanswer.symm.trans (Except.ok.inj (Option.some.inj hid))
    have hdrawn : e.id = drawnId := congrArg Entry.id hnew
    rw [← hdrawn] at hnew
    refine ⟨e.category, hcategory.symm, ?_⟩
    rw [← hstore.trans (congrArg h.store.takeIn hnew)]
    exact store?_of_hub? (hub?_setStore hhub _)

end LabExchange
