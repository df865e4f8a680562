import LabExchange.Proofs.Hub.Lineage

/-!
# What an id stands for

Throughout the life of a hub an id stands for one entry at most. All that requests show of the
entries has been in the store at their moment, and a store that has come from another one by its
steps has no new entry under an old id.
-/
namespace LabExchange

/-- What is shown of one entry, in an answer or by an event. -/
inductive Sighting where
  | entry (e : Entry)
  /-- An entry, as one of a category. -/
  | filed (category : String) (e : Entry)
  | payload (category : String) (id : EntryId) (payload : Payload)
  | summary (s : EntrySummary)

namespace Sighting

def id : Sighting → EntryId
  | entry e | filed _ e => e.id
  | payload _ id _ => id
  | summary s => s.id

/-- All that is shown is as it is with an entry. -/
def Fits (e : Entry) : Sighting → Prop
  | entry f => f = e
  | filed name f => f = e ∧ name = e.category.name
  | payload name id p => id = e.id ∧ name = e.category.name ∧ p = e.payload
  | summary s => s = .ofEntry e

theorem Fits.id_eq {e : Entry} : {x : Sighting} → x.Fits e → x.id = e.id
  | .entry _, h => congrArg Entry.id h
  | .filed .., h => congrArg Entry.id h.1
  | .payload .., h => h.1
  | .summary _, h => congrArg EntrySummary.id h

end Sighting

/-- What an answer shows. -/
def StoreRequest.sightings : (q : StoreRequest) → q.Answer → List Sighting
  | importData name id, answer => (answer.toOption.join.map (.payload name id)).toList
  | getEntry name _, answer => (answer.toOption.join.map (.filed name)).toList
  | getLatest name, answer => (answer.toOption.join.map (.filed name)).toList
  | list _, answer => (answer.toOption.getD []).map .summary
  | listAll, answer => answer.map .summary
  | query _, answer => answer.map .summary
  | importAll _, _ | remove .., _ | clear _, _ | clearAll, _ | counts, _ | requestUse .., _
  | restore _, _ => []

/-- What an event shows. -/
def HubEvent.sightings : HubEvent → List Sighting
  | entryCreated e c | entryRemoved e c => [.filed c.name e]
  | entriesCleared _ => []
  | useData e _ => [.entry e]

namespace Moment

variable {σ : Type}

/-- What a request shows of the entries of a hub: in its answer, or by the event that it raises.
An event that a program has made up itself is not counted. -/
inductive Shows (hub : Nat) : Moment σ → Sighting → Prop
  | answer {w : World σ} {q : StoreRequest} {reply : Reply σ (Option q.Answer)} {a : q.Answer}
      {x : Sighting} (h : reply.Gives (some a)) (hx : x ∈ q.sightings a) :
      Shows hub ⟨w, .store hub q, reply⟩ x
  | snapshot {w : World σ} {reply : Reply σ (Option Snapshot)} {snapshot : Snapshot} {e : Entry}
      (h : reply.Gives (some snapshot)) (he : e ∈ snapshot.entries) :
      Shows hub ⟨w, .snapshot hub, reply⟩ (.entry e)
  | event {w w' : World σ} {r : Request} {event : HubEvent} {answer : DispatchReport → r.Answer}
      {x : Sighting} (hr : ∀ event, r ≠ .emit hub event) (hx : x ∈ event.sightings) :
      Shows hub ⟨w, r, .raises hub event answer w'⟩ x

/-- An entry is in a hub when a request is made, or when it has been carried out. -/
def Has (hub : Nat) (e : Entry) (m : Moment σ) : Prop :=
  m.before.Holds hub e ∨ m.after.Holds hub e

/-- A request to remove an entry is answered with yes. -/
inductive Removes (hub : Nat) (id : EntryId) : Moment σ → Prop
  | intro {w : World σ} {name : String} {reply : Reply σ (Option (Except HubError Bool))}
      (h : reply.Gives (some (.ok true))) : Removes hub id ⟨w, .store hub (.remove name id), reply⟩

end Moment

/-! ## What one request shows -/

namespace Store

theorem mem_of_find? {s : Store} {c : Category} {id : EntryId} {e : Entry}
    (h : s.find? c id = some e) : e ∈ s.entries c ∧ e.id = id :=
  ⟨List.mem_of_find?_eq_some h, by simpa using List.find?_some h⟩

theorem mem_of_latest? {s : Store} {c : Category} {e : Entry} (h : s.latest? c = some e) :
    e ∈ s.entries c := List.mem_of_getLast? h

/-- An entry that is removed is not in the store any more. -/
theorem IsSound.not_mem_removeEntry {s : Store} (hs : s.IsSound) {c : Category} {id : EntryId}
    {e : Entry} (h : s.find? c id = some e) : e ∉ (s.removeEntry c id).store.toList := by
  obtain ⟨he, rfl⟩ := mem_of_find? h
  rw [removeEntry_store, mem_toList]
  rintro ⟨d, hmem⟩
  change e ∈ (s.lists.set c _).get d at hmem
  rw [PerCategory.get_set] at hmem
  split at hmem
  · rw [eraseP_eq_filter (hs.entries_nodup c)] at hmem
    simpa using (List.mem_filter.mp hmem).2
  · next hd => exact hd ((hs.filed d e hmem).symm.trans (hs.filed c e he))

/-- What an answer shows is shown of a category that exists, if nothing is shown of an error. -/
theorem exists_category_of_mem {α : Type} {s : Store} {name : String}
    {f : Category → Effect (Except HubError α)} {g : Except HubError α → List Sighting}
    (hg : ∀ e, g (.error e) = []) {x : Sighting} (hx : x ∈ g (s.inCategory name f).answer) :
    ∃ c, name = c.name ∧ x ∈ g (f c).answer := by
  rcases Category.parse_cases name with ⟨c, rfl⟩ | ⟨-, hname⟩
  · rw [inCategory_name] at hx
    exact ⟨c, rfl, hx⟩
  · rw [inCategory_unknown s hname, reply, hg] at hx
    exact absurd hx List.not_mem_nil

/-- A listing of entries that are there shows such entries. -/
theorem fits_summary {s : Store} {l : List Entry} (hl : l ⊆ s.toList) {x : Sighting}
    (hx : x ∈ (l.map EntrySummary.ofEntry).map .summary) : ∃ e ∈ s.toList, x.Fits e := by
  obtain ⟨summary, hmem, rfl⟩ := List.mem_map.mp hx
  obtain ⟨e, he, rfl⟩ := List.mem_map.mp hmem
  exact ⟨e, hl he, rfl⟩

/-- An entry of a category is shown as one of it. -/
theorem IsSound.fits_filed {s : Store} (hs : s.IsSound) {c : Category} {e : Entry}
    (he : e ∈ s.entries c) : ∃ f ∈ s.toList, (Sighting.filed c.name e).Fits f :=
  ⟨e, mem_toList.mpr ⟨c, he⟩, rfl, congrArg Category.name (hs.filed c e he).symm⟩

/-- An answer shows entries that are there. -/
theorem IsSound.fits_answer {s : Store} (hs : s.IsSound) (q : StoreRequest) {x : Sighting}
    (hx : x ∈ q.sightings (s.answer q).answer) : ∃ e ∈ s.toList, x.Fits e := by
  cases q with
  | importData name id =>
    obtain ⟨c, rfl, hx⟩ := exists_category_of_mem
      (g := (StoreRequest.importData name id).sightings) (fun _ => rfl) hx
    obtain ⟨p, hp, rfl⟩ := Option.map_eq_some_iff.mp (Option.mem_toList.mp hx)
    obtain ⟨e, hfind, rfl⟩ := Option.map_eq_some_iff.mp hp
    obtain ⟨he, rfl⟩ := mem_of_find? hfind
    exact ⟨e, mem_toList.mpr ⟨c, he⟩, rfl, congrArg Category.name (hs.filed c e he).symm, rfl⟩
  | getEntry name id =>
    obtain ⟨c, rfl, hx⟩ := exists_category_of_mem
      (g := (StoreRequest.getEntry name id).sightings) (fun _ => rfl) hx
    obtain ⟨e, hfind, rfl⟩ := Option.map_eq_some_iff.mp (Option.mem_toList.mp hx)
    exact hs.fits_filed (mem_of_find? hfind).1
  | getLatest name =>
    obtain ⟨c, rfl, hx⟩ := exists_category_of_mem
      (g := (StoreRequest.getLatest name).sightings) (fun _ => rfl) hx
    obtain ⟨e, hlatest, rfl⟩ := Option.map_eq_some_iff.mp (Option.mem_toList.mp hx)
    exact hs.fits_filed (mem_of_latest? hlatest)
  | list name =>
    obtain ⟨c, rfl, hx⟩ := exists_category_of_mem
      (g := (StoreRequest.list name).sightings) (fun _ => rfl) hx
    exact fits_summary (fun e he => mem_toList.mpr ⟨c, he⟩) hx
  | listAll => exact fits_summary (fun e he => List.mem_mergeSort.mp he) hx
  | query f =>
    exact fits_summary (fun e he => (List.mem_filter.mp (List.mem_mergeSort.mp he)).1) hx
  | importAll | remove | clear | clearAll | counts | requestUse | restore =>
    exact absurd hx List.not_mem_nil

theorem exists_category_of_event {α : Type} {s : Store} {name : String}
    {f : Category → Effect (Except HubError α)} {event : HubEvent}
    (h : (s.inCategory name f).event = some event) :
    ∃ c, name = c.name ∧ (f c).event = some event := by
  rcases Category.parse_cases name with ⟨c, rfl⟩ | ⟨-, hname⟩
  · rw [inCategory_name] at h
    exact ⟨c, rfl, h⟩
  · rw [inCategory_unknown s hname] at h
    contradiction

/-- The event of a request about the entries shows one that is there. -/
theorem IsSound.fits_event {s : Store} (hs : s.IsSound) (q : StoreRequest) {event : HubEvent}
    (hevent : (s.answer q).event = some event) {x : Sighting} (hx : x ∈ event.sightings) :
    ∃ e ∈ s.toList, x.Fits e := by
  cases q with
  | remove name id =>
    obtain ⟨c, -, hevent⟩ := exists_category_of_event hevent
    unfold removeEntry at hevent
    cases hremove : s.remove? c id with
    | none =>
      rw [hremove] at hevent
      contradiction
    | some r =>
      rw [hremove] at hevent
      obtain rfl := Option.some.inj hevent
      obtain rfl := List.mem_singleton.mp hx
      exact hs.fits_filed (mem_of_find? (remove?_eq_some.mp hremove).1).1
  | requestUse name id target =>
    obtain ⟨c, -, hevent⟩ := exists_category_of_event hevent
    obtain ⟨d, -, hevent⟩ := exists_category_of_event hevent
    unfold requestUse at hevent
    cases hfind : s.find? c id with
    | none =>
      rw [hfind] at hevent
      contradiction
    | some e =>
      rw [hfind] at hevent
      obtain rfl := Option.some.inj hevent
      obtain rfl := List.mem_singleton.mp hx
      exact ⟨e, mem_toList.mpr ⟨c, (mem_of_find? hfind).1⟩, rfl⟩
  | clear name =>
    obtain ⟨c, -, hevent⟩ := exists_category_of_event hevent
    obtain rfl := Option.some.inj hevent
    exact absurd hx List.not_mem_nil
  | clearAll =>
    obtain rfl := Option.some.inj hevent
    exact absurd hx List.not_mem_nil
  | importData | importAll | getEntry | getLatest | list =>
    obtain ⟨c, -, hevent⟩ := exists_category_of_event hevent
    contradiction
  | listAll | counts | query | restore => contradiction

/-- The event of an export shows the entry that is there from then on. -/
theorem fits_export_event {s : Store} {x : Export} {id : EntryId} {now : Timestamp}
    {effect : Effect EntryId} (h : s.exportData x id now = .stored effect) {event : HubEvent}
    (hevent : effect.event = some event) {y : Sighting} (hy : y ∈ event.sightings) :
    ∃ e ∈ effect.store.toList, y.Fits e := by
  obtain ⟨c, e, hinsert, heq, -⟩ := exportData_eq_stored h
  obtain rfl := Option.some.inj (hevent.symm.trans heq)
  obtain rfl := List.mem_singleton.mp hy
  obtain ⟨rfl, hstore, -⟩ := insert_eq_stored hinsert
  rw [hstore]
  exact ⟨_, mem_toList_takeIn.mpr (.inl rfl), rfl, rfl⟩

end Store

namespace Moment

variable {σ : Type} {m : Moment σ} {supply : Supply} {hub : Nat}

/-- What is shown of an entry is so with an entry that is there at the moment. -/
theorem Shows.fits {x : Sighting} (h : m.Shows hub x) (hm : m.IsReply supply)
    (hsound : ∀ s, m.before.store? hub = some s → s.IsSound) :
    ∃ e, m.Has hub e ∧ x.Fits e := by
  obtain ⟨patience, hreply⟩ := hm
  cases h with
  | answer h hx =>
    dsimp only at hreply
    rw [← hreply] at h
    obtain ⟨g, hhub, hgives⟩ := World.withHub_gives h
    obtain rfl := World.storeReply_gives hgives
    have hstore := World.store?_of_hub? hhub
    obtain ⟨e, he, hfits⟩ := (hsound _ hstore).fits_answer _ hx
    exact ⟨e, .inl ⟨_, hstore, he⟩, hfits⟩
  | snapshot h he =>
    dsimp only at hreply
    rw [← hreply] at h
    obtain ⟨g, hhub, hgives⟩ := World.withHub_gives h
    obtain rfl := Option.some.inj hgives
    exact ⟨_, .inl ⟨_, World.store?_of_hub? hhub, he⟩, rfl⟩
  | event hr hx =>
    obtain ⟨s, hstore, ⟨q, hevent⟩ | ⟨y, id, now, effect, hstored, hevent, hafter⟩⟩ :=
      World.reply_eq_raises hreply hr
    · obtain ⟨e, he, hfits⟩ := (hsound s hstore).fits_event q hevent hx
      exact ⟨e, .inl ⟨s, hstore, he⟩, hfits⟩
    · obtain ⟨e, he, hfits⟩ := Store.fits_export_event hstored hevent hx
      exact ⟨e, .inr ⟨_, hafter, he⟩, hfits⟩

/-- An entry that is removed was there, and is there no longer. -/
theorem Removes.lost {id : EntryId} (h : m.Removes hub id) (hm : m.IsReply supply)
    (hsound : ∀ s, m.before.store? hub = some s → s.IsSound) :
    ∃ e, e.id = id ∧ m.before.Holds hub e ∧ ¬m.after.Holds hub e := by
  obtain ⟨patience, hreply⟩ := hm
  obtain @⟨w, name, reply, h⟩ := h
  dsimp only at hreply
  subst hreply
  obtain ⟨g, hhub, hgives⟩ := World.withHub_gives h
  have hreply : w.reply supply patience (.store hub (.remove name id)) =
      w.storeReply hub g (.remove name id) := World.withHub_of_hub? hhub _
  have hanswer := World.storeReply_gives (q := .remove name id) hgives
  have hstore := World.store?_of_hub? hhub
  rcases Category.parse_cases name with ⟨c, rfl⟩ | ⟨-, hname⟩
  · rw [Store.answer, Store.inCategory_name, Store.removeEntry_answer] at hanswer
    obtain ⟨e, hfind⟩ := Option.isSome_iff_exists.mp (Except.ok.inj hanswer).symm
    obtain ⟨hmem, rfl⟩ := Store.mem_of_find? hfind
    refine ⟨e, rfl, ⟨_, hstore, Store.mem_toList.mpr ⟨c, hmem⟩⟩, ?_⟩
    rintro ⟨s', hs', hmem'⟩
    have hafter := World.store?_storeReply hhub (.remove c.name e.id)
    rw [← hreply] at hafter
    obtain rfl := Option.some.inj (hafter.symm.trans hs')
    rw [Store.answer, Store.inCategory_name] at hmem'
    exact (hsound _ hstore).not_mem_removeEntry hfind hmem'
  · rw [Store.answer, Store.inCategory_unknown _ hname] at hanswer
    contradiction

end Moment

/-! ## Runs -/

/-- No id stands for different entries of a hub in two worlds. -/
def World.Agrees {σ : Type} (hub : Nat) (v v' : World σ) : Prop :=
  ∀ e f, v.Holds hub e → v'.Holds hub f → e.id = f.id → e = f

theorem World.Agrees.symm {σ : Type} {hub : Nat} {v v' : World σ} (h : v.Agrees hub v') :
    v'.Agrees hub v := fun e f he hf hid => (h f e hf he hid.symm).symm

namespace Machine

variable {σ : Type} {supply : Supply} {hub : Nat} {w : World σ} {t : List (Moment σ)}

theorem before_mem_worlds {a : Moment σ} (ha : a ∈ t) : a.before ∈ worlds t :=
  List.mem_flatMap.mpr ⟨a, ha, List.mem_cons_self⟩

theorem after_mem_worlds {a : Moment σ} (ha : a ∈ t) : a.after ∈ worlds t :=
  List.mem_flatMap.mpr ⟨a, ha, List.mem_cons_of_mem _ (List.mem_singleton_self _)⟩

theorem exists_world_of_has {a : Moment σ} (ha : a ∈ t) {e : Entry} (h : a.Has hub e) :
    ∃ v ∈ worlds t, v.Holds hub e := by
  rcases h with hbefore | hafter
  · exact ⟨_, before_mem_worlds ha, hbefore⟩
  · exact ⟨_, after_mem_worlds ha, hafter⟩

namespace IsHistory

theorem isSound (h : IsHistory supply hub w t) (hw : ∀ s, w.store? hub = some s → s.IsSound)
    {v : World σ} (hv : v ∈ worlds t) {s : Store} (hs : v.store? hub = some s) : s.IsSound := by
  obtain ⟨s₀, hs₀, hsteps⟩ := (List.pairwise_cons.mp h.ordered).1 v hv s hs
  exact (hw s₀ hs₀).steps hsteps

/-- At no two moments does an id stand for different entries. -/
theorem agree (h : IsHistory supply hub w t) (hw : ∀ s, w.store? hub = some s → s.IsSound)
    {v v' : World σ} (hv : v ∈ worlds t) (hv' : v' ∈ worlds t) : v.Agrees hub v' := by
  have hself : ∀ v ∈ worlds t, v.Agrees hub v := by
    rintro v hv e f ⟨s, hs, he⟩ ⟨s', hs', hf⟩ hid
    obtain rfl : s = s' := Option.some.inj (hs.symm.trans hs')
    exact (h.isSound hw hv hs).eq_of_id_eq he hf hid
  have hlater : (worlds t).Pairwise (World.Agrees hub) := by
    refine (List.pairwise_cons.mp h.ordered).2.imp_of_mem fun hv _ hleads => ?_
    rintro e f ⟨s, hs, he⟩ ⟨s', hs', hf⟩ hid
    obtain ⟨s'', hs'', hsteps⟩ := hleads s' hs'
    obtain rfl : s = s'' := Option.some.inj (hs.symm.trans hs'')
    exact (h.isSound hw hv hs).eq_of_steps hsteps he hf hid
  exact hlater.forall_of_forall_of_flip hself (hlater.imp World.Agrees.symm) hv hv'

/-- An entry that is not there any more after a request is not there at any later moment. -/
theorem not_holds_of_lost {pre post : List (Moment σ)} {b : Moment σ}
    (h : IsHistory supply hub w (pre ++ b :: post))
    (hw : ∀ s, w.store? hub = some s → s.IsSound) {v v' : World σ} {e : Entry}
    (hv : v ∈ worlds (pre ++ [b])) (he : v.Holds hub e) (hlost : ¬b.after.Holds hub e)
    (hv' : v' ∈ worlds post) : ¬v'.Holds hub e := by
  rintro ⟨s'', hs'', hback⟩
  have hsplit :
      worlds (pre ++ b :: post) = (worlds pre ++ [b.before]) ++ b.after :: worlds post := by
    simp [worlds]
  have hsplit' : worlds (pre ++ [b]) = (worlds pre ++ [b.before]) ++ [b.after] := by
    simp [worlds]
  have hordered := (List.pairwise_cons.mp h.ordered).2
  rw [hsplit] at hordered
  obtain ⟨-, hrest, hacross⟩ := List.pairwise_append.mp hordered
  rw [hsplit'] at hv
  rcases List.mem_append.mp hv with hearlier | hnow
  · obtain ⟨s', hs', hsteps'⟩ := (List.pairwise_cons.mp hrest).1 v' hv' s'' hs''
    obtain ⟨s, hs, hsteps⟩ := hacross v hearlier b.after List.mem_cons_self s' hs'
    obtain ⟨s₀, hs₀, hmem⟩ := he
    obtain rfl : s = s₀ := Option.some.inj (hs.symm.trans hs₀)
    have hv₀ : v ∈ worlds (pre ++ b :: post) := by
      rw [hsplit]
      exact List.mem_append_left _ hearlier
    refine (h.isSound hw hv₀ hs).not_mem_of_steps hsteps hsteps' hmem (fun hmem' => ?_) hback
    exact hlost ⟨s', hs', hmem'⟩
  · exact hlost (List.mem_singleton.mp hnow ▸ he)

/-- At no two moments does an id stand for different entries. -/
theorem eq_of_has (h : IsHistory supply hub w t) (hw : ∀ s, w.store? hub = some s → s.IsSound)
    {a b : Moment σ} (ha : a ∈ t) (hb : b ∈ t) {e f : Entry} (he : a.Has hub e) (hf : b.Has hub f)
    (hid : e.id = f.id) : e = f := by
  obtain ⟨v, hv, hve⟩ := exists_world_of_has ha he
  obtain ⟨v', hv', hvf⟩ := exists_world_of_has hb hf
  exact h.agree hw hv hv' e f hve hvf hid

/-- An entry that is not there any more after a request is not there at any later moment. -/
theorem not_has_of_lost {pre post : List (Moment σ)} {b : Moment σ}
    (h : IsHistory supply hub w (pre ++ b :: post))
    (hw : ∀ s, w.store? hub = some s → s.IsSound) {a c : Moment σ} {e : Entry}
    (ha : a ∈ pre ++ [b]) (he : a.Has hub e) (hlost : ¬b.after.Holds hub e) (hc : c ∈ post) :
    ¬c.Has hub e := by
  intro hback
  obtain ⟨v, hv, hve⟩ := exists_world_of_has ha he
  obtain ⟨v', hv', hve'⟩ := exists_world_of_has hc hback
  exact h.not_holds_of_lost hw hv hve hlost hv' hve'

/-- What is shown at a moment is so with an entry that is there at the moment. -/
theorem fits_of_shows (h : IsHistory supply hub w t) (hw : ∀ s, w.store? hub = some s → s.IsSound)
    {a : Moment σ} (ha : a ∈ t) {x : Sighting} (hx : a.Shows hub x) :
    ∃ e, a.Has hub e ∧ x.Fits e :=
  hx.fits (h.replies a ha) fun _ hs => h.isSound hw (before_mem_worlds ha) hs

theorem lost_of_removes (h : IsHistory supply hub w t)
    (hw : ∀ s, w.store? hub = some s → s.IsSound) {a : Moment σ} (ha : a ∈ t) {id : EntryId}
    (hid : a.Removes hub id) : ∃ e, e.id = id ∧ a.Has hub e ∧ ¬a.after.Holds hub e := by
  obtain ⟨e, heq, hbefore, hlost⟩ :=
    hid.lost (h.replies a ha) fun _ hs => h.isSound hw (before_mem_worlds ha) hs
  exact ⟨e, heq, .inl hbefore, hlost⟩

end IsHistory
end Machine

theorem World.isSound_new {σ : Type} {hubs hub : Nat} {files : Files} {memory : σ} {s : Store}
    (hs : (World.new hubs files memory).store? hub = some s) : s.IsSound := by
  obtain ⟨h, hhub, rfl⟩ := store?_eq_some.mp hs
  obtain rfl := hub?_new hhub
  exact .empty

/-- In the moments of a run the ids of a hub identify entries. -/
structure IdentifiesEntries {σ : Type} (hub : Nat) (t : List (Moment σ)) : Prop where
  /-- What shows the id of an entry that is there at some moment shows that entry. -/
  one : ∀ a ∈ t, ∀ e, a.Has hub e → ∀ b ∈ t, ∀ x, b.Shows hub x → x.id = e.id → x.Fits e
  /-- When an entry is not there any more after a request, nothing shows its id from then on. -/
  gone : ∀ pre b post, t = pre ++ b :: post → ∀ a ∈ pre ++ [b], ∀ e, a.Has hub e →
    ¬b.after.Holds hub e → ∀ c ∈ post, ∀ x, c.Shows hub x → x.id ≠ e.id
  /-- No id is removed twice. -/
  once : ∀ pre b post, t = pre ++ b :: post → ∀ id, b.Removes hub id →
    ∀ c ∈ post, ¬c.Removes hub id

/-- As long as a hub lives its ids identify entries, whatever programs and handlers do, and the
events that handlers are given are those of the moments of the run. -/
theorem identifiesEntries_of_runs {σ : Type} {supply : Supply} {hubs : Nat} {files : Files}
    {memory : σ} {p : Program σ} {t : List (Moment σ)} {m : Machine σ}
    (h : Machine.Runs supply ⟨.new hubs files memory, p, []⟩ t m) (hub : Nat) :
    IdentifiesEntries hub t ∧ ∀ d ∈ m.dispatches, Machine.RaisedIn t d := by
  refine ⟨?_, fun d hd => h.raisedIn hd⟩
  have hhistory := h.isHistory hub
  have hnew : ∀ s, (World.new hubs files memory).store? hub = some s → s.IsSound :=
    fun s hs => World.isSound_new hs
  refine ⟨fun a ha e he b hb x hx hid => ?_, ?_, ?_⟩
  · obtain ⟨f, hf, hfits⟩ := hhistory.fits_of_shows hnew hb hx
    obtain rfl := hhistory.eq_of_has hnew ha hb he hf (hid.symm.trans hfits.id_eq)
    exact hfits
  · rintro pre b post rfl a ha e he hlost c hc x hx hid
    have ha' : a ∈ pre ++ b :: post := by
      rw [List.append_cons]
      exact List.mem_append_left _ ha
    have hc' : c ∈ pre ++ b :: post := List.mem_append_right _ (List.mem_cons_of_mem _ hc)
    obtain ⟨f, hf, hfits⟩ := hhistory.fits_of_shows hnew hc' hx
    obtain rfl := hhistory.eq_of_has hnew ha' hc' he hf (hid.symm.trans hfits.id_eq)
    exact hhistory.not_has_of_lost hnew ha he hlost hc hf
  · rintro pre b post rfl id hb c hc hcid
    have hb' : b ∈ pre ++ b :: post := List.mem_append_right _ List.mem_cons_self
    have hc' : c ∈ pre ++ b :: post := List.mem_append_right _ (List.mem_cons_of_mem _ hc)
    obtain ⟨e, rfl, he, hlost⟩ := hhistory.lost_of_removes hnew hb' hb
    obtain ⟨f, hid, hf, -⟩ := hhistory.lost_of_removes hnew hc' hcid
    obtain rfl := hhistory.eq_of_has hnew hb' hc' he hf hid.symm
    exact hhistory.not_has_of_lost hnew (List.mem_append_right _ (List.mem_singleton_self b)) he
      hlost hc hf

/-- A hub on which an entry is exported, removed by a handler as soon as it is there, and then to
be removed once more. -/
def exportInVain : Machine Unit :=
  let handler : Handler Unit := fun event => match event with
    | .entryCreated e c => .request (.store 0 (.remove c.name e.id)) fun _ => .finish .succeeded
    | _ => .finish .succeeded
  let program : Program Unit := .subscribe 0 .entryCreated handler fun _ =>
    .request (.exportData 0 ⟨"plot", "functions", .function "x^2", none⟩) fun _ =>
      .request (.store 0 (.remove "functions" ⟨"a"⟩)) fun _ => .finish .succeeded
  ⟨.new 1 ⟨[], .empty⟩ (), program, []⟩

/-- Draws one and the same id again and again, with the clock standing still. -/
def standingSupply : Supply where
  id _ := ⟨"a"⟩
  time _ := .noon

theorem identifiesEntries_exportInVain :
    ∃ t m, Machine.Runs standingSupply exportInVain t m ∧ (∃ b ∈ t, b.Removes 0 ⟨"a"⟩) ∧
      IdentifiesEntries 0 t ∧ ∀ d ∈ m.dispatches, Machine.RaisedIn t d := by
  obtain ⟨t, m, hrun, hremoves⟩ :
      ∃ t m, Machine.Runs standingSupply exportInVain t m ∧ ∃ b ∈ t, b.Removes 0 ⟨"a"⟩ := by
    refine ⟨_, _, .step (.subscribed _ _ _ _ _ _) (.step (.raised 1 rfl) (.step (.raised 1 rfl)
      (.step (.handled _ _ _ _) (.step (.answered 1 rfl) (.refl _))))), ?_⟩
    exact ⟨_, List.mem_cons_of_mem _ List.mem_cons_self, .intro ⟨.empty, rfl⟩⟩
  exact ⟨t, m, hrun, hremoves, identifiesEntries_of_runs hrun 0⟩

end LabExchange
