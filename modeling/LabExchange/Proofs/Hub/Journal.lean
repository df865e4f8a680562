import LabExchange.Proofs.Hub.Changes

/-!
# A journal of changes

The requests that change the entries of a hub are those that raise an event which tells so, unless
a program has made the event up, and each of these events tells rightly how the lists have changed.
A journal of a run has one such event for each of these requests, in their order.
-/
namespace LabExchange

variable {σ : Type} {supply : Supply} {hub : Nat}

/-! ## Requests that change the entries -/

namespace Store

variable {s : Store}

theorem Raises.tells {q : StoreRequest} {event : HubEvent} (h : s.Raises q event)
    (hq : ∀ name id target, q ≠ .requestUse name id target) : event.tells := by
  cases h with
  | removed | cleared | clearedAll => exact HubEvent.tells_iff.mpr (by simp)
  | used => exact absurd rfl (hq _ _ _)

/-- A removal that is answered with yes raises an event. -/
theorem exists_event_of_removed {name : String} {id : EntryId}
    (h : (s.answer (.remove name id)).answer = .ok true) :
    ∃ event, (s.answer (.remove name id)).event = some event := by
  rcases Category.parse_cases name with ⟨c, rfl⟩ | ⟨-, hname⟩
  · rw [answer, inCategory_name] at h ⊢
    rw [removeEntry_answer] at h
    obtain ⟨e, hfind⟩ := Option.isSome_iff_exists.mp (Except.ok.inj h)
    simp [removeEntry, remove?, hfind]
  · rw [answer, inCategory_unknown s hname] at h
    contradiction

end Store

namespace World

variable {w w' : World σ} {patience i : Nat} {h : Hub σ}

theorem storeReply_gives_answer (w : World σ) (i : Nat) (h : Hub σ) (q : StoreRequest) :
    (w.storeReply i h q).Gives (some (h.store.answer q).answer) := by
  have hreply := ofRequest_storeReply w i h q
  generalize w.storeReply i h q = reply at hreply ⊢
  cases hreply with
  | answered => rfl
  | raised => exact ⟨.empty, rfl⟩

/-- An export that raises an event has stored the entry of which the event tells, under the id that
is the answer. -/
theorem exists_entry_of_exportReply {x : Store.Export} {event : HubEvent}
    {answer : DispatchReport → Option (Except HubError EntryId)} (hhub : w.hub? i = some h)
    (hraises : w.exportReply supply patience i h x = .raises hub event answer w') :
    i = hub ∧ ∃ e, x.category = e.category.name ∧ event = .entryCreated e e.category ∧
      answer = (fun _ => some (.ok e.id)) ∧ w'.store? hub = some (h.store.takeIn e) := by
  have hreply := ofExport_exportReply supply patience w i h x
  rw [hraises] at hreply
  cases hreply with
  | stored drawn hexport hevent =>
    obtain ⟨e, hcategory, hevent', hanswer, hstore, -⟩ := Store.exists_entry_of_stored hexport
    refine ⟨rfl, e, hcategory, Option.some.inj (hevent.symm.trans hevent'), by rw [hanswer], ?_⟩
    rw [← hstore]
    exact store?_eq_some.mpr ⟨_, hub?_setStore hhub _, rfl⟩

/-- An export that gives an id announces it. -/
theorem exists_raises_of_exportReply {x : Store.Export} {id : EntryId}
    (hgives : (w.exportReply supply patience i h x).Gives (some (.ok id))) :
    ∃ e c answer w', w.exportReply supply patience i h x =
      .raises i (.entryCreated e c) answer w' := by
  have hreply := ofExport_exportReply supply patience w i h x
  generalize w.exportReply supply patience i h x = reply at hreply hgives ⊢
  cases hreply with
  | stored drawn hexport hevent => exact ⟨_, _, _, _, rfl⟩
  | refused e => exact absurd (Option.some.inj hgives) nofun
  | waiting | exhausted => exact hgives.elim

end World

namespace Moment

/-- A request that has changed the entries of a hub, with what is to be told of it: an export that
gave an id, a removal that was answered with yes, or a clearing that was accepted. -/
inductive Mutates (hub : Nat) : Moment σ → HubEvent → Prop
  | exported {w : World σ} {x : Store.Export} {e : Entry} {c : Category}
      {reply : Reply σ (Option (Except HubError EntryId))} (hcategory : x.category = c.name)
      (h : reply.Gives (some (.ok e.id))) :
      Mutates hub ⟨w, .exportData hub x, reply⟩ (.entryCreated e c)
  | removed {w : World σ} {e : Entry} {c : Category}
      {reply : Reply σ (Option (Except HubError Bool))} (h : reply.Gives (some (.ok true))) :
      Mutates hub ⟨w, .store hub (.remove c.name e.id), reply⟩ (.entryRemoved e c)
  | cleared {w : World σ} {c : Category} {reply : Reply σ (Option (Except HubError Unit))}
      (h : reply.Gives (some (.ok ()))) :
      Mutates hub ⟨w, .store hub (.clear c.name), reply⟩ (.entriesCleared (.category c))
  | clearedAll {w : World σ} {reply : Reply σ (Option Unit)} (h : reply.Gives (some ())) :
      Mutates hub ⟨w, .store hub .clearAll, reply⟩ (.entriesCleared .all)

/-- A program makes up an event that tells of a change. -/
inductive Forges (hub : Nat) : Moment σ → Prop
  | intro {w : World σ} {event : HubEvent} {reply : Reply σ (Option DispatchReport)}
      (htells : event.tells) : Forges hub ⟨w, .emit hub event, reply⟩

theorem mutates_store {w w' : World σ} {i patience : Nat} {q : StoreRequest} {event : HubEvent}
    {answer : DispatchReport → Option q.Answer}
    (hraises : w.reply supply patience (.store i q) = .raises hub event answer w')
    (htells : event.tells) (hsound : ∀ s, w.store? hub = some s → s.IsSound) :
    Mutates hub ⟨w, .store i q, w.reply supply patience (.store i q)⟩ event ∧
      ∃ s s', w.store? hub = some s ∧
        ((w.reply supply patience (.store i q)).world w).store? hub = some s' ∧
        s'.lists = event.replay s.lists := by
  obtain ⟨g, hhub, hstore⟩ := World.withHub_eq_raises hraises
  obtain ⟨rfl, hevent⟩ := World.storeReply_eq_raises hstore
  have hreply : w.reply supply patience (.store i q) = w.storeReply i g q :=
    World.withHub_of_hub? hhub _
  have hgives := World.storeReply_gives_answer w i g q
  rw [← hreply] at hgives
  have hraised := Store.raises_of_event hevent
  have hbefore := World.store?_of_hub? hhub
  have hafter := World.store?_storeReply hhub q
  rw [← hreply] at hafter
  refine ⟨?_, g.store, _, hbefore, hafter, hraised.lists_eq (hsound _ hbefore)⟩
  cases hraised with
  | @removed c e hfind =>
    refine .removed ?_
    rwa [Store.answer, Store.inCategory_name, Store.removeEntry_answer, hfind] at hgives
  | cleared c =>
    refine .cleared ?_
    rwa [Store.answer, Store.inCategory_name] at hgives
  | clearedAll => exact .clearedAll hgives
  | used => exact absurd rfl (HubEvent.tells_iff.mp htells _ _)

theorem mutates_exportData {w w' : World σ} {i patience : Nat} {x : Store.Export}
    {event : HubEvent} {answer : DispatchReport → Option (Except HubError EntryId)}
    (hraises : w.reply supply patience (.exportData i x) = .raises hub event answer w') :
    Mutates hub ⟨w, .exportData i x, w.reply supply patience (.exportData i x)⟩ event ∧
      ∃ s s', w.store? hub = some s ∧
        ((w.reply supply patience (.exportData i x)).world w).store? hub = some s' ∧
        s'.lists = event.replay s.lists := by
  obtain ⟨g, hhub, hexport⟩ := World.withHub_eq_raises hraises
  obtain ⟨rfl, e, hcategory, rfl, rfl, hstore⟩ := World.exists_entry_of_exportReply hhub hexport
  rw [hraises]
  exact ⟨.exported hcategory ⟨.empty, rfl⟩, g.store, _, World.store?_of_hub? hhub, hstore,
    Store.lists_takeIn g.store e⟩

/-- What a panel asks for raises no event that tells of a change. -/
theorem not_tells_of_usePanel {w w' : World σ} {panel patience : Nat} {summary : EntrySummary}
    {target : String} {event : HubEvent} {answer : DispatchReport → Except HubError Bool}
    (hraises : w.reply supply patience (.usePanel panel summary target) =
      .raises hub event answer w') : ¬event.tells := by
  rw [World.reply] at hraises
  split at hraises
  · contradiction
  · next i g hpanel =>
    split at hraises
    · contradiction
    · next heq =>
      obtain ⟨rfl, rfl, -⟩ := Reply.raises.inj hraises
      obtain ⟨rfl, hevent⟩ := World.storeReply_eq_raises heq
      exact Store.not_tells_of_requestUse hevent
    · contradiction
    · contradiction

/-- The event that a request raises is one that tells of what it has changed, and does so
rightly. -/
theorem IsReply.mutates {m : Moment σ} (hm : m.IsReply supply) {event : HubEvent}
    (hevent : m.Announces hub event) (htells : event.tells) (hforges : ¬m.Forges hub)
    (hsound : ∀ s, m.before.store? hub = some s → s.IsSound) :
    m.Mutates hub event ∧ ∃ s s', m.before.store? hub = some s ∧ m.after.store? hub = some s' ∧
      s'.lists = event.replay s.lists := by
  obtain ⟨w, r, reply⟩ := m
  obtain ⟨patience, rfl⟩ : ∃ patience, w.reply supply patience r = reply := hm
  obtain ⟨answer, w', hraises⟩ := hevent
  dsimp only at hraises
  cases r with
  | store i q => exact mutates_store hraises htells hsound
  | exportData i x => exact mutates_exportData hraises
  | usePanel panel summary target => exact absurd htells (not_tells_of_usePanel hraises)
  | emit i event' =>
    obtain ⟨g, hhub, hemit⟩ := World.withHub_eq_raises hraises
    obtain ⟨rfl, rfl, -⟩ := Reply.raises.inj hemit
    exact absurd (.intro htells) hforges
  | snapshot | save | load | handlerCount | handlerTotal | openChannel | attachPanel =>
    obtain ⟨g, hhub, hnone⟩ := World.withHub_eq_raises hraises
    contradiction
  | unsubscribe | send | receive | closeChannel | readPanel | refreshPanel | followPanel
  | isAlive | inHandler | fileText | putFile | makeDirectory => contradiction
  | parse | detachPanel | acquire | release =>
    rw [World.reply] at hraises
    split at hraises <;> contradiction

/-- A request that has changed the entries raises an event that tells so. -/
theorem Mutates.announces {m : Moment σ} {event : HubEvent} (h : m.Mutates hub event)
    (hm : m.IsReply supply) : ∃ event', m.Announces hub event' ∧ event'.tells := by
  obtain ⟨patience, hreply⟩ := hm
  -- what is asked of the store comes with an event that tells of it
  have hstore : ∀ (w : World σ) (q : StoreRequest) (g : Hub σ) (event' : HubEvent),
      w.hub? hub = some g → (g.store.answer q).event = some event' →
      (∀ name id target, q ≠ .requestUse name id target) →
      ∃ event', (⟨w, .store hub q, w.reply supply patience (.store hub q)⟩ : Moment σ).Announces
        hub event' ∧ event'.tells := by
    intro w q g event' hhub hevent hq
    have heq : w.reply supply patience (.store hub q) = w.storeReply hub g q :=
      World.withHub_of_hub? hhub _
    exact ⟨event', ⟨_, _, heq.trans (World.storeReply_of_event hevent)⟩,
      (Store.raises_of_event hevent).tells hq⟩
  cases h with
  | @exported w x e c reply hcategory hgives =>
    dsimp only at hreply
    subst hreply
    obtain ⟨g, hhub, hexport⟩ := World.withHub_gives hgives
    obtain ⟨e', c', answer, w', hraises⟩ := World.exists_raises_of_exportReply hexport
    have heq : w.reply supply patience (.exportData hub x) =
        w.exportReply supply patience hub g x := World.withHub_of_hub? hhub _
    exact ⟨_, ⟨_, _, heq.trans hraises⟩, HubEvent.tells_iff.mpr (by simp)⟩
  | @removed w e c reply hgives =>
    dsimp only at hreply
    subst hreply
    obtain ⟨g, hhub, hremove⟩ := World.withHub_gives hgives
    have hanswer := World.storeReply_gives (q := .remove c.name e.id) hremove
    obtain ⟨event', hevent⟩ := Store.exists_event_of_removed hanswer.symm
    exact hstore w _ g event' hhub hevent (by simp)
  | @cleared w c reply hgives =>
    dsimp only at hreply
    subst hreply
    obtain ⟨g, hhub, -⟩ := World.withHub_gives hgives
    refine hstore w _ g (.entriesCleared (.category c)) hhub ?_ (by simp)
    rw [Store.answer, Store.inCategory_name]
    rfl
  | @clearedAll w reply hgives =>
    dsimp only at hreply
    subst hreply
    obtain ⟨g, hhub, -⟩ := World.withHub_gives hgives
    exact hstore w _ g (.entriesCleared .all) hhub rfl (by simp)

end Moment

/-! ## Journals -/

/-- Events that tell of the changes made by the requests of a run, one of each. -/
inductive IsJournal (hub : Nat) : List (Moment σ) → List HubEvent → Prop
  | nil : IsJournal hub [] []
  | told {a : Moment σ} {t : List (Moment σ)} {event : HubEvent} {events : List HubEvent}
      (h : a.Mutates hub event) (rest : IsJournal hub t events) :
      IsJournal hub (a :: t) (event :: events)
  | untold {a : Moment σ} {t : List (Moment σ)} {events : List HubEvent}
      (h : ∀ event, ¬a.Mutates hub event) (rest : IsJournal hub t events) :
      IsJournal hub (a :: t) events

namespace IsJournal

theorem append {t t' : List (Moment σ)} {events events' : List HubEvent}
    (h : IsJournal hub t events) (h' : IsJournal hub t' events') :
    IsJournal hub (t ++ t') (events ++ events') := by
  induction h with
  | nil => exact h'
  | told h _ ih => exact .told h ih
  | untold h _ ih => exact .untold h ih

theorem of_forall_not {t : List (Moment σ)} (h : ∀ a ∈ t, ∀ event, ¬a.Mutates hub event) :
    IsJournal hub t [] := by
  induction t with
  | nil => exact .nil
  | cons a t ih =>
    obtain ⟨hfirst, hrest⟩ := List.forall_mem_cons.mp h
    exact .untold hfirst (ih hrest)

end IsJournal
end LabExchange
