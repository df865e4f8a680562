import LabExchange.Proofs.Hub.Channels

/-!
# Panels

A panel keeps the handlers by which it follows its hub as long as none of its own handles is given
up, since the handles of other panels have other numbers. It is up to date when it is loaded, and
stays so under every change that leaves the lists of the hub as they are.
-/
namespace LabExchange

variable {σ : Type} {w w' : World σ} {hub panel : Nat} {handles : List Subscription}
  {lost : List Nat} {moved : Prop}

theorem Hub.Change.nextHandler_le {h h' : Hub σ} (hchange : h.Change lost moved h') :
    h.nextHandler ≤ h'.nextHandler := by
  cases hchange with
  | registered kind handler => exact Nat.le_succ _
  | counted | stored | unregistered => exact Nat.le_refl _

/-- A handler stays registered as long as its number is not given up. -/
theorem Hub.Change.registered_of_mem {h h' : Hub σ} (hchange : h.Change lost moved h')
    {r : Registration σ} (hr : r ∈ h.registrations) (hkept : r.id ∉ lost) :
    r ∈ h'.registrations := by
  cases hchange with
  | registered kind handler => exact List.mem_append_left _ hr
  | unregistered given =>
    refine List.mem_filter.mpr ⟨hr, ?_⟩
    have hne : r.id ≠ _ := fun heq => hkept (heq ▸ given)
    simpa using hne
  | counted | stored => exact hr

namespace World

/-! ## Handles -/

/-- The handlers of the panels have different numbers, all of which have been given out. -/
structure KeepsHandles (hub : Nat) (w : World σ) : Prop where
  below : ∀ p ∈ w.places, ∀ h, w.hub? hub = some h →
    ∀ id ∈ Subscription.numbersOn hub p.2, id < h.nextHandler
  apart : w.places.Pairwise fun p q =>
    List.Disjoint (Subscription.numbersOn hub p.2) (Subscription.numbersOn hub q.2)

theorem keepsHandles_new (hub hubs : Nat) (files : Files) (memory : σ) :
    (World.new hubs files memory).KeepsHandles hub where
  below _ hp := absurd hp List.not_mem_nil
  apart := List.Pairwise.nil

/-- The numbers of a new panel are greater than all others on its hub. -/
theorem KeepsHandles.attached {h : Hub σ} (hw : w.KeepsHandles hub) (hhub : w.hub? hub = some h)
    (hhub' : w'.hub? hub = some (h.watch fun _ => .follow w.panels.length))
    (hplaces : w'.places = w.places ++ [(hub, Subscription.ofPanel hub h.nextHandler)]) :
    w'.KeepsHandles hub where
  below p hp g hg id hid := by
    obtain rfl := Option.some.inj (hhub'.symm.trans hg)
    rw [hplaces, List.mem_append, List.mem_singleton] at hp
    rw [Hub.watch_eq]
    rcases hp with hold | rfl
    · have hlt := hw.below p hold h hhub id hid
      dsimp only
      omega
    · rw [Subscription.numbersOn_ofPanel] at hid
      simp only [List.mem_cons, List.not_mem_nil, or_false] at hid
      dsimp only
      omega
  apart := by
    rw [hplaces, List.pairwise_append]
    refine ⟨hw.apart, List.pairwise_singleton _ _, fun p hp q hq id hid hid' => ?_⟩
    obtain rfl := List.mem_singleton.mp hq
    have hlt := hw.below p hp h hhub id hid
    rw [Subscription.numbersOn_ofPanel] at hid'
    simp only [List.mem_cons, List.not_mem_nil, or_false] at hid'
    omega

theorem KeepsHandles.change (hw : w.KeepsHandles hub) (h : Change hub lost moved w w') :
    w'.KeepsHandles hub := by
  cases h with
  | ofHub hhub hpanels =>
    refine ⟨fun p hp h' hh' id hid => ?_, ?_⟩
    · obtain ⟨h, hold, hchange⟩ := hhub h' hh'
      rw [places, hpanels] at hp
      exact Nat.lt_of_lt_of_le (hw.below p hp h hold id hid) hchange.nextHandler_le
    · rw [places, hpanels]
      exact hw.apart
  | attached hhub hhub' hpanels =>
    refine hw.attached hhub hhub' ?_
    rw [places, hpanels, List.map_append]
    rfl
  | @attachedElsewhere p hhub hpanels hnone =>
    have hplaces : w'.places = w.places ++ [p.place] := by
      rw [places, hpanels, List.map_append]
      rfl
    refine ⟨fun q hq h hh id hid => ?_, ?_⟩
    · rw [hplaces, List.mem_append, List.mem_singleton] at hq
      rcases hq with hold | rfl
      · exact hw.below q hold h (hhub ▸ hh) id hid
      · rw [Panel.place, hnone] at hid
        exact absurd hid List.not_mem_nil
    · rw [hplaces, List.pairwise_append]
      refine ⟨hw.apart, List.pairwise_singleton _ _, fun q _ q' hq' id _ hid' => ?_⟩
      obtain rfl := List.mem_singleton.mp hq'
      rw [Panel.place, hnone] at hid'
      exact absurd hid' List.not_mem_nil
  | reloaded panel kind? hhub hpanels =>
    have hplaces : w'.places = w.places := by
      rw [places, hpanels]
      exact places_reloadPanel w panel kind?
    refine ⟨fun p hp h hh id hid => ?_, hplaces ▸ hw.apart⟩
    exact hw.below p (hplaces ▸ hp) h (hhub ▸ hh) id hid

theorem KeepsHandles.changes (hw : w.KeepsHandles hub) (h : Changes hub lost moved w w') :
    w'.KeepsHandles hub := by
  induction h with
  | refl => exact hw
  | tail _ hstep ih => exact ih.change hstep

/-- A panel is attached to a hub, and as long as the hub is alive it is registered for all events
that tell of a change. -/
structure Follows (hub panel : Nat) (handles : List Subscription) (w : World σ) : Prop where
  place : w.places[panel]? = some (hub, handles)
  registered : ∀ h, w.hub? hub = some h → ∀ kind ∈ watchedKinds,
    ∃ id ∈ Subscription.numbersOn hub handles, ⟨id, kind, .follow panel⟩ ∈ h.registrations

theorem Follows.change (hw : w.Follows hub panel handles)
    (hkept : ∀ id ∈ Subscription.numbersOn hub handles, id ∉ lost)
    (h : Change hub lost moved w w') : w'.Follows hub panel handles := by
  have hlt : panel < w.places.length := (List.getElem?_eq_some_iff.mp hw.place).1
  cases h with
  | ofHub hhub hpanels =>
    refine ⟨?_, fun h' hh' kind hkind => ?_⟩
    · rw [places, hpanels]
      exact hw.place
    · obtain ⟨h, hold, hchange⟩ := hhub h' hh'
      obtain ⟨id, hid, hr⟩ := hw.registered h hold kind hkind
      exact ⟨id, hid, hchange.registered_of_mem hr (hkept id hid)⟩
  | @attached h hhub hhub' hpanels =>
    refine ⟨?_, fun h' hh' kind hkind => ?_⟩
    · rw [places, hpanels, List.map_append, ← places, List.getElem?_append_left hlt]
      exact hw.place
    · obtain rfl := Option.some.inj (hhub'.symm.trans hh')
      obtain ⟨id, hid, hr⟩ := hw.registered h hhub kind hkind
      rw [Hub.watch_eq]
      exact ⟨id, hid, List.mem_append_left _ hr⟩
  | attachedElsewhere hhub hpanels hnone =>
    refine ⟨?_, fun h hh => hw.registered h (hhub ▸ hh)⟩
    rw [places, hpanels, List.map_append, ← places, List.getElem?_append_left hlt]
    exact hw.place
  | reloaded panel kind? hhub hpanels =>
    refine ⟨?_, fun h hh => hw.registered h (hhub ▸ hh)⟩
    rw [places, hpanels, ← places, places_reloadPanel]
    exact hw.place

theorem Follows.changes (hw : w.Follows hub panel handles)
    (hkept : ∀ id ∈ Subscription.numbersOn hub handles, id ∉ lost)
    (h : Changes hub lost moved w w') : w'.Follows hub panel handles := by
  induction h with
  | refl => exact hw
  | tail _ hstep ih => exact ih.change hkept hstep

/-! ## Views -/

/-- A panel shows what its hub says, if the hub is alive. -/
def IsCurrent (hub panel : Nat) (w : World σ) : Prop :=
  ∀ s, w.store? hub = some s → ∃ p, w.panels[panel]? = some p ∧ p.hub = hub ∧
    p.view.badge = (s.answer .counts).answer.total ∧ p.view.entries = (s.answer .listAll).answer

/-- What is shown of a store depends on its lists alone. -/
theorem shown_of_lists {s s' : Store} (h : s'.lists = s.lists) :
    (s'.answer .counts).answer.total = (s.answer .counts).answer.total ∧
      (s'.answer .listAll).answer = (s.answer .listAll).answer := by
  have htoList : s'.toList = s.toList := by rw [Store.toList, Store.toList, h]
  exact ⟨congrArg List.length htoList,
    congrArg (fun l => (newestFirst l).map EntrySummary.ofEntry) htoList⟩

theorem IsCurrent.congr (hw : w.IsCurrent hub panel) (hhub : w'.hub? hub = w.hub? hub)
    (hpanels : w'.panels[panel]? = w.panels[panel]?) : w'.IsCurrent hub panel := by
  intro s hs
  rw [store?, hhub] at hs
  rw [hpanels]
  exact hw s hs

theorem isCurrent_reloadPanel (hplace : w.places[panel]? = some (hub, handles))
    (kind? : Option EventKind) : (w.reloadPanel panel kind?).IsCurrent hub panel := by
  rw [places, List.getElem?_map] at hplace
  obtain ⟨p, hpanel, hp⟩ := Option.map_eq_some_iff.mp hplace
  obtain ⟨rfl, rfl⟩ := Prod.mk.inj hp
  have hlt : panel < w.panels.length := (List.getElem?_eq_some_iff.mp hpanel).1
  intro s hs
  unfold reloadPanel at hs ⊢
  simp only [hpanel] at hs ⊢
  cases hhub : w.hub? p.hub with
  | none =>
    simp only [hhub] at hs
    rw [store?, hhub] at hs
    contradiction
  | some h =>
    simp only [hhub] at hs ⊢
    obtain rfl : h.store = s := Option.some.inj ((store?_of_hub? hhub).symm.trans hs)
    exact ⟨_, List.getElem?_set_self hlt, rfl, rfl, rfl⟩

theorem IsCurrent.reloadPanel (hw : w.IsCurrent hub panel) (other : Nat)
    (kind? : Option EventKind) (hhub : w'.hub? hub = w.hub? hub)
    (hpanels : w'.panels = (w.reloadPanel other kind?).panels) : w'.IsCurrent hub panel := by
  have hhub' : (w.reloadPanel other kind?).hub? hub = w.hub? hub := by
    unfold World.reloadPanel
    split
    · rfl
    · split <;> rfl
  refine IsCurrent.congr (fun s hs => ?_) (hhub.trans hhub'.symm) (by rw [hpanels])
  have hs' : w.store? hub = some s := by
    rw [store?, hhub'] at hs
    exact hs
  obtain ⟨p, hpanel, rfl, hshown⟩ := hw s hs'
  by_cases hother : other = panel
  · subst hother
    exact isCurrent_reloadPanel (places_getElem? hpanel) kind? s hs
  · refine ⟨p, ?_, rfl, hshown⟩
    unfold World.reloadPanel
    split
    · exact hpanel
    · split
      · exact hpanel
      · exact (List.getElem?_set_ne hother).trans hpanel

/-- As long as the lists do not change, a panel stays up to date. -/
theorem IsCurrent.change (hw : w.IsCurrent hub panel) (h : Change hub lost False w w') :
    w'.IsCurrent hub panel := by
  intro s' hs'
  obtain ⟨s, hs, hlists⟩ := h.lists hs'
  obtain ⟨p, hpanel, hplace, hbadge, hentries⟩ := hw s hs
  obtain ⟨htotal, hlistAll⟩ := shown_of_lists hlists
  -- a panel that stays as it is shows what it showed
  have hstays (hpanel' : w'.panels[panel]? = some p) :
      ∃ p, w'.panels[panel]? = some p ∧ p.hub = hub ∧
        p.view.badge = (s'.answer .counts).answer.total ∧
        p.view.entries = (s'.answer .listAll).answer :=
    ⟨p, hpanel', hplace, hbadge.trans htotal.symm, hentries.trans hlistAll.symm⟩
  cases h with
  | ofHub hhub hpanels => exact hstays (hpanels ▸ hpanel)
  | attached hhub hhub' hpanels | attachedElsewhere hhub hpanels hnone =>
    refine hstays ?_
    rw [hpanels, List.getElem?_append_left (List.getElem?_eq_some_iff.mp hpanel).1]
    exact hpanel
  | reloaded other kind? hhub hpanels => exact hw.reloadPanel other kind? hhub hpanels s' hs'

theorem IsCurrent.changes (hw : w.IsCurrent hub panel) (h : Changes hub lost False w w') :
    w'.IsCurrent hub panel := by
  induction h with
  | refl => exact hw
  | tail _ hstep ih => exact ih.change hstep

/-- A panel that has just been attached is up to date and follows its hub. -/
theorem follows_attachPanel {h : Hub σ} (hhub : w.hub? hub = some h) :
    (w.attachPanel hub h).2.IsCurrent hub w.panels.length ∧
      (w.attachPanel hub h).2.Follows hub w.panels.length
        (Subscription.ofPanel hub h.nextHandler) := by
  obtain ⟨-, hhubs, hpanels⟩ := attachPanel_eq hhub
  have hhub' : (w.attachPanel hub h).2.hub? hub =
      some (h.watch fun _ => .follow w.panels.length) := by
    have hset : (w.setHub hub (h.watch fun _ => .follow w.panels.length)).hub? hub = _ :=
      hub?_setHub hhub (by rw [Hub.watch_eq]; exact (hub?_eq_some.mp hhub).2)
    rw [hub?, hhubs]
    exact hset
  have hpanel : (w.attachPanel hub h).2.panels[w.panels.length]? =
      some ⟨hub, h.view none, Subscription.ofPanel hub h.nextHandler⟩ := by
    rw [hpanels, List.getElem?_concat_length]
  constructor
  · intro s hs
    rw [store?, hhub', Hub.watch_eq] at hs
    obtain rfl := Option.some.inj hs
    exact ⟨_, hpanel, rfl, rfl, rfl⟩
  · refine ⟨places_getElem? hpanel, fun h' hh' kind hkind => ?_⟩
    obtain rfl := Option.some.inj (hhub'.symm.trans hh')
    rw [Hub.watch_eq, Subscription.numbersOn_ofPanel]
    simp only [watchedKinds, List.mem_cons, List.not_mem_nil, or_false] at hkind
    rcases hkind with rfl | rfl | rfl <;> simp

end World

/-! ## Moments -/

namespace Moment

/-- A request that takes a handler from a panel: the panel is detached, or one of its handles is
given up otherwise. -/
inductive Loosens (panel : Nat) : Moment σ → Prop
  | detached {w : World σ} {reply : Reply σ Unit} : Loosens panel ⟨w, .detachPanel panel, reply⟩
  | unsubscribed {w : World σ} {p : Panel} {s handle : Subscription} {reply : Reply σ Bool}
      (hpanel : w.panels[panel]? = some p) (hhandle : handle ∈ p.subscriptions)
      (hhub : s.hub = handle.hub) (hid : s.id = handle.id) :
      Loosens panel ⟨w, .unsubscribe s, reply⟩

theorem Loosens.request {m : Moment σ} (h : m.Loosens panel) :
    m.request = .detachPanel panel ∨ ∃ s, m.request = .unsubscribe s := by
  cases h with
  | detached => exact .inl rfl
  | unsubscribed => exact .inr ⟨_, rfl⟩

/-- A request by which a panel comes into being. -/
inductive Attaches (hub panel : Nat) : Moment σ → Prop
  | intro {w w' : World σ} : Attaches hub panel ⟨w, .attachPanel hub, .done (some panel) w'⟩

/-- A request after which a panel is to show what its hub holds: it is attached or refreshed, or an
event is raised that tells of a change. -/
inductive Refreshes (hub panel : Nat) : Moment σ → Prop
  | attached {m : Moment σ} (h : m.Attaches hub panel) : Refreshes hub panel m
  | refreshed {w : World σ} {reply : Reply σ Unit} :
      Refreshes hub panel ⟨w, .refreshPanel panel, reply⟩
  | announced {m : Moment σ} {event : HubEvent} (hevent : m.Announces hub event)
      (htells : event.tells) : Refreshes hub panel m

/-- Handles of other panels are others, so a panel keeps its handlers when they are given up. -/
theorem not_mem_lost {m : Moment σ} (hkeeps : m.before.KeepsHandles hub)
    (hfollows : m.before.Follows hub panel handles) (hm : ¬m.Loosens panel) {id : Nat}
    (hid : id ∈ Subscription.numbersOn hub handles) : id ∉ m.lost hub := by
  obtain ⟨w, r, reply⟩ := m
  intro hlost
  have hplace := hfollows.place
  rw [World.places, List.getElem?_map] at hplace
  obtain ⟨p, hpanel, hp⟩ := Option.map_eq_some_iff.mp hplace
  obtain ⟨-, rfl⟩ := Prod.mk.inj hp
  dsimp only at hpanel
  obtain ⟨s, hs, hhub, rfl⟩ := Subscription.mem_numbersOn.mp hlost
  cases r with
  | unsubscribe s' =>
    obtain rfl := List.mem_singleton.mp hs
    obtain ⟨handle, hhandle, hhub', hid'⟩ := Subscription.mem_numbersOn.mp hid
    exact hm (.unsubscribed hpanel hhandle (hhub.trans hhub'.symm) hid'.symm)
  | detachPanel other =>
    by_cases hother : other = panel
    · subst hother
      exact hm .detached
    · cases hpanel' : w.panels[other]? with
      | none => simp [Request.givenUp, hpanel'] at hs
      | some q =>
        have hs' : s ∈ q.subscriptions := by simpa [Request.givenUp, hpanel'] using hs
        have hid' := Subscription.mem_numbersOn.mpr ⟨s, hs', hhub, rfl⟩
        obtain ⟨hlt, hgetp⟩ := List.getElem?_eq_some_iff.mp (World.places_getElem? hpanel)
        obtain ⟨hlt', hgetq⟩ := List.getElem?_eq_some_iff.mp (World.places_getElem? hpanel')
        have hapart := List.pairwise_iff_getElem.mp hkeeps.apart
        rcases Nat.lt_or_gt_of_ne hother with hbefore | hafter
        · have hdisjoint := hapart other panel hlt' hlt hbefore
          dsimp only at hdisjoint
          rw [hgetp, hgetq] at hdisjoint
          exact hdisjoint hid' hid
        · have hdisjoint := hapart panel other hlt hlt' hafter
          dsimp only at hdisjoint
          rw [hgetp, hgetq] at hdisjoint
          exact hdisjoint hid hid'
  | _ => exact absurd hs List.not_mem_nil

end Moment
end LabExchange
