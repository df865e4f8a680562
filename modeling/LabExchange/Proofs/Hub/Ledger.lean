import LabExchange.Proofs.Hub.Changes

/-!
# The ledger of handlers

Every handler that comes or goes is entered into a ledger, with its handle: one that is subscribed,
by a program or with a channel, one that is given up, and those of a panel that is attached or
detached. Whatever a step does, the handlers of a hub afterwards are those before and the ones that
the step has entered, less those that it has struck off.
-/
namespace LabExchange

variable {σ : Type}

/-- What is done about the handlers of hubs. -/
inductive Act (σ : Type) where
  /-- A handler has been subscribed, and its handle given out. -/
  | subscribed (handle : Subscription) (handler : Handler σ)
  /-- A handle has been given back. -/
  | unsubscribed (handle : Subscription) (answer : Bool)
  /-- A panel has been attached, with the handles that it keeps. -/
  | attached (panel : Nat) (handles : List Subscription)
  /-- A panel has been detached, with the handles that it kept. -/
  | detached (panel : Nat) (handles : List Subscription)

/-- The handler that a handle belongs to. -/
def Registration.ofHandle (x : Subscription × Handler σ) : Registration σ := ⟨x.1.id, x.1.kind, x.2⟩

namespace Act

/-- The handles that are given out, with their handlers. -/
def given : Act σ → List (Subscription × Handler σ)
  | subscribed s handler => [(s, handler)]
  | attached panel handles => handles.map (·, .follow panel)
  | unsubscribed .. | detached .. => []

/-- The handles that are given back. -/
def returned : Act σ → List Subscription
  | unsubscribed s _ => [s]
  | detached _ handles => handles
  | subscribed .. | attached .. => []

/-- The handlers that some acts register on a hub. -/
def opened (hub : Nat) (acts : List (Act σ)) : List (Registration σ) :=
  ((acts.flatMap given).filter (·.1.hub == hub)).map .ofHandle

/-- The numbers of the handlers that some acts remove from a hub. -/
def closed (hub : Nat) (acts : List (Act σ)) : List Nat :=
  Subscription.numbersOn hub (acts.flatMap returned)

variable (hub : Nat) (acts more : List (Act σ))

@[simp] theorem opened_append : opened hub (acts ++ more) = opened hub acts ++ opened hub more := by
  simp [opened]

@[simp] theorem closed_append : closed hub (acts ++ more) = closed hub acts ++ closed hub more := by
  simp [closed, Subscription.numbersOn]

end Act

/-! ## Hubs -/

namespace Hub

/-- The handlers of a hub afterwards are those before and the opened ones, less the closed ones.
The opened ones have the next numbers. -/
structure Balances (opened : List (Registration σ)) (closed : List Nat) (h h' : Hub σ) : Prop where
  registrations : h'.registrations = (h.registrations ++ opened).filter (·.id ∉ closed)
  numbers : opened.map (·.id) = List.range' h.nextHandler opened.length
  next : h'.nextHandler = h.nextHandler + opened.length

namespace Balances

variable {opened more : List (Registration σ)} {closed less : List Nat} {h h' h'' : Hub σ}

theorem of_eq (hregistrations : h'.registrations = h.registrations)
    (hnext : h'.nextHandler = h.nextHandler) : Balances [] [] h h' :=
  ⟨by simp [hregistrations], rfl, hnext⟩

/-- What is closed first must not be opened later. -/
theorem trans (hfirst : Balances opened closed h h') (hlater : Balances more less h' h'')
    (hnew : ∀ r ∈ more, r.id ∉ closed) :
    Balances (opened ++ more) (closed ++ less) h h'' where
  registrations := by
    have hmore : more.filter (·.id ∉ closed) = more :=
      List.filter_eq_self.mpr fun r hr => decide_eq_true (hnew r hr)
    have hcomm : ∀ r : Registration σ, (decide (r.id ∉ less) && decide (r.id ∉ closed)) =
        decide (r.id ∉ closed ++ less) := fun r => by simp [Bool.and_comm]
    calc h''.registrations
      _ = (h'.registrations ++ more).filter (·.id ∉ less) := hlater.registrations
      _ = ((h.registrations ++ opened ++ more).filter (·.id ∉ closed)).filter (·.id ∉ less) := by
        rw [hfirst.registrations, List.filter_append (h.registrations ++ opened), hmore]
      _ = (h.registrations ++ (opened ++ more)).filter (·.id ∉ closed ++ less) := by
        rw [List.filter_filter, List.append_assoc]
        exact List.filter_congr fun r _ => hcomm r
  numbers := by
    rw [List.map_append, hfirst.numbers, hlater.numbers, hfirst.next, List.length_append,
      List.range'_append_1]
  next := by rw [hlater.next, hfirst.next, List.length_append, Nat.add_assoc]

theorem register (h : Hub σ) (kind : EventKind) (handler : Handler σ) :
    Balances [⟨h.nextHandler, kind, handler⟩] [] h (h.register kind handler) :=
  ⟨by simp [Hub.register], rfl, rfl⟩

theorem unregister (h : Hub σ) (id : Nat) : Balances [] [id] h (h.unregister id) where
  registrations := by
    rw [List.append_nil]
    exact List.filter_congr fun r _ => by simp [bne, beq_eq_decide]
  numbers := rfl
  next := rfl

theorem watch (h : Hub σ) (handlers : EventKind → Handler σ) :
    Balances [⟨h.nextHandler, .entryCreated, handlers .entryCreated⟩,
      ⟨h.nextHandler + 1, .entryRemoved, handlers .entryRemoved⟩,
      ⟨h.nextHandler + 2, .entriesCleared, handlers .entriesCleared⟩] [] h (h.watch handlers) := by
  rw [Hub.watch_eq]
  exact ⟨by simp, rfl, rfl⟩

end Balances

/-- Without a handler of that number nothing is removed. -/
theorem unregister_eq_self {h : Hub σ} {id : Nat} (hnone : ∀ r ∈ h.registrations, r.id ≠ id) :
    h.unregister id = h := by
  have hfilter : h.registrations.filter (·.id != id) = h.registrations :=
    List.filter_eq_self.mpr fun r hr => bne_iff_ne.mpr (hnone r hr)
  rw [unregister, hfilter]

end Hub

/-! ## Worlds -/

namespace World

variable {w w' w'' : World σ} {hub : Nat} {acts more : List (Act σ)}

/-- A hub that is alive afterwards was alive before, and the two are related. -/
def OnHub (hub : Nat) (R : Hub σ → Hub σ → Prop) (w w' : World σ) : Prop :=
  ∀ h', w'.hub? hub = some h' → ∃ h, w.hub? hub = some h ∧ R h h'

/-- The handles of a panel, if it is there. -/
def handles? (w : World σ) (panel : Nat) : Option (List Subscription) :=
  w.places[panel]?.map Prod.snd

/-- The handlers of a hub and the handles of the panels have changed by some acts. -/
structure Balances (hub : Nat) (acts : List (Act σ)) (w w' : World σ) : Prop where
  onHub : OnHub hub (Hub.Balances (Act.opened hub acts) (Act.closed hub acts)) w w'
  attached : ∀ panel handles, w'.handles? panel = some handles ↔
    w.handles? panel = some handles ∨ .attached panel handles ∈ acts
  detached : ∀ panel handles, .detached panel handles ∈ acts → w'.handles? panel = some handles

namespace OnHub

variable {R R' : Hub σ → Hub σ → Prop}

theorem trans {R'' : Hub σ → Hub σ → Prop} (h : OnHub hub R w w') (h' : OnHub hub R' w' w'')
    (hboth : ∀ g g' g'', R g g' → R' g' g'' → R'' g g'') : OnHub hub R'' w w'' := by
  intro g'' hg''
  obtain ⟨g', hg', hlater⟩ := h' g'' hg''
  obtain ⟨g, hg, hfirst⟩ := h g' hg'
  exact ⟨g, hg, hboth g g' g'' hfirst hlater⟩

theorem of_eq (hhubs : w'.hubs = w.hubs) (hrefl : ∀ h, R h h) : OnHub hub R w w' := by
  intro h hhub
  rw [hub?, hhubs] at hhub
  exact ⟨h, hhub, hrefl h⟩

theorem congr (h : OnHub hub R w w') (hhubs : w''.hubs = w'.hubs) : OnHub hub R w w'' := by
  intro g hg
  rw [hub?, hhubs] at hg
  exact h g hg

/-- One hub changes, and is not brought back to life. -/
theorem modify {i : Nat} {f : Hub σ → Hub σ}
    (hf : ∀ h, w.hubs[i]? = some h → (f h).isAlive = true →
      h.isAlive = true ∧ (i = hub → R h (f h)))
    (hother : i ≠ hub → ∀ h, R h h) :
    OnHub hub R w { w with hubs := w.hubs.modify i f } := by
  intro h' hhub
  obtain ⟨hget, halive⟩ := hub?_eq_some.mp hhub
  rw [List.getElem?_modify] at hget
  obtain ⟨h, hold, rfl⟩ := Option.map_eq_some_iff.mp hget
  by_cases hi : i = hub
  · rw [if_pos hi] at halive ⊢
    obtain ⟨halive', hR⟩ := hf h (hi ▸ hold) halive
    exact ⟨h, hub?_eq_some.mpr ⟨hold, halive'⟩, hR hi⟩
  · rw [if_neg hi] at halive ⊢
    exact ⟨h, hub?_eq_some.mpr ⟨hold, halive⟩, hother hi h⟩

theorem setHub {i : Nat} {h h' : Hub σ} (hhub : w.hub? i = some h)
    (hR : i = hub → h'.isAlive = true → R h h') (hother : i ≠ hub → ∀ h, R h h) :
    OnHub hub R w (w.setHub i h') := by
  obtain ⟨hget, halive⟩ := hub?_eq_some.mp hhub
  have hmodify : w.setHub i h' = { w with hubs := w.hubs.modify i fun _ => h' } := by
    rw [World.setHub, List.set_eq_modify]
  rw [hmodify]
  refine modify (fun g hg halive' => ?_) hother
  obtain rfl : g = h := Option.some.inj (hg.symm.trans hget)
  exact ⟨halive, fun hi => hR hi halive'⟩

end OnHub

theorem hubs_unsubscribe {s : Subscription} {h : Hub σ} (hhub : w.hub? s.hub = some h) :
    (w.unsubscribe s).2.hubs = w.hubs.set s.hub (h.unregister s.id) := by
  simp only [unsubscribe, hhub]
  split
  · rfl
  · next hnone =>
    have hnumbers : ∀ r ∈ h.registrations, r.id ≠ s.id := fun r hr heq =>
      hnone (List.any_eq_true.mpr ⟨r, hr, beq_iff_eq.mpr heq⟩)
    obtain ⟨hlt, hget⟩ := List.getElem?_eq_some_iff.mp (hub?_eq_some.mp hhub).1
    rw [Hub.unregister_eq_self hnumbers, ← hget, List.set_getElem_self]

theorem onHub_unsubscribe (w : World σ) (s : Subscription) :
    OnHub hub (Hub.Balances [] (Subscription.numbersOn hub [s])) w (w.unsubscribe s).2 := by
  have hnumbers : Subscription.numbersOn hub [s] = if s.hub = hub then [s.id] else [] := by
    by_cases hs : s.hub = hub <;> simp [Subscription.numbersOn, hs]
  rw [hnumbers]
  cases hhub : w.hub? s.hub with
  | none =>
    have hsame : (w.unsubscribe s).2 = w := by simp only [unsubscribe, hhub]
    rw [hsame]
    intro h hh
    have hs : s.hub ≠ hub := by
      rintro rfl
      cases hhub.symm.trans hh
    rw [if_neg hs]
    exact ⟨h, hh, .of_eq rfl rfl⟩
  | some h =>
    refine (OnHub.setHub hhub (fun hs _ => ?_) fun hs g => ?_).congr (hubs_unsubscribe hhub)
    · rw [if_pos hs]
      exact .unregister h s.id
    · rw [if_neg hs]
      exact .of_eq rfl rfl

theorem onHub_unsubscribeAll (handles : List Subscription) (w : World σ) :
    OnHub hub (Hub.Balances [] (Subscription.numbersOn hub handles)) w
      (w.unsubscribeAll handles) := by
  induction handles generalizing w with
  | nil => exact .of_eq rfl fun _ => .of_eq rfl rfl
  | cons s rest ih =>
    have hnumbers : Subscription.numbersOn hub (s :: rest) =
        Subscription.numbersOn hub [s] ++ Subscription.numbersOn hub rest := by
      rw [← List.singleton_append, Subscription.numbersOn, List.filter_append, List.map_append]
      rfl
    rw [hnumbers]
    exact (onHub_unsubscribe w s).trans (ih _) fun _ _ _ hfirst hlater =>
      hfirst.trans hlater fun _ hmem => absurd hmem List.not_mem_nil

@[simp] theorem panels_unsubscribe (w : World σ) (s : Subscription) :
    (w.unsubscribe s).2.panels = w.panels := by
  unfold unsubscribe
  split
  · rfl
  · split <;> rfl

theorem panels_unsubscribeAll (handles : List Subscription) (w : World σ) :
    (w.unsubscribeAll handles).panels = w.panels := by
  induction handles generalizing w with
  | nil => rfl
  | cons s rest ih => exact (ih _).trans (panels_unsubscribe w s)

namespace Balances

/-- Acts that are no matter of panels leave them where they are. -/
theorem of_places (hplaces : w'.places = w.places)
    (hpanels : ∀ panel handles, .attached panel handles ∉ acts ∧ .detached panel handles ∉ acts)
    (honHub : OnHub hub (Hub.Balances (Act.opened hub acts) (Act.closed hub acts)) w w') :
    Balances hub acts w w' where
  onHub := honHub
  attached panel handles := by
    rw [handles?, handles?, hplaces]
    simp [(hpanels panel handles).1]
  detached panel handles h := absurd h (hpanels panel handles).2

/-- No handlers come or go. -/
theorem quiet (hplaces : w'.places = w.places) (honHub : OnHub hub (Hub.Balances [] []) w w') :
    Balances hub [] w w' := of_places hplaces (fun _ _ => ⟨nofun, nofun⟩) honHub

theorem of_eq (hhubs : w'.hubs = w.hubs) (hplaces : w'.places = w.places) :
    Balances hub [] w w' := quiet hplaces (.of_eq hhubs fun _ => .of_eq rfl rfl)

/-- As long as the hub is alive, what is closed first must not be opened later. -/
theorem trans (h : Balances hub acts w w') (h' : Balances hub more w' w'')
    (hnew : ∀ g g', w'.hub? hub = some g →
      g.Balances (Act.opened hub more) (Act.closed hub more) g' →
        ∀ r ∈ Act.opened hub more, r.id ∉ Act.closed hub acts) :
    Balances hub (acts ++ more) w w'' where
  onHub := by
    intro g'' hg''
    obtain ⟨g', hg', hlater⟩ := h'.onHub g'' hg''
    obtain ⟨g, hg, hfirst⟩ := h.onHub g' hg'
    rw [Act.opened_append, Act.closed_append]
    exact ⟨g, hg, hfirst.trans hlater (hnew g' g'' hg' hlater)⟩
  attached panel handles := by
    rw [h'.attached, h.attached, List.mem_append, or_assoc]
  detached panel handles hact := by
    rcases List.mem_append.mp hact with hact | hact
    · exact (h'.attached panel handles).mpr (.inl (h.detached panel handles hact))
    · exact h'.detached panel handles hact

theorem trans_quiet (h : Balances hub acts w w') (h' : Balances hub [] w' w'') :
    Balances hub acts w w'' := by
  have hboth := h.trans h' fun _ _ _ _ _ hr => absurd hr List.not_mem_nil
  rwa [List.append_nil] at hboth

theorem quiet_trans (h : Balances hub [] w w') (h' : Balances hub acts w' w'') :
    Balances hub acts w w'' := h.trans h' fun _ _ _ _ _ _ => List.not_mem_nil

theorem setHub {i : Nat} {h h' : Hub σ} (hhub : w.hub? i = some h)
    (hkept : h'.isAlive = true → h.Balances [] [] h') : Balances hub [] w (w.setHub i h') :=
  quiet rfl (OnHub.setHub hhub (fun _ => hkept) fun _ _ => .of_eq rfl rfl)

theorem setStore {i : Nat} {h : Hub σ} (hhub : w.hub? i = some h) (s : Store) :
    Balances hub [] w (w.setHub i { h with store := s }) := setHub hhub fun _ => .of_eq rfl rfl

theorem unsubscribe (w : World σ) (s : Subscription) (answer : Bool) :
    Balances hub [.unsubscribed s answer] w (w.unsubscribe s).2 := by
  refine of_places ?_ (fun _ _ => ⟨by simp, by simp⟩) ?_
  · rw [places, places, panels_unsubscribe]
  · exact onHub_unsubscribe w s

theorem detachPanel (w : World σ) {panel : Nat} {p : Panel} (hpanel : w.panels[panel]? = some p) :
    Balances hub [.detached panel p.subscriptions] w (w.unsubscribeAll p.subscriptions) := by
  have hplaces : (w.unsubscribeAll p.subscriptions).places = w.places := by
    rw [places, places, panels_unsubscribeAll]
  have hhandles : w.handles? panel = some p.subscriptions := by
    rw [handles?, places_getElem? hpanel]
    rfl
  refine ⟨?_, fun other handles => ?_, fun other handles hact => ?_⟩
  · rw [Act.closed, List.flatMap_singleton]
    exact onHub_unsubscribeAll _ w
  · rw [handles?, handles?, hplaces]
    simp
  · obtain ⟨rfl, rfl⟩ := Act.detached.inj (List.mem_singleton.mp hact)
    rw [handles?, hplaces]
    exact hhandles

theorem subscribe (w : World σ) (i : Nat) (kind : EventKind) (handler : Handler σ) :
    Balances hub ((w.subscribe i kind handler).1.toList.map (Act.subscribed · handler)) w
      (w.subscribe i kind handler).2 := by
  cases hhub : w.hub? i with
  | none =>
    have hnone : w.subscribe i kind handler = (none, w) := by simp only [World.subscribe, hhub]
    rw [hnone]
    exact of_eq rfl rfl
  | some h =>
    obtain ⟨hs, hhubs, hpanels, -⟩ := subscribe_eq hhub kind handler
    rw [hs]
    refine of_places (by rw [places, hpanels, places]) (fun _ _ => ⟨by simp, by simp⟩) ?_
    refine (OnHub.setHub hhub (fun hi _ => ?_) fun hi g => ?_).congr hhubs
    · simpa [Act.opened, Act.closed, Act.given, Act.returned, Registration.ofHandle,
      Subscription.numbersOn, hi] using Hub.Balances.register h kind handler
    · simpa [Act.opened, Act.closed, Act.given, Act.returned, Registration.ofHandle,
      Subscription.numbersOn, hi] using Hub.Balances.of_eq (h := g) rfl rfl

theorem attachPanel {i : Nat} {h : Hub σ} (hhub : w.hub? i = some h) :
    Balances hub [.attached w.panels.length (Subscription.ofPanel i h.nextHandler)] w
      (w.attachPanel i h).2 := by
  obtain ⟨-, hhubs, hpanels⟩ := attachPanel_eq hhub
  have hplaces : (w.attachPanel i h).2.places =
      w.places ++ [(i, Subscription.ofPanel i h.nextHandler)] := by
    rw [places, hpanels, List.map_append]
    rfl
  refine ⟨?_, fun panel handles => ?_, fun panel handles hact => ?_⟩
  · refine (OnHub.setHub hhub (fun hi _ => ?_) fun hi g => ?_).congr hhubs
    · simpa [Act.opened, Act.closed, Act.given, Act.returned, Registration.ofHandle,
      Subscription.numbersOn, Subscription.ofPanel, hi] using
        Hub.Balances.watch h fun _ => .follow w.panels.length
    · simpa [Act.opened, Act.closed, Act.given, Act.returned, Registration.ofHandle,
      Subscription.numbersOn, Subscription.ofPanel, hi] using
        Hub.Balances.of_eq (h := g) rfl rfl
  · have hlength : w.places.length = w.panels.length := List.length_map _
    rw [handles?, handles?, hplaces, List.getElem?_append, hlength]
    rcases Nat.lt_trichotomy panel w.panels.length with hlt | rfl | hgt
    · have hne : panel ≠ w.panels.length := by omega
      simp [hlt, hne]
    · simp [← hlength, eq_comm]
    · have hnone : w.places[panel]? = none := List.getElem?_eq_none (by omega)
      have hne : panel ≠ w.panels.length := by omega
      have hlate : panel - w.panels.length ≠ 0 := by omega
      simp [hnone, hne, hlate]
  · simp at hact

end Balances

end World

end LabExchange
