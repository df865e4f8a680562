import LabExchange.Proofs.Hub.Mutations

/-!
# What steps do to handlers and panels

Seen from one hub, a step of a run is a chain of few changes: the hub is counted on or gets another
store, handlers come and go, a panel is attached or reloaded. A handler goes only if its number is
given up, and the lists of entries change only by a restoration or under an event that tells so.
-/
namespace LabExchange

variable {σ : Type} {w w' w'' : World σ}

namespace Subscription

/-- The numbers of the handlers of a hub that some handles belong to. -/
def numbersOn (hub : Nat) (handles : List Subscription) : List Nat :=
  (handles.filter (·.hub == hub)).map (·.id)

theorem mem_numbersOn {hub id : Nat} {handles : List Subscription} :
    id ∈ numbersOn hub handles ↔ ∃ s ∈ handles, s.hub = hub ∧ s.id = id := by
  simp [numbersOn, and_assoc]

/-- The handles of a panel whose first handler has a number. -/
def ofPanel (hub first : Nat) : List Subscription :=
  [⟨hub, first, .entryCreated⟩, ⟨hub, first + 1, .entryRemoved⟩, ⟨hub, first + 2, .entriesCleared⟩]

theorem numbersOn_ofPanel (hub first : Nat) :
    numbersOn hub (ofPanel hub first) = [first, first + 1, first + 2] := by
  simp [numbersOn, ofPanel]

theorem numbersOn_ofPanel_of_ne {hub i : Nat} (h : i ≠ hub) (first : Nat) :
    numbersOn hub (ofPanel i first) = [] := by
  simp [numbersOn, ofPanel, h]

end Subscription

/-- The hub that a panel is attached to, and its handles. -/
def Panel.place (p : Panel) : Nat × List Subscription := (p.hub, p.subscriptions)

/-- The handles that a request gives up. -/
def Request.givenUp (w : World σ) : Request → List Subscription
  | .unsubscribe s => [s]
  | .detachPanel panel => (w.panels[panel]?.map Panel.subscriptions).getD []
  | _ => []

namespace Hub

/-- Registers a handler for each kind of event after which a panel is out of date. -/
def watch (h : Hub σ) (handlers : EventKind → Handler σ) : Hub σ :=
  World.watchedKinds.foldl (fun h kind => h.register kind (handlers kind)) h

theorem watch_eq (h : Hub σ) (handlers : EventKind → Handler σ) :
    h.watch handlers = { h with
      nextHandler := h.nextHandler + 3
      registrations := h.registrations ++
        [⟨h.nextHandler, .entryCreated, handlers .entryCreated⟩,
          ⟨h.nextHandler + 1, .entryRemoved, handlers .entryRemoved⟩,
          ⟨h.nextHandler + 2, .entriesCleared, handlers .entriesCleared⟩] } := by
  simp [watch, World.watchedKinds, register]

/-- What can happen to a hub, when some numbers of handlers are given up, and the lists may change
or not. -/
inductive Change (lost : List Nat) (moved : Prop) (h : Hub σ) : Hub σ → Prop
  | counted (handles dispatches : Nat) :
      Change lost moved h { h with handles := handles, dispatches := dispatches }
  | stored {s : Store} (lists : s.lists = h.store.lists ∨ moved) :
      Change lost moved h { h with store := s }
  | registered (kind : EventKind) (handler : Handler σ) :
      Change lost moved h (h.register kind handler)
  | unregistered {id : Nat} (given : id ∈ lost) : Change lost moved h (h.unregister id)

theorem Change.refl {lost : List Nat} {moved : Prop} (h : Hub σ) : h.Change lost moved h :=
  .counted h.handles h.dispatches

theorem Change.mono {lost lost' : List Nat} {moved moved' : Prop} {h h' : Hub σ}
    (hchange : h.Change lost moved h') (hlost : lost ⊆ lost') (hmoved : moved → moved') :
    h.Change lost' moved' h' := by
  cases hchange with
  | counted handles dispatches => exact .counted handles dispatches
  | stored lists => exact .stored (lists.imp_right hmoved)
  | registered kind handler => exact .registered kind handler
  | unregistered given => exact .unregistered (hlost given)

end Hub

namespace World

/-- What can happen to a hub and to the panels at once. -/
inductive Change (hub : Nat) (lost : List Nat) (moved : Prop) (w : World σ) : World σ → Prop
  | ofHub {w' : World σ} (hhub : ∀ h', w'.hub? hub = some h' →
        ∃ h, w.hub? hub = some h ∧ h.Change lost moved h')
      (hpanels : w'.panels = w.panels) : Change hub lost moved w w'
  | attached {w' : World σ} {h : Hub σ} (hhub : w.hub? hub = some h)
      (hhub' : w'.hub? hub = some (h.watch fun _ => .follow w.panels.length))
      (hpanels : w'.panels =
        w.panels ++ [⟨hub, h.view none, Subscription.ofPanel hub h.nextHandler⟩]) :
      Change hub lost moved w w'
  | attachedElsewhere {w' : World σ} {panel : Panel} (hhub : w'.hub? hub = w.hub? hub)
      (hpanels : w'.panels = w.panels ++ [panel])
      (hnone : Subscription.numbersOn hub panel.subscriptions = []) : Change hub lost moved w w'
  | reloaded {w' : World σ} (panel : Nat) (kind? : Option EventKind)
      (hhub : w'.hub? hub = w.hub? hub) (hpanels : w'.panels = (w.reloadPanel panel kind?).panels) :
      Change hub lost moved w w'

/-- Any number of changes. -/
def Changes (hub : Nat) (lost : List Nat) (moved : Prop) : World σ → World σ → Prop :=
  Relation.ReflTransGen (Change hub lost moved)

variable {hub : Nat} {lost : List Nat} {moved : Prop}

theorem Change.mono {lost' : List Nat} {moved' : Prop} (h : Change hub lost moved w w')
    (hlost : lost ⊆ lost') (hmoved : moved → moved') : Change hub lost' moved' w w' := by
  cases h with
  | ofHub hhub hpanels =>
    refine .ofHub (fun h' hhub' => ?_) hpanels
    obtain ⟨h, hold, hchange⟩ := hhub h' hhub'
    exact ⟨h, hold, hchange.mono hlost hmoved⟩
  | attached hhub hhub' hpanels => exact .attached hhub hhub' hpanels
  | attachedElsewhere hhub hpanels hnone => exact .attachedElsewhere hhub hpanels hnone
  | reloaded panel kind? hhub hpanels => exact .reloaded panel kind? hhub hpanels

theorem Change.changes (h : Change hub lost moved w w') : Changes hub lost moved w w' :=
  Relation.ReflTransGen.single h

namespace Changes

theorem refl (w : World σ) : Changes hub lost moved w w := Relation.ReflTransGen.refl

theorem trans (h : Changes hub lost moved w w') (h' : Changes hub lost moved w' w'') :
    Changes hub lost moved w w'' := Relation.ReflTransGen.trans h h'

theorem mono {lost' : List Nat} {moved' : Prop} (h : Changes hub lost moved w w')
    (hlost : lost ⊆ lost') (hmoved : moved → moved') : Changes hub lost' moved' w w' :=
  Relation.ReflTransGen.mono (fun _ _ hchange => Change.mono hchange hlost hmoved) _ _ h

end Changes

/-- Without a move the lists of a hub stay. -/
theorem Change.lists (h : Change hub lost False w w') {s' : Store} (hs' : w'.store? hub = some s') :
    ∃ s, w.store? hub = some s ∧ s'.lists = s.lists := by
  obtain ⟨h', hh', rfl⟩ := store?_eq_some.mp hs'
  cases h with
  | ofHub hhub hpanels =>
    obtain ⟨h, hold, hchange⟩ := hhub h' hh'
    refine ⟨h.store, store?_of_hub? hold, ?_⟩
    cases hchange with
    | stored lists => exact lists.resolve_right id
    | counted | registered | unregistered => rfl
  | @attached h hhub hhub' hpanels =>
    obtain rfl := Option.some.inj (hhub'.symm.trans hh')
    rw [Hub.watch_eq]
    exact ⟨h.store, store?_of_hub? hhub, rfl⟩
  | attachedElsewhere hhub | reloaded _ _ hhub =>
    exact ⟨h'.store, store?_of_hub? (hhub ▸ hh'), rfl⟩

theorem Changes.lists (h : Changes hub lost False w w') {s' : Store}
    (hs' : w'.store? hub = some s') : ∃ s, w.store? hub = some s ∧ s'.lists = s.lists := by
  induction h generalizing s' with
  | refl => exact ⟨s', hs', rfl⟩
  | tail _ hstep ih =>
    obtain ⟨s, hs, heq⟩ := hstep.lists hs'
    obtain ⟨s₀, hs₀, heq₀⟩ := ih hs
    exact ⟨s₀, hs₀, heq.trans heq₀⟩

/-- Where the panels are attached. -/
def places (w : World σ) : List (Nat × List Subscription) := w.panels.map Panel.place

theorem places_getElem? {panel : Nat} {p : Panel} (h : w.panels[panel]? = some p) :
    w.places[panel]? = some p.place := by
  rw [places, List.getElem?_map, h]
  rfl

/-- Reloading changes nothing but what a panel shows. -/
@[simp] theorem places_reloadPanel (w : World σ) (panel : Nat) (kind? : Option EventKind) :
    (w.reloadPanel panel kind?).places = w.places := by
  unfold reloadPanel
  cases hpanel : w.panels[panel]? with
  | none => rfl
  | some p =>
    dsimp only
    cases w.hub? p.hub with
    | none => rfl
    | some h =>
      obtain ⟨hlt, hplace⟩ := List.getElem?_eq_some_iff.mp (places_getElem? hpanel)
      rw [places, List.map_set]
      change w.places.set panel p.place = w.places
      rw [← hplace, List.set_getElem_self]

/-! ## Single changes -/

namespace Change

/-- Only the hubs and the panels of the world afterwards matter. -/
theorem congr (h : Change hub lost moved w w') (hhubs : w''.hubs = w'.hubs)
    (hpanels : w''.panels = w'.panels) : Change hub lost moved w w'' := by
  have hhub? : w''.hub? hub = w'.hub? hub := by rw [hub?, hhubs, hub?]
  cases h with
  | ofHub hhub hpanels' => exact .ofHub (hhub? ▸ hhub) (hpanels.trans hpanels')
  | attached hhub hhub' hpanels' =>
    exact .attached hhub (hhub?.trans hhub') (hpanels.trans hpanels')
  | attachedElsewhere hhub hpanels' hnone =>
    exact .attachedElsewhere (hhub?.trans hhub) (hpanels.trans hpanels') hnone
  | reloaded panel kind? hhub hpanels' =>
    exact .reloaded panel kind? (hhub?.trans hhub) (hpanels.trans hpanels')

/-- Nothing happens to hubs and panels. -/
theorem of_eq (hhubs : w'.hubs = w.hubs) (hpanels : w'.panels = w.panels) :
    Change hub lost moved w w' := by
  refine .ofHub (fun h hhub => ⟨h, ?_, .refl h⟩) hpanels
  rw [hub?, hhubs] at hhub
  exact hhub

theorem modify {i : Nat} {f : Hub σ → Hub σ}
    (hf : ∀ h, w.hubs[i]? = some h → (f h).isAlive = true →
      h.isAlive = true ∧ (i = hub → h.Change lost moved (f h))) :
    Change hub lost moved w { w with hubs := w.hubs.modify i f } := by
  refine .ofHub (fun h' hhub => ?_) rfl
  obtain ⟨hget, halive⟩ := hub?_eq_some.mp hhub
  rw [List.getElem?_modify] at hget
  obtain ⟨h, hold, rfl⟩ := Option.map_eq_some_iff.mp hget
  by_cases hi : i = hub
  · subst hi
    rw [if_pos rfl] at halive ⊢
    obtain ⟨halive', hchange⟩ := hf h hold halive
    exact ⟨h, hub?_eq_some.mpr ⟨hold, halive'⟩, hchange rfl⟩
  · rw [if_neg hi] at halive ⊢
    exact ⟨h, hub?_eq_some.mpr ⟨hold, halive⟩, .refl h⟩

theorem setHub {i : Nat} {h h' : Hub σ} (hhub : w.hub? i = some h)
    (hchange : i = hub → h'.isAlive = true → h.Change lost moved h') :
    Change hub lost moved w (w.setHub i h') := by
  obtain ⟨hget, halive⟩ := hub?_eq_some.mp hhub
  have hmodify : w.setHub i h' = { w with hubs := w.hubs.modify i fun _ => h' } := by
    rw [World.setHub, List.set_eq_modify]
  rw [hmodify]
  refine modify fun g hg halive' => ?_
  obtain rfl : g = h := Option.some.inj (hg.symm.trans hget)
  exact ⟨halive, fun hi => hchange hi halive'⟩

theorem setStore {i : Nat} {h : Hub σ} (hhub : w.hub? i = some h) {s : Store}
    (hlists : i = hub → s.lists = h.store.lists ∨ moved) :
    Change hub lost moved w (w.setHub i { h with store := s }) :=
  setHub hhub fun hi _ => .stored (hlists hi)

theorem beginDispatch {i : Nat} (hi : (w.hub? i).isSome) :
    Change hub lost moved w (w.beginDispatch i) := by
  obtain ⟨h, hhub⟩ := Option.isSome_iff_exists.mp hi
  obtain ⟨hget, halive⟩ := hub?_eq_some.mp hhub
  refine modify fun g hg _ => ?_
  obtain rfl : g = h := Option.some.inj (hg.symm.trans hget)
  exact ⟨halive, fun _ => .counted _ _⟩

theorem endDispatch (w : World σ) (i : Nat) : Change hub lost moved w (w.endDispatch i) := by
  refine modify fun h _ halive => ?_
  obtain ⟨hlive, hsettle⟩ := Hub.settle_of_isAlive halive
  rw [hsettle]
  refine ⟨?_, fun _ => .counted _ _⟩
  simp only [Hub.isAlive, Bool.or_eq_true, decide_eq_true_eq] at hlive ⊢
  omega

theorem subscribe (w : World σ) (i : Nat) (kind : EventKind) (handler : Handler σ) :
    Change hub lost moved w (w.subscribe i kind handler).2 := by
  unfold World.subscribe
  cases hhub : w.hub? i with
  | none => exact .of_eq rfl rfl
  | some h => exact (setHub hhub fun _ _ => .registered kind handler).congr rfl rfl

theorem unsubscribe (w : World σ) {s : Subscription} (hs : s.hub = hub → s.id ∈ lost) :
    Change hub lost moved w (w.unsubscribe s).2 := by
  unfold World.unsubscribe
  cases hhub : w.hub? s.hub with
  | none => exact .of_eq rfl rfl
  | some h =>
    dsimp only
    split
    · exact (setHub hhub fun hi _ => .unregistered (hs hi)).congr rfl rfl
    · exact .of_eq rfl rfl

theorem unsubscribeAll {l : List Subscription}
    (hl : ∀ s ∈ l, s.hub = hub → s.id ∈ lost) (w : World σ) :
    Changes hub lost moved w (w.unsubscribeAll l) := by
  induction l generalizing w with
  | nil => exact .refl w
  | cons s rest ih =>
    obtain ⟨hs, hrest⟩ := List.forall_mem_cons.mp hl
    exact (Change.unsubscribe w hs).changes.trans (ih hrest _)

theorem reloadPanel (w : World σ) (panel : Nat) (kind? : Option EventKind) :
    Change hub lost moved w (w.reloadPanel panel kind?) := by
  refine .reloaded panel kind? ?_ rfl
  unfold World.reloadPanel
  split
  · rfl
  · split <;> rfl

end Change

/-- Subscribing registers a handler on the hub. -/
theorem subscribe_eq {i : Nat} {h : Hub σ} (hhub : w.hub? i = some h) (kind : EventKind)
    (handler : Handler σ) :
    (w.subscribe i kind handler).1 = some ⟨i, h.nextHandler, kind⟩ ∧
      (w.subscribe i kind handler).2.hubs = w.hubs.set i (h.register kind handler) ∧
      (w.subscribe i kind handler).2.panels = w.panels ∧
      (w.subscribe i kind handler).2.hub? i = some (h.register kind handler) := by
  simp only [subscribe, hhub, true_and]
  exact ⟨rfl, rfl, hub?_setHub hhub (hub?_eq_some.mp hhub).2⟩

/-- A panel follows the hub that it is attached to by three handlers. -/
theorem attachPanel_eq {i : Nat} {h : Hub σ} (hhub : w.hub? i = some h) :
    (w.attachPanel i h).1 = w.panels.length ∧
      (w.attachPanel i h).2.hubs = w.hubs.set i (h.watch fun _ => .follow w.panels.length) ∧
      (w.attachPanel i h).2.panels =
        w.panels ++ [⟨i, h.view none, Subscription.ofPanel i h.nextHandler⟩] := by
  obtain ⟨hs₁, hhubs₁, hpanels₁, hhub₁⟩ :=
    subscribe_eq hhub .entryCreated (.follow w.panels.length)
  obtain ⟨hs₂, hhubs₂, hpanels₂, hhub₂⟩ :=
    subscribe_eq hhub₁ .entryRemoved (.follow w.panels.length)
  obtain ⟨hs₃, hhubs₃, hpanels₃, -⟩ :=
    subscribe_eq hhub₂ .entriesCleared (.follow w.panels.length)
  simp only [attachPanel, watchedKinds, List.foldl_cons, List.foldl_nil, addLog, hs₁, hs₂, hs₃,
    hhubs₁, hhubs₂, hhubs₃, hpanels₁, hpanels₂, hpanels₃, List.set_set, true_and]
  exact ⟨rfl, rfl⟩

/-- A panel is attached to the hub that is looked at, or to another one. -/
theorem Change.attachPanel {i : Nat} {h : Hub σ} (hhub : w.hub? i = some h) :
    Change hub lost moved w (w.attachPanel i h).2 := by
  obtain ⟨-, hhubs, hpanels⟩ := attachPanel_eq hhub
  have hsame : (w.attachPanel i h).2.hub? hub =
      (w.setHub i (h.watch fun _ => .follow w.panels.length)).hub? hub := by
    rw [hub?, hhubs]
    rfl
  by_cases hi : i = hub
  · subst hi
    refine .attached hhub (hsame.trans (hub?_setHub hhub ?_)) hpanels
    rw [Hub.watch_eq]
    exact (hub?_eq_some.mp hhub).2
  · refine .attachedElsewhere (hsame.trans ?_) hpanels (Subscription.numbersOn_ofPanel_of_ne hi _)
    rw [hub?, hub?, World.setHub, List.getElem?_set_ne hi]

theorem Changes.of_eq (hhubs : w'.hubs = w.hubs) (hpanels : w'.panels = w.panels) :
    Changes hub lost moved w w' := (Change.of_eq hhubs hpanels).changes

/-! ## Replies -/

variable {supply : Supply} {patience : Nat}

theorem changes_withHub {α : Type} {i : Nat} {f : Hub σ → Reply σ (Option α)}
    (hf : ∀ h, w.hub? i = some h → Changes hub lost moved w ((f h).world w)) :
    Changes hub lost moved w ((w.withHub i f).world w) := by
  rcases withHub_cases w i f with ⟨-, heq⟩ | ⟨h, hhub, heq⟩
  · rw [heq]
    exact .refl w
  · rw [heq]
    exact hf h hhub

/-- A request about the entries changes the lists only if it is a restoration or raises an event
that tells so. -/
theorem change_storeReply {i : Nat} {h : Hub σ} (hhub : w.hub? i = some h) {q : StoreRequest}
    (hrestore : i = hub → ∀ snapshot, q = .restore snapshot → moved)
    (htells : i = hub → ∀ event, (h.store.answer q).event = some event → event.tells → moved) :
    Change hub lost moved w ((w.storeReply i h q).world w) := by
  have hchange : Change hub lost moved w (w.afterRequest i h q) := by
    refine (Change.setStore hhub fun hi => ?_).congr rfl rfl
    by_cases hmoved : moved
    · exact .inr hmoved
    · refine .inl (Store.lists_answer (fun snapshot hq => ?_) fun event hevent hnot => ?_)
      · exact hmoved (hrestore hi snapshot hq)
      · exact hmoved (htells hi event hevent hnot)
  have hreply := ofRequest_storeReply w i h q
  generalize w.storeReply i h q = reply at hreply ⊢
  cases hreply <;> exact hchange

theorem storeReply_of_event {i : Nat} {h : Hub σ} {q : StoreRequest} {event : HubEvent}
    (hevent : (h.store.answer q).event = some event) :
    w.storeReply i h q =
      .raises i event (fun _ => some (h.store.answer q).answer) (w.afterRequest i h q) := by
  simp only [storeReply, hevent]
  rfl

theorem change_exportReply {i : Nat} {h : Hub σ} (hhub : w.hub? i = some h) {x : Store.Export}
    (hraises : i = hub → ∀ e answer w',
      w.exportReply supply patience i h x = .raises i (.entryCreated e e.category) answer w' →
        moved) :
    Change hub lost moved w ((w.exportReply supply patience i h x).world w) := by
  have hreply := ofExport_exportReply supply patience w i h x
  generalize w.exportReply supply patience i h x = reply at hreply hraises ⊢
  cases hreply with
  | waiting | refused => exact .of_eq rfl rfl
  | exhausted drawn hexport =>
    obtain ⟨c, hinsert⟩ := Store.exportData_eq_exhausted hexport
    obtain ⟨rfl, -⟩ := Store.insert_eq_exhausted hinsert
    exact (Change.setStore (s := h.store.issue _) hhub fun _ => .inl rfl).congr rfl rfl
  | stored drawn hexport hevent =>
    obtain ⟨e, -, hevent', -⟩ := Store.exists_entry_of_stored hexport
    obtain ⟨rfl, rfl⟩ := HubEvent.entryCreated.inj (Option.some.inj (hevent.symm.trans hevent'))
    exact (Change.setStore hhub fun hi => .inr (hraises hi _ _ _ rfl)).congr rfl rfl

theorem change_load {i : Nat} {h : Hub σ} (hhub : w.hub? i = some h) (path : String)
    (hmoved : i = hub → moved) : Change hub lost moved w (w.load i h path).2 := by
  unfold load
  split
  · exact .of_eq rfl rfl
  · exact (Change.setStore hhub fun hi => .inr (hmoved hi)).congr rfl rfl

theorem change_save (supply : Supply) (w : World σ) (h : Hub σ) (path : String) :
    Change hub lost moved w (w.save supply h path).2 := by
  unfold save
  dsimp only
  split <;> exact .of_eq rfl rfl

theorem changes_openChannel (w : World σ) (i : Nat) (kind : EventKind) :
    Changes hub lost moved w
      (({ w with channels := w.channels ++ [⟨[], true⟩] } : World σ).subscribe i kind
        (.forward w.channels.length)).2 := by
  refine Changes.trans ?_ (Change.subscribe _ i kind _).changes
  exact .of_eq rfl rfl

/-- A panel asks for an entry to be used as a hub is asked for it. -/
theorem world_usePanel (supply : Supply) (patience : Nat) (w : World σ) (panel : Nat)
    (summary : EntrySummary) (target : String) :
    (w.reply supply patience (.usePanel panel summary target)).world w = w ∨
      ∃ i h, w.hub? i = some h ∧
        (w.reply supply patience (.usePanel panel summary target)).world w =
          (w.storeReply i h (.requestUse summary.category.name summary.id target)).world w := by
  rw [reply]
  split
  · exact .inl rfl
  · next i h hpanel =>
    refine .inr ⟨i, h, hub?_of_panel hpanel, ?_⟩
    split <;> next heq => rw [heq]; rfl

theorem changes_usePanel (w : World σ) (panel : Nat) (summary : EntrySummary) (target : String) :
    Changes hub lost moved w
      ((w.reply supply patience (.usePanel panel summary target)).world w) := by
  rcases world_usePanel supply patience w panel summary target with heq | ⟨i, h, hhub, heq⟩
  · rw [heq]
    exact .refl w
  · rw [heq]
    refine (change_storeReply hhub (fun _ _ => nofun) fun _ event hevent htells => ?_).changes
    exact absurd htells (Store.not_tells_of_requestUse hevent)

theorem changes_detachPanel (w : World σ) (panel : Nat) :
    Changes hub (Subscription.numbersOn hub ((Request.detachPanel panel).givenUp w)) moved w
      ((w.reply supply patience (.detachPanel panel)).world w) := by
  rw [reply]
  split
  · exact .refl w
  · next p hpanel =>
    refine (Change.unsubscribeAll (fun s hs hhub => ?_) w).trans (.of_eq rfl rfl)
    refine Subscription.mem_numbersOn.mpr ⟨s, ?_, hhub, rfl⟩
    simpa [Request.givenUp, hpanel] using hs

theorem changes_parse (w : World σ) (text : String) :
    Changes hub lost moved w ((w.reply supply patience (.parse text)).world w) := by
  rw [reply]
  split <;> exact Changes.of_eq rfl rfl

theorem changes_acquire (w : World σ) (i : Nat) :
    Changes hub lost moved w ((w.reply supply patience (.acquire i)).world w) := by
  rw [reply]
  cases hhub : w.hub? i with
  | none => exact .refl w
  | some h => exact (Change.setHub hhub fun _ _ => .counted _ _).changes

theorem changes_release (w : World σ) (i : Nat) :
    Changes hub lost moved w ((w.reply supply patience (.release i)).world w) := by
  rw [reply]
  cases hhub : w.hub? i with
  | none => exact .refl w
  | some h =>
    refine (Change.setHub hhub fun _ halive => ?_).changes
    rw [(Hub.settle_of_isAlive halive).2]
    exact .counted _ _

end World

/-! ## Moments -/

namespace Moment

/-- A request to restore a hub. -/
inductive Restores (hub : Nat) : Moment σ → Prop
  | snapshot {w : World σ} {snapshot : Snapshot} {reply : Reply σ (Option Nat)} :
      Restores hub ⟨w, .store hub (.restore snapshot), reply⟩
  | load {w : World σ} {path : String} {reply : Reply σ (Option (Except Failure Nat))} :
      Restores hub ⟨w, .load hub path, reply⟩

theorem Restores.request {hub : Nat} {m : Moment σ} (h : m.Restores hub) :
    (∃ snapshot, m.request = .store hub (.restore snapshot)) ∨
      ∃ path, m.request = .load hub path := by
  cases h with
  | snapshot => exact .inl ⟨_, rfl⟩
  | load => exact .inr ⟨_, rfl⟩

/-- A request after which a hub raises an event. -/
def Announces (hub : Nat) (event : HubEvent) (m : Moment σ) : Prop :=
  ∃ answer w', m.reply = .raises hub event answer w'

/-- A request that may change the lists of a hub. -/
def Moves (hub : Nat) (m : Moment σ) : Prop :=
  m.Restores hub ∨ ∃ event, m.Announces hub event ∧ event.tells

/-- The numbers of the handlers of a hub that are given up. -/
def lost (hub : Nat) (m : Moment σ) : List Nat :=
  Subscription.numbersOn hub (m.request.givenUp m.before)

theorem changes_store (supply : Supply) (patience hub : Nat) (w : World σ) (i : Nat)
    (q : StoreRequest) {lost : List Nat} :
    w.Changes hub lost (Moves hub ⟨w, .store i q, w.reply supply patience (.store i q)⟩)
      ((w.reply supply patience (.store i q)).world w) := by
  refine World.changes_withHub fun h hhub => (World.change_storeReply hhub ?_ ?_).changes
  · rintro rfl snapshot rfl
    exact .inl .snapshot
  · rintro rfl event hevent htells
    have hreply : w.reply supply patience (.store i q) = w.storeReply i h q :=
      World.withHub_of_hub? hhub _
    exact .inr ⟨event, ⟨_, _, hreply.trans (World.storeReply_of_event hevent)⟩, htells⟩

theorem changes_exportData (supply : Supply) (patience hub : Nat) (w : World σ) (i : Nat)
    (x : Store.Export) {lost : List Nat} :
    w.Changes hub lost (Moves hub ⟨w, .exportData i x, w.reply supply patience (.exportData i x)⟩)
      ((w.reply supply patience (.exportData i x)).world w) := by
  refine World.changes_withHub fun h hhub => (World.change_exportReply hhub ?_).changes
  rintro rfl e answer w' hraises
  have hreply : w.reply supply patience (.exportData i x) =
      w.exportReply supply patience i h x := World.withHub_of_hub? hhub _
  exact .inr ⟨_, ⟨_, _, hreply.trans hraises⟩, HubEvent.tells_iff.mpr (by simp)⟩

/-- Whatever is requested, it is a matter of changes. -/
theorem IsReply.changes {supply : Supply} {m : Moment σ} (h : m.IsReply supply) (hub : Nat) :
    m.before.Changes hub (m.lost hub) (m.Moves hub) m.after := by
  obtain ⟨w, r, reply⟩ := m
  obtain ⟨patience, rfl⟩ : ∃ patience, w.reply supply patience r = reply := h
  change w.Changes hub _ _ ((w.reply supply patience r).world w)
  cases r with
  | store i q => exact changes_store supply patience hub w i q
  | exportData i x => exact changes_exportData supply patience hub w i x
  | load i path =>
    refine World.changes_withHub fun h hhub => (World.change_load hhub path ?_).changes
    rintro rfl
    exact .inl .load
  | save i path =>
    exact World.changes_withHub fun h hhub => (World.change_save supply w h path).changes
  | attachPanel i =>
    exact World.changes_withHub fun h hhub => (World.Change.attachPanel hhub).changes
  | openChannel i kind =>
    exact World.changes_withHub fun h hhub => World.changes_openChannel w i kind
  | snapshot i | emit i event | handlerCount i kind | handlerTotal i =>
    exact World.changes_withHub fun h hhub => World.Changes.of_eq rfl rfl
  | unsubscribe s =>
    refine (World.Change.unsubscribe w fun hs => ?_).changes
    exact Subscription.mem_numbersOn.mpr ⟨s, List.mem_singleton_self s, hs, rfl⟩
  | refreshPanel panel => exact (World.Change.reloadPanel w panel none).changes
  | followPanel panel kind => exact (World.Change.reloadPanel w panel (some kind)).changes
  | usePanel panel summary target => exact World.changes_usePanel w panel summary target
  | detachPanel panel => exact World.changes_detachPanel w panel
  | parse text => exact World.changes_parse w text
  | acquire i => exact World.changes_acquire w i
  | release i => exact World.changes_release w i
  | send | receive | closeChannel | readPanel | isAlive | inHandler | fileText | putFile
  | makeDirectory => exact World.Changes.of_eq rfl rfl

end Moment

/-! ## Steps and runs -/

namespace Machine

variable {supply : Supply} {hub : Nat} {lost : List Nat} {moved : Prop} {m m' : Machine σ}
  {t : List (Moment σ)}

/-- A step makes one request at most, and makes it in its world. -/
theorem Step.moment (h : Step supply m t m') :
    t = [] ∨ ∃ a, t = [a] ∧ a.before = m.world ∧ a.IsReply supply := by
  cases h with
  | answered patience hreply | raised patience hreply | panicked patience hreply =>
    exact .inr ⟨_, rfl, rfl, patience, hreply⟩
  | subscribed | recalled | remembered | handled => exact .inl rfl

theorem changes_deliver (i : Nat) (event : HubEvent) (next : DispatchReport → Program σ)
    (ds : List (Dispatch σ)) (handlers : List (Registration σ)) (report : DispatchReport)
    (w : World σ) : w.Changes hub lost moved (deliver i event next ds handlers report w).world := by
  cases handlers with
  | nil => exact (World.Change.endDispatch w i).changes
  | cons r rest => exact .of_eq rfl rfl

theorem changes_dispatch {i : Nat} (hi : (w.hub? i).isSome) (event : HubEvent)
    (next : DispatchReport → Program σ) (ds : List (Dispatch σ)) :
    w.Changes hub lost moved (dispatch i event next ds w).world := by
  have hbegin : w.Changes hub lost moved (w.beginDispatch i) :=
    (World.Change.beginDispatch hi).changes
  refine hbegin.trans (World.Changes.trans ?_ (changes_deliver i event next ds _ _ _))
  exact .of_eq rfl rfl

theorem lost_subset_flatMap {a : Moment σ} (ha : a ∈ t) :
    a.lost hub ⊆ t.flatMap (Moment.lost hub) :=
  fun _ hid => List.mem_flatMap.mpr ⟨a, ha, hid⟩

/-- A step is a matter of changes. -/
theorem Step.changes (h : Step supply m t m') (hlost : ∀ a ∈ t, a.lost hub ⊆ lost)
    (hmoved : ∀ a ∈ t, a.Moves hub → moved) : m.world.Changes hub lost moved m'.world := by
  have hrequest : ∀ a ∈ t, a.IsReply supply → a.before.Changes hub lost moved a.after :=
    fun a ha hreply => (hreply.changes hub).mono (hlost a ha) (hmoved a ha)
  cases h with
  | answered patience hreply | panicked patience hreply =>
    exact hrequest _ (List.mem_singleton_self _) ⟨patience, hreply⟩
  | @raised w w' ds r next i event answer patience hreply =>
    have halive := (World.follows_reply hub supply patience w r).alive hreply
    exact (hrequest _ (List.mem_singleton_self _) ⟨patience, hreply⟩).trans
      (changes_dispatch halive event _ ds)
  | subscribed w ds i kind handler next => exact (World.Change.subscribe w i kind handler).changes
  | recalled w ds next => exact .refl w
  | remembered w ds change next => exact .of_eq rfl rfl
  | handled w d ds o =>
    refine World.Changes.trans ?_ (changes_deliver d.hub d.event d.next ds d.waiting _ _)
    exact .of_eq rfl rfl

theorem Runs.silent {m'' : Machine σ} (h : Step supply m [] m') (rest : Runs supply m' t m'') :
    Runs supply m t m'' := .step h rest

theorem Runs.moment {m'' : Machine σ} {a : Moment σ} (h : Step supply m [a] m')
    (rest : Runs supply m' t m'') : Runs supply m (a :: t) m'' := .step h rest

/-- A run through a moment comes to it, makes its step, and goes on. -/
theorem Runs.split {pre post : List (Moment σ)} {a : Moment σ}
    (h : Runs supply m (pre ++ a :: post) m') :
    ∃ m₁ m₂, Runs supply m pre m₁ ∧ Step supply m₁ [a] m₂ ∧ Runs supply m₂ post m' := by
  generalize ht : pre ++ a :: post = t at h
  induction h generalizing pre with
  | refl m => exact absurd ht (by simp)
  | @step m m' m'' t t' h rest ih =>
    rcases h.moment with rfl | ⟨b, rfl, -⟩
    · obtain ⟨m₁, m₂, hpre, hrest⟩ := ih ht
      exact ⟨m₁, m₂, .step h hpre, hrest⟩
    · cases pre with
      | nil =>
        obtain ⟨rfl, rfl⟩ := List.cons.inj ht
        exact ⟨m, m', .refl m, h, rest⟩
      | cons c pre =>
        obtain ⟨rfl, htail⟩ := List.cons.inj ht
        obtain ⟨m₁, m₂, hpre, hrest⟩ := ih htail
        exact ⟨m₁, m₂, .step h hpre, hrest⟩

end Machine

/-- Removes every entry from a hub as soon as it has been created. -/
def removeAgain : Handler σ := fun event => match event with
  | .entryCreated e c => .request (.store 0 (.remove c.name e.id)) fun _ => .finish .succeeded
  | _ => .finish .succeeded

/-- An export of a function. -/
def exportSquare : Request := .exportData 0 ⟨"plot", "functions", .function "x^2", none⟩

end LabExchange
