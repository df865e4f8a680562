import LabExchange.Proofs.Hub.Journal

/-!
# Recording the events of a hub

A recorder listens to a hub from the beginning, ahead of all other handlers. It is told of every
change of the entries at once and of nothing else, so that what it has heard at any moment of a run,
taken at its word from empty lists on, gives the lists that the hub holds at that moment.
-/
namespace LabExchange

variable {σ : Type} {supply : Supply} {hub : Nat} {recorder : EventKind → Handler σ}
  {w w' : World σ} {lost : List Nat} {moved : Prop}

/-- The numbers of the handlers of a recorder, the first three of a hub. -/
def recorderNumbers : List Nat := [0, 1, 2]

theorem mem_recorderNumbers {id : Nat} : id ∈ recorderNumbers ↔ id < 3 := by
  simp only [recorderNumbers, List.mem_cons, List.not_mem_nil, or_false]
  omega

/-- The handlers of a recorder. -/
def recorderHandlers (recorder : EventKind → Handler σ) : List (Registration σ) :=
  [⟨0, .entryCreated, recorder .entryCreated⟩, ⟨1, .entryRemoved, recorder .entryRemoved⟩,
    ⟨2, .entriesCleared, recorder .entriesCleared⟩]

/-- Other handlers than those of a recorder. -/
def AreLater (l : List (Registration σ)) : Prop := ∀ r ∈ l, 3 ≤ r.id

namespace Hub

/-- A recorder is registered on a hub ahead of all other handlers. -/
structure IsRecorded (recorder : EventKind → Handler σ) (h : Hub σ) : Prop where
  later : 3 ≤ h.nextHandler
  first : ∃ others, h.registrations = recorderHandlers recorder ++ others ∧ AreLater others

theorem IsRecorded.register {h : Hub σ} (hh : h.IsRecorded recorder) (kind : EventKind)
    (handler : Handler σ) : (h.register kind handler).IsRecorded recorder := by
  obtain ⟨hlater, others, hfirst, hothers⟩ := hh
  refine ⟨Nat.le_succ_of_le hlater, others ++ [⟨h.nextHandler, kind, handler⟩], ?_, ?_⟩
  · rw [Hub.register, hfirst, List.append_assoc]
  · exact List.forall_mem_append.mpr ⟨hothers, List.forall_mem_singleton.mpr hlater⟩

theorem IsRecorded.watch {h : Hub σ} (hh : h.IsRecorded recorder)
    (handlers : EventKind → Handler σ) : (h.watch handlers).IsRecorded recorder :=
  ((hh.register _ _).register _ _).register _ _

theorem IsRecorded.change {h h' : Hub σ} (hh : h.IsRecorded recorder)
    (hlost : ∀ id ∈ lost, 3 ≤ id) (hchange : h.Change lost moved h') : h'.IsRecorded recorder := by
  cases hchange with
  | counted | stored => exact ⟨hh.later, hh.first⟩
  | registered kind handler => exact hh.register kind handler
  | @unregistered id given =>
    obtain ⟨hlater, others, hfirst, hothers⟩ := hh
    refine ⟨hlater, others.filter (·.id != id), ?_, fun r hr => hothers r (List.mem_filter.mp hr).1⟩
    have hid := hlost id given
    have hkept : (recorderHandlers recorder).filter (·.id != id) = recorderHandlers recorder := by
      refine List.filter_eq_self.mpr fun r hr => ?_
      simp only [recorderHandlers, List.mem_cons, List.not_mem_nil, or_false] at hr
      rcases hr with rfl | rfl | rfl <;> simp <;> omega
    rw [unregister, hfirst, List.filter_append, hkept]

/-- An event that tells of a change goes to the recorder first, and another event does not go to
it at all. -/
theorem IsRecorded.handlersOf {h : Hub σ} (hh : h.IsRecorded recorder) (event : HubEvent) :
    ∃ others, AreLater others ∧
      (event.tells → ∃ r, r.id < 3 ∧ h.handlersOf event.kind = r :: others) ∧
      (¬event.tells → h.handlersOf event.kind = others) := by
  obtain ⟨-, others, hfirst, hothers⟩ := hh
  refine ⟨others.filter (·.kind == event.kind), fun r hr => hothers r (List.mem_filter.mp hr).1,
    fun htells => ?_, fun hnot => ?_⟩
  · rw [Hub.handlersOf, hfirst, List.filter_append]
    cases event with
    | entryCreated => exact ⟨_, by simp, rfl⟩
    | entryRemoved => exact ⟨_, by simp, rfl⟩
    | entriesCleared => exact ⟨_, by simp, rfl⟩
    | useData => exact absurd rfl (HubEvent.tells_iff.mp htells _ _)
  · rw [Hub.handlersOf, hfirst, List.filter_append]
    cases event with
    | useData => rfl
    | entryCreated | entryRemoved | entriesCleared =>
      exact absurd (HubEvent.tells_iff.mpr (by simp)) hnot

end Hub

namespace World

/-- A recorder is registered on a hub, and no panel has any of its handles. -/
structure IsRecorded (hub : Nat) (recorder : EventKind → Handler σ) (w : World σ) : Prop where
  registered : ∀ h, w.hub? hub = some h → h.IsRecorded recorder
  panels : ∀ p ∈ w.places, ∀ id ∈ Subscription.numbersOn hub p.2, 3 ≤ id

theorem IsRecorded.change (hw : w.IsRecorded hub recorder) (hlost : ∀ id ∈ lost, 3 ≤ id)
    (h : Change hub lost moved w w') : w'.IsRecorded hub recorder := by
  cases h with
  | ofHub hhub hpanels =>
    refine ⟨fun h' hh' => ?_, fun p hp => hw.panels p ?_⟩
    · obtain ⟨h, hold, hchange⟩ := hhub h' hh'
      exact (hw.registered h hold).change hlost hchange
    · rwa [places, hpanels] at hp
  | @attached h hhub hhub' hpanels =>
    refine ⟨fun h' hh' => ?_, fun p hp id hid => ?_⟩
    · obtain rfl := Option.some.inj (hhub'.symm.trans hh')
      exact (hw.registered h hhub).watch _
    · rw [places, hpanels, List.map_append, List.mem_append] at hp
      rcases hp with hold | hnew
      · exact hw.panels p hold id hid
      · obtain rfl := List.mem_singleton.mp hnew
        have hlater := (hw.registered h hhub).later
        rw [Panel.place, Subscription.numbersOn_ofPanel] at hid
        simp only [List.mem_cons, List.not_mem_nil, or_false] at hid
        omega
  | attachedElsewhere hhub hpanels hnone =>
    refine ⟨fun h hh => hw.registered h (hhub ▸ hh), fun p hp id hid => ?_⟩
    rw [places, hpanels, List.map_append, List.mem_append] at hp
    rcases hp with hold | hnew
    · exact hw.panels p hold id hid
    · obtain rfl := List.mem_singleton.mp hnew
      rw [Panel.place, hnone] at hid
      exact absurd hid List.not_mem_nil
  | reloaded panel kind? hhub hpanels =>
    refine ⟨fun h hh => hw.registered h (hhub ▸ hh), fun p hp => hw.panels p ?_⟩
    rwa [places, hpanels, ← places, places_reloadPanel] at hp

theorem IsRecorded.changes (hw : w.IsRecorded hub recorder) (hlost : ∀ id ∈ lost, 3 ≤ id)
    (h : Changes hub lost moved w w') : w'.IsRecorded hub recorder := by
  induction h with
  | refl => exact hw
  | tail _ hstep ih => exact ih.change hlost hstep

/-- Subscribes the handlers of a recorder. -/
def record (w : World σ) (hub : Nat) (recorder : EventKind → Handler σ) : World σ :=
  watchedKinds.foldl (fun w kind => (w.subscribe hub kind (recorder kind)).2) w

theorem record_eq {h : Hub σ} (hhub : w.hub? hub = some h) (recorder : EventKind → Handler σ) :
    (w.record hub recorder).hub? hub = some (h.watch recorder) ∧
      (w.record hub recorder).panels = w.panels := by
  obtain ⟨-, -, hpanels₁, hhub₁⟩ := subscribe_eq hhub .entryCreated (recorder .entryCreated)
  obtain ⟨-, -, hpanels₂, hhub₂⟩ := subscribe_eq hhub₁ .entryRemoved (recorder .entryRemoved)
  obtain ⟨-, -, hpanels₃, hhub₃⟩ := subscribe_eq hhub₂ .entriesCleared (recorder .entriesCleared)
  exact ⟨hhub₃, hpanels₃.trans (hpanels₂.trans hpanels₁)⟩

end World

/-- A request that gives up a handle of a recorder. -/
inductive Moment.Silences (hub : Nat) : Moment σ → Prop
  | intro {w : World σ} {s : Subscription} {reply : Reply σ Bool} (hhub : s.hub = hub)
      (hid : s.id ∈ recorderNumbers) : Silences hub ⟨w, .unsubscribe s, reply⟩

/-- Other handles have greater numbers. -/
theorem Moment.le_of_mem_lost {m : Moment σ} (hm : m.before.IsRecorded hub recorder)
    (hsilences : ¬m.Silences hub) {id : Nat} (hid : id ∈ m.lost hub) : 3 ≤ id := by
  obtain ⟨w, r, reply⟩ := m
  obtain ⟨s, hs, hhub, rfl⟩ := Subscription.mem_numbersOn.mp hid
  cases r with
  | unsubscribe s' =>
    obtain rfl := List.mem_singleton.mp hs
    exact Nat.le_of_not_lt fun hlt => hsilences (.intro hhub (mem_recorderNumbers.mpr hlt))
  | detachPanel panel =>
    cases hpanel : w.panels[panel]? with
    | none => simp [Request.givenUp, hpanel] at hs
    | some p =>
      have hs' : s ∈ p.subscriptions := by simpa [Request.givenUp, hpanel] using hs
      have hplace := List.mem_of_getElem? (World.places_getElem? hpanel)
      exact hm.panels p.place hplace s.id (Subscription.mem_numbersOn.mpr ⟨s, hs', hhub, rfl⟩)
  | _ => exact absurd hs List.not_mem_nil

namespace Machine

variable {m m' m'' : Machine σ} {t t' : List (Moment σ)}

/-! ## What is heard -/

/-- The dispatches that go on around the program of a machine, or that go on when the program has
ended one of them. -/
def outer (m : Machine σ) : List (Dispatch σ) :=
  match m.program with
  | .finish _ => m.dispatches.tail
  | _ => m.dispatches

/-- The events that handlers of a hub with some numbers begin to handle in a step. A handler begins
when a dispatch comes on top of those that go on. -/
def heard (hub : Nat) (numbers : List Nat) (m m' : Machine σ) : List HubEvent :=
  match m'.dispatches with
  | [] => []
  | d :: _ =>
    if m'.dispatches.length = m.outer.length + 1 ∧ d.hub = hub ∧ d.running ∈ numbers then [d.event]
    else []

/-- A run with the events that handlers of a hub with some numbers are given in it. -/
inductive Hears (supply : Supply) (hub : Nat) (numbers : List Nat) :
    Machine σ → List (Moment σ) → List HubEvent → Machine σ → Prop
  | refl (m : Machine σ) : Hears supply hub numbers m [] [] m
  | step {m m' m'' : Machine σ} {t t' : List (Moment σ)} {events : List HubEvent}
      (h : Step supply m t m') (rest : Hears supply hub numbers m' t' events m'') :
      Hears supply hub numbers m (t ++ t') (heard hub numbers m m' ++ events) m''

/-- In every run something is heard, be it nothing. -/
theorem Runs.exists_hears (h : Runs supply m t m') (hub : Nat) (numbers : List Nat) :
    ∃ events, Hears supply hub numbers m t events m' := by
  induction h with
  | refl m => exact ⟨[], .refl m⟩
  | step h rest ih =>
    obtain ⟨events, hrest⟩ := ih
    exact ⟨_, .step h hrest⟩

theorem Hears.runs {numbers : List Nat} {events : List HubEvent}
    (h : Hears supply hub numbers m t events m') : Runs supply m t m' := by
  induction h with
  | refl m => exact .refl m
  | step h rest ih => exact .step h ih

theorem heard_of_length_le {numbers : List Nat} (h : m'.dispatches.length ≤ m.outer.length) :
    heard hub numbers m m' = [] := by
  unfold heard
  split
  · rfl
  · exact if_neg fun hbegun => by omega

/-- What is heard of a dispatch is its event, if the next handler is one of those that count. -/
theorem heard_deliver_cons {numbers : List Nat} {i : Nat} {event : HubEvent}
    {next : DispatchReport → Program σ} {ds : List (Dispatch σ)} (r : Registration σ)
    (rest : List (Registration σ)) (report : DispatchReport) (w : World σ) (hds : m.outer = ds) :
    heard hub numbers m (deliver i event next ds (r :: rest) report w) =
      if i = hub ∧ r.id ∈ numbers then [event] else [] := by
  simp [heard, deliver, hds]

/-- The recorder has nothing more to do with a dispatch when its turn is over. -/
theorem heard_deliver_of_later {i : Nat} {event : HubEvent} {next : DispatchReport → Program σ}
    {ds : List (Dispatch σ)} {handlers : List (Registration σ)} (report : DispatchReport)
    (w : World σ) (hds : m.outer = ds) (hlater : i = hub → AreLater handlers) :
    heard hub recorderNumbers m (deliver i event next ds handlers report w) = [] := by
  cases handlers with
  | nil => exact heard_of_length_le (by rw [hds]; exact Nat.le_refl _)
  | cons r rest =>
    rw [heard_deliver_cons r rest report w hds, if_neg]
    rintro ⟨hhub, hid⟩
    have hle := hlater hhub r List.mem_cons_self
    have hlt := mem_recorderNumbers.mp hid
    omega

/-! ## Steps -/

/-- A recorder listens to a hub, and what waits in the dispatches of the hub is not its handlers. -/
structure IsRecording (hub : Nat) (recorder : EventKind → Handler σ) (m : Machine σ) : Prop where
  world : m.world.IsRecorded hub recorder
  waiting : ∀ d ∈ m.dispatches, d.hub = hub → AreLater d.waiting
  sound : ∀ s, m.world.store? hub = some s → s.IsSound

theorem waiting_deliver {i : Nat} {event : HubEvent} {next : DispatchReport → Program σ}
    {ds : List (Dispatch σ)} (handlers : List (Registration σ)) (report : DispatchReport)
    (w : World σ) (hds : ∀ d ∈ ds, d.hub = hub → AreLater d.waiting)
    (hlater : i = hub → AreLater handlers.tail) :
    ∀ d ∈ (deliver i event next ds handlers report w).dispatches, d.hub = hub →
      AreLater d.waiting := by
  cases handlers with
  | nil => exact hds
  | cons r rest => exact List.forall_mem_cons.mpr ⟨hlater, hds⟩

/-- The handlers that an event goes to, given to a hub that is recorded. -/
theorem tail_handlers_later {w : World σ} (hw : w.IsRecorded hub recorder) (event : HubEvent) :
    AreLater (((w.hub? hub).map (·.handlersOf event.kind)).getD []).tail := by
  cases hhub : w.hub? hub with
  | none => exact nofun
  | some h =>
    obtain ⟨others, hothers, htold, huntold⟩ := (hw.registered h hhub).handlersOf event
    by_cases htells : event.tells
    · obtain ⟨r, -, hhandlers⟩ := htold htells
      simpa [hhandlers] using hothers
    · have hhandlers := huntold htells
      simp only [Option.map_some, Option.getD_some, hhandlers]
      exact fun r hr => hothers r (List.mem_of_mem_tail hr)

theorem Step.isRecorded_after (h : Step supply m t m') (hm : m.world.IsRecorded hub recorder)
    (ht : ∀ a ∈ t, ¬a.Silences hub) :
    m'.world.IsRecorded hub recorder ∧ ∀ a ∈ t, a.after.IsRecorded hub recorder := by
  have hlost : ∀ a ∈ t, ∀ id ∈ a.lost hub, 3 ≤ id := by
    intro a ha id hid
    rcases h.moment with rfl | ⟨b, rfl, hbefore, -⟩
    · exact absurd ha List.not_mem_nil
    · obtain rfl := List.mem_singleton.mp ha
      exact Moment.le_of_mem_lost (hbefore ▸ hm) (ht a ha) hid
  constructor
  · have hchanges : m.world.Changes hub (t.flatMap (Moment.lost hub)) True m'.world :=
      h.changes (fun a ha => lost_subset_flatMap ha) fun _ _ _ => trivial
    refine hm.changes (fun id hid => ?_) hchanges
    obtain ⟨a, ha, hid⟩ := List.mem_flatMap.mp hid
    exact hlost a ha id hid
  · intro a ha
    rcases h.moment with rfl | ⟨b, rfl, hbefore, hreply⟩
    · exact absurd ha List.not_mem_nil
    · obtain rfl := List.mem_singleton.mp ha
      rw [← hbefore] at hm
      exact hm.changes (hlost a ha) (hreply.changes hub)

theorem Step.isRecording (h : Step supply m t m') (hm : m.IsRecording hub recorder)
    (ht : ∀ a ∈ t, ¬a.Silences hub) : m'.IsRecording hub recorder := by
  obtain ⟨hworld, hafter⟩ := h.isRecorded_after hm.world ht
  refine ⟨hworld, ?_, fun s' hs' => ?_⟩
  · have hwaiting := hm.waiting
    cases h with
    | @raised w w' ds r next i event answer patience hreply =>
      refine waiting_deliver _ _ _ hwaiting fun hi => ?_
      subst hi
      exact tail_handlers_later (hafter _ (List.mem_singleton_self _)) event
    | handled w d ds o =>
      obtain ⟨hfirst, hrest⟩ := List.forall_mem_cons.mp hwaiting
      exact waiting_deliver _ _ _ hrest fun hi r hr => hfirst hi r (List.mem_of_mem_tail hr)
    | answered | panicked | subscribed | recalled | remembered => exact hwaiting
  · have hleads : m.world.LeadsTo hub m'.world := by
      rcases h.lineage hub with ⟨-, hleads⟩ | ⟨a, rfl, hbefore, hreply, hleads⟩
      · exact hleads
      · rw [← hbefore]
        exact (hreply.leadsTo hub).trans hleads
    obtain ⟨s, hs, hsteps⟩ := hleads s' hs'
    exact (hm.sound s hs).steps hsteps

/-- The recorder hears nothing if no event is raised that tells of a change. -/
theorem Step.heard_of_untold (h : Step supply m t m') (hm : m.IsRecording hub recorder)
    (hafter : ∀ a ∈ t, a.after.IsRecorded hub recorder)
    (ht : ∀ a ∈ t, ∀ event, a.Announces hub event → ¬event.tells) :
    heard hub recorderNumbers m m' = [] := by
  cases h with
  | @raised w w' ds r next i event answer patience hreply =>
    refine heard_deliver_of_later _ _ rfl fun hi => ?_
    subst hi
    have hnot := ht _ (List.mem_singleton_self _) event ⟨answer, w', rfl⟩
    cases hhub : w'.hub? i with
    | none => exact nofun
    | some h =>
      have hw' : w'.IsRecorded i recorder := hafter _ (List.mem_singleton_self _)
      obtain ⟨others, hothers, -, huntold⟩ := (hw'.registered h hhub).handlersOf event
      simpa [huntold hnot] using hothers
  | handled w d ds o =>
    exact heard_deliver_of_later _ _ rfl (hm.waiting d List.mem_cons_self)
  | answered | panicked | subscribed | recalled | remembered =>
    exact heard_of_length_le (Nat.le_refl _)

/-- The recorder hears an event that tells of a change when it is raised. -/
theorem Step.heard_of_told {a : Moment σ} (h : Step supply m [a] m')
    (hafter : a.after.IsRecorded hub recorder) {event : HubEvent} (hevent : a.Announces hub event)
    (htells : event.tells) :
    heard hub recorderNumbers m m' = [event] ∧ a.after.Changes hub [] False m'.world := by
  obtain ⟨answer, w', hreply'⟩ := hevent
  cases h with
  | @raised w w' ds r next i event answer patience hreply =>
    obtain ⟨rfl, rfl, -⟩ := Reply.raises.inj hreply'
    have halive := (World.follows_reply i supply patience w r).alive hreply
    refine ⟨?_, changes_dispatch halive event _ ds⟩
    obtain ⟨h, hhub⟩ := Option.isSome_iff_exists.mp halive
    obtain ⟨others, -, htold, -⟩ := (hafter.registered h hhub).handlersOf event
    obtain ⟨r₀, hr₀, hhandlers⟩ := htold htells
    simp only [dispatch, hhub, Option.map_some, Option.getD_some, hhandlers]
    exact (heard_deliver_cons r₀ others _ _ rfl).trans
      (if_pos ⟨rfl, mem_recorderNumbers.mpr hr₀⟩)
  | answered | panicked => contradiction

/-- The lists of a hub have become what some events make of them. -/
def Replays (hub : Nat) (events : List HubEvent) (w w' : World σ) : Prop :=
  ∀ s', w'.store? hub = some s' → ∃ s, w.store? hub = some s ∧
    s'.lists = events.foldl HubEvent.replay s.lists

theorem Replays.trans {w w' w'' : World σ} {events events' : List HubEvent}
    (h : Replays hub events w w') (h' : Replays hub events' w' w'') :
    Replays hub (events ++ events') w w'' := by
  intro s'' hs''
  obtain ⟨s', hs', hlists'⟩ := h' s'' hs''
  obtain ⟨s, hs, hlists⟩ := h s' hs'
  refine ⟨s, hs, ?_⟩
  rw [hlists', hlists, List.foldl_append]

/-- A recorder hears of each change when it is made, and rightly so. -/
theorem Step.isJournal (h : Step supply m t m') (hm : m.IsRecording hub recorder)
    (hsilences : ∀ a ∈ t, ¬a.Silences hub) (hrestores : ∀ a ∈ t, ¬a.Restores hub)
    (hforges : ∀ a ∈ t, ¬a.Forges hub) :
    IsJournal hub t (heard hub recorderNumbers m m') ∧
      Replays hub (heard hub recorderNumbers m m') m.world m'.world := by
  obtain ⟨-, hafter⟩ := h.isRecorded_after hm.world hsilences
  by_cases htold : ∃ a ∈ t, ∃ event, a.Announces hub event ∧ event.tells
  · obtain ⟨a, ha, event, hevent, htells⟩ := htold
    obtain ⟨b, rfl, hbefore, hreply⟩ := h.moment.resolve_left (List.ne_nil_of_mem ha)
    obtain rfl := List.mem_singleton.mp ha
    obtain ⟨heq, hchanges⟩ := h.heard_of_told (hafter a ha) hevent htells
    obtain ⟨hmutates, s, s₁, hs, hs₁, hlists⟩ :=
      hreply.mutates hevent htells (hforges a ha) (hbefore ▸ hm.sound)
    rw [heq]
    refine ⟨.told hmutates .nil, fun s' hs' => ⟨s, hbefore ▸ hs, ?_⟩⟩
    obtain ⟨s₁', hs₁', hsame⟩ := hchanges.lists hs'
    obtain rfl := Option.some.inj (hs₁.symm.trans hs₁')
    exact hsame.trans hlists
  · have hnot : ∀ a ∈ t, ∀ event, a.Announces hub event → ¬event.tells :=
      fun a ha event hevent htells => htold ⟨a, ha, event, hevent, htells⟩
    have hchanges : m.world.Changes hub (t.flatMap (Moment.lost hub)) False m'.world := by
      refine h.changes (fun a ha => lost_subset_flatMap ha) fun a ha hmoves => ?_
      exact hmoves.elim (hrestores a ha) fun htells => htold ⟨a, ha, htells⟩
    rw [h.heard_of_untold hm hafter hnot]
    refine ⟨.of_forall_not fun a ha event hmutates => ?_, fun s' hs' => hchanges.lists hs'⟩
    rcases h.moment with rfl | ⟨b, rfl, -, hreply⟩
    · exact List.not_mem_nil ha
    · obtain rfl := List.mem_singleton.mp ha
      obtain ⟨event', hevent, htells⟩ := hmutates.announces hreply
      exact hnot a ha event' hevent htells

/-! ## Runs -/

theorem Hears.isJournal {events : List HubEvent}
    (h : Hears supply hub recorderNumbers m t events m') (hm : m.IsRecording hub recorder)
    (hsilences : ∀ a ∈ t, ¬a.Silences hub) (hrestores : ∀ a ∈ t, ¬a.Restores hub)
    (hforges : ∀ a ∈ t, ¬a.Forges hub) :
    IsJournal hub t events ∧ Replays hub events m.world m'.world := by
  induction h with
  | refl m => exact ⟨.nil, fun s hs => ⟨s, hs, rfl⟩⟩
  | step h rest ih =>
    obtain ⟨hsilences, hsilences'⟩ := List.forall_mem_append.mp hsilences
    obtain ⟨hrestores, hrestores'⟩ := List.forall_mem_append.mp hrestores
    obtain ⟨hforges, hforges'⟩ := List.forall_mem_append.mp hforges
    obtain ⟨hjournal, hreplays⟩ := h.isJournal hm hsilences hrestores hforges
    obtain ⟨hjournal', hreplays'⟩ :=
      ih (h.isRecording hm hsilences) hsilences' hrestores' hforges'
    exact ⟨hjournal.append hjournal', hreplays.trans hreplays'⟩

/-- Nothing has happened on a hub, and nothing follows it. -/
structure IsUntouched (hub : Nat) (m : Machine σ) : Prop where
  new : ∃ h, m.world.hub? hub = some h ∧ h.store = .empty ∧ h.nextHandler = 0 ∧
    h.registrations = []
  panels : ∀ p ∈ m.world.panels, ∀ s ∈ p.subscriptions, s.hub ≠ hub
  dispatches : ∀ d ∈ m.dispatches, d.hub ≠ hub

/-- A recorder subscribes to a hub. -/
def record (m : Machine σ) (hub : Nat) (recorder : EventKind → Handler σ) : Machine σ :=
  { m with world := m.world.record hub recorder }

theorem IsUntouched.isRecording (hm : m.IsUntouched hub) (recorder : EventKind → Handler σ) :
    (m.record hub recorder).IsRecording hub recorder ∧
      (m.record hub recorder).world.store? hub = some .empty := by
  obtain ⟨h, hhub, hstore, hnext, hnone⟩ := hm.new
  obtain ⟨hhub', hpanels⟩ := World.record_eq hhub recorder
  have hempty : (m.record hub recorder).world.store? hub = some .empty :=
    World.store?_eq_some.mpr ⟨_, hhub', by rw [Hub.watch_eq, hstore]⟩
  refine ⟨⟨⟨fun h' hh' => ?_, fun p hp id hid => ?_⟩, fun d hd hi => ?_, fun s hs => ?_⟩, hempty⟩
  · obtain rfl := Option.some.inj (hhub'.symm.trans hh')
    rw [Hub.watch_eq, hnext, hnone]
    exact ⟨Nat.le_refl 3, [], rfl, nofun⟩
  · obtain ⟨q, hq, rfl⟩ := List.mem_map.mp hp
    obtain ⟨s, hs, hi, -⟩ := Subscription.mem_numbersOn.mp hid
    exact absurd hi (hm.panels q (hpanels ▸ hq) s hs)
  · exact absurd hi (hm.dispatches d hd)
  · obtain rfl := Option.some.inj (hempty.symm.trans hs)
    exact .empty

end Machine
end LabExchange
