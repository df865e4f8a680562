import LabExchange.Proofs.Hub.Bookkeeping
import LabExchange.Proofs.Hub.Channels
import LabExchange.Proofs.Hub.Turns

/-!
# Recording through channels

A recorder may listen through channels. Its handler then does nothing but put the event into the
channel, and nothing comes in between. So a channel into which no one else puts anything gets those
of the events that the recorder hears which are of its kind, each of them once and in their order.
-/
namespace LabExchange

open World (watchedKinds)

variable {σ : Type} {supply : Supply} {hub number channel : Nat} {kind : EventKind}
  {recorder : EventKind → Handler σ}

/-! ## The handlers of a recorder -/

/-- The number of the handler of a recorder for a kind of events. -/
def recorderNumber (kind : EventKind) : Nat := watchedKinds.idxOf kind

theorem recorderNumber_lt (hkind : kind ∈ watchedKinds) : recorderNumber kind < 3 :=
  List.idxOf_lt_length_of_mem hkind

theorem recorderNumber_inj {kind' : EventKind} (hkind : kind ∈ watchedKinds)
    (h : recorderNumber kind' = recorderNumber kind) : kind' = kind :=
  ((List.idxOf_inj hkind).mp h.symm).symm

/-- Of some handlers of an event, those with the numbers of a recorder are its own. -/
def AreOwn (recorder : EventKind → Handler σ) (event : HubEvent) (l : List (Registration σ)) :
    Prop :=
  ∀ r ∈ l, r.id < 3 → r.id = recorderNumber event.kind ∧ r.handler = recorder event.kind

theorem AreLater.areOwn {l : List (Registration σ)} (hl : AreLater l) (event : HubEvent) :
    AreOwn recorder event l := fun r hr hid => absurd hid (Nat.not_lt.mpr (hl r hr))

theorem Hub.IsRecorded.areOwn {h : Hub σ} (hh : h.IsRecorded recorder) (event : HubEvent) :
    AreOwn recorder event (h.handlersOf event.kind) := by
  obtain ⟨-, others, hfirst, hothers⟩ := hh
  intro r hr hid
  rw [Hub.handlersOf, List.mem_filter, hfirst, List.mem_append, beq_iff_eq] at hr
  obtain ⟨hrecorder | hlater, heq⟩ := hr
  · rw [← heq]
    simp only [recorderHandlers, List.mem_cons, List.not_mem_nil, or_false] at hrecorder
    rcases hrecorder with rfl | rfl | rfl <;> exact ⟨rfl, rfl⟩
  · have hle := hothers r hlater
    omega

/-- When an event is raised on a recorded hub, it goes to no handler of the recorder but the one
for its kind. -/
theorem World.IsRecorded.areOwn {w : World σ} (hw : w.IsRecorded hub recorder) (event : HubEvent) :
    AreOwn recorder event (((w.hub? hub).map (·.handlersOf event.kind)).getD []) := by
  cases hhub : w.hub? hub with
  | none => exact fun r hr => absurd hr List.not_mem_nil
  | some h => exact (hw.registered h hhub).areOwn event

/-- The handler of a recorder for a kind gets the events of this kind. -/
theorem AreOwn.eq_of_id {event : HubEvent} {l : List (Registration σ)} (h : AreOwn recorder event l)
    (hkind : kind ∈ watchedKinds) {r : Registration σ} (hr : r ∈ l)
    (hid : r.id = recorderNumber kind) : event.kind = kind ∧ r.handler = recorder kind := by
  obtain ⟨hnumber, hhandler⟩ := h r hr (hid ▸ recorderNumber_lt hkind)
  have heq : event.kind = kind := recorderNumber_inj hkind (hnumber.symm.trans hid)
  exact ⟨heq, heq ▸ hhandler⟩

namespace World

variable {w : World σ}

theorem retains_record (w : World σ) (hub : Nat) (recorder : EventKind → Handler σ) :
    w.Retains (w.record hub recorder) := by
  have hfirst := retains_subscribe w hub .entryCreated (recorder .entryCreated)
  have hsecond := hfirst.trans (retains_subscribe _ hub .entryRemoved (recorder .entryRemoved))
  exact hsecond.trans (retains_subscribe _ hub .entriesCleared (recorder .entriesCleared))

/-! ## Opening channels -/

/-- A world with other channels. -/
def withChannels (w : World σ) (channels : List Channel) : World σ :=
  { w with channels := channels }

/-- Opens a channel for each kind of events that a recorder listens to. -/
def openChannels (supply : Supply) (w : World σ) (hub : Nat) : World σ :=
  watchedKinds.foldl (fun w kind => (w.reply supply 0 (.openChannel hub kind)).world w) w

theorem subscribe_withChannels {h : Hub σ} (hhub : w.hub? hub = some h) (channels : List Channel)
    (kind : EventKind) (handler : Handler σ) :
    ((w.withChannels channels).subscribe hub kind handler).2 =
      (w.subscribe hub kind handler).2.withChannels channels := by
  have hhub' : (w.withChannels channels).hub? hub = some h := hhub
  simp only [subscribe, hhub, hhub']
  rfl

theorem world_openChannel (supply : Supply) {h : Hub σ} (hhub : w.hub? hub = some h)
    (channels : List Channel) (kind : EventKind) :
    ((w.withChannels channels).reply supply 0 (.openChannel hub kind)).world
        (w.withChannels channels) =
      (w.subscribe hub kind (.forward channels.length)).2.withChannels
        (channels ++ [⟨[], true⟩]) := by
  rw [reply_openChannel (w := w.withChannels channels) hhub]
  exact subscribe_withChannels hhub ..

/-- A recorder that opens its channels subscribes handlers that forward to new ones. -/
theorem openChannels_eq {h : Hub σ} (hhub : w.hub? hub = some h) :
    w.openChannels supply hub =
      (w.withChannels (w.channels ++ List.replicate 3 ⟨[], true⟩)).record hub
        fun kind => .forward (w.channels.length + recorderNumber kind) := by
  obtain ⟨-, -, -, hhub₁⟩ := subscribe_eq hhub .entryCreated (.forward w.channels.length)
  obtain ⟨-, -, -, hhub₂⟩ := subscribe_eq hhub₁ .entryRemoved (.forward (w.channels.length + 1))
  have hfirst := world_openChannel supply hhub w.channels .entryCreated
  have hsecond := world_openChannel supply hhub₁ (w.channels ++ [⟨[], true⟩])
    .entryRemoved
  have hthird := world_openChannel supply hhub₂
    (w.channels ++ [⟨[], true⟩] ++ [⟨[], true⟩]) .entriesCleared
  simp only [List.length_append, List.length_singleton] at hsecond hthird
  change ((w.withChannels w.channels).openChannels supply hub) = _
  simp only [openChannels, watchedKinds, List.foldl_cons, List.foldl_nil, hfirst, hsecond, hthird]
  have hnumbers : recorderNumber .entryCreated = 0 ∧ recorderNumber .entryRemoved = 1 ∧
      recorderNumber .entriesCleared = 2 := ⟨rfl, rfl, rfl⟩
  simp only [record, watchedKinds, List.foldl_cons, List.foldl_nil, hnumbers, Nat.add_zero,
    subscribe_withChannels hhub, subscribe_withChannels hhub₁, subscribe_withChannels hhub₂,
    List.append_assoc]
  rfl

end World

namespace Machine

variable {m m' : Machine σ} {t : List (Moment σ)}

/-! ## Putting events into a channel -/

/-- The handler of a hub with a number runs, and nothing runs within it. -/
def IsInnermost (hub number : Nat) (m : Machine σ) : Prop :=
  ∃ d ∈ m.dispatches.head?, d.hub = hub ∧ d.running = number

/-- The events that are about to be put into a channel. -/
def pending (channel : Nat) (m : Machine σ) : List HubEvent :=
  match m.program with
  | .request r _ => r.puts channel
  | _ => []

/-- Whenever something is put into a channel, it is the handler of a hub with a number that does
so. Nothing else has the sending end. -/
def Reserves (supply : Supply) (hub number channel : Nat) (m : Machine σ) : Prop :=
  ∀ t n, Runs supply m t n → n.pending channel ≠ [] → n.IsInnermost hub number

namespace Reserves

theorem step (hm : m.Reserves supply hub number channel) (h : Step supply m t m') :
    m'.Reserves supply hub number channel := fun _ _ hrun => hm _ _ (.step h hrun)

theorem pending_eq_nil (hm : m.Reserves supply hub number channel)
    (houtside : ¬m.IsInnermost hub number) : m.pending channel = [] :=
  not_not.mp fun hpending => houtside (hm [] m (.refl m) hpending)

/-- A machine has one way to go on, so it reserves a channel if it does so now and later. -/
theorem of_step (h : Step supply m t m') (hm : m.pending channel ≠ [] → m.IsInnermost hub number)
    (hm' : m'.Reserves supply hub number channel) : m.Reserves supply hub number channel := by
  intro t₁ n hrun
  cases hrun with
  | refl => exact hm
  | step h₁ rest =>
    obtain ⟨-, rfl⟩ := h.unique h₁
    exact hm' _ _ rest

theorem of_isOver (hm : m.IsOver) : m.Reserves supply hub number channel := by
  intro t n hrun hpending
  cases hrun with
  | refl =>
    obtain ⟨o, w, rfl⟩ := hm
    contradiction
  | step h rest => exact absurd h hm.no_step

end Reserves

/-! ## Forwarding handlers -/

/-- The handler of a hub with a number forwards its event to a channel and ends. As it asks for
nothing that raises an event, nothing is ever dispatched within it. -/
structure IsForwarding (hub number channel : Nat) (m : Machine σ) : Prop where
  innermost : ∀ d ∈ m.dispatches.head?, d.hub = hub → d.running = number →
    m.program = Handler.forward channel d.event ∨ ∃ o, m.program = .finish o
  outside : ∀ d ∈ m.dispatches.tail, d.hub = hub → d.running ≠ number

namespace IsForwarding

/-- While another program runs, the handler does not. -/
theorem ne_running (hm : m.IsForwarding hub number channel)
    (hforward : ∀ event, m.program ≠ Handler.forward channel event)
    (hunfinished : ∀ o, m.program ≠ .finish o) :
    ∀ d ∈ m.dispatches, d.hub = hub → d.running ≠ number := by
  intro d hd hhub hrunning
  cases hds : m.dispatches with
  | nil => simp [hds] at hd
  | cons d₀ ds =>
    rw [hds] at hd
    rcases List.mem_cons.mp hd with rfl | hlater
    · rcases hm.innermost d (by simp [hds]) hhub hrunning with hprogram | ⟨o, hprogram⟩
      · exact hforward _ hprogram
      · exact hunfinished o hprogram
    · exact hm.outside d (by simpa [hds] using hlater) hhub hrunning

/-- Nothing changes as long as the same dispatches go on and the handler does not run. -/
theorem of_ne_running (h : ∀ d ∈ m.dispatches, d.hub = hub → d.running ≠ number) :
    m.IsForwarding hub number channel :=
  ⟨fun d hd hhub hrunning => absurd hrunning (h d (List.mem_of_mem_head? hd) hhub),
    fun d hd => h d (List.mem_of_mem_tail hd)⟩

theorem not_isInnermost (h : ∀ d ∈ m.dispatches, d.hub = hub → d.running ≠ number) :
    ¬m.IsInnermost hub number := fun ⟨d, hd, hhub, hrunning⟩ =>
  h d (List.mem_of_mem_head? hd) hhub hrunning

theorem deliver {i : Nat} {event : HubEvent} {next : DispatchReport → Program σ}
    {ds : List (Dispatch σ)} {handlers : List (Registration σ)} (report : DispatchReport)
    (w : World σ) (hkind : kind ∈ watchedKinds) (hrecorder : recorder kind = .forward channel)
    (hds : ∀ d ∈ ds, d.hub = hub → d.running ≠ recorderNumber kind)
    (hown : i = hub → AreOwn recorder event handlers) :
    (deliver i event next ds handlers report w).IsForwarding hub (recorderNumber kind) channel := by
  cases handlers with
  | nil => exact of_ne_running hds
  | cons r rest =>
    refine ⟨fun d hd hhub hrunning => .inl ?_, hds⟩
    obtain rfl := Option.some.inj hd
    have hhandler := ((hown hhub).eq_of_id hkind List.mem_cons_self hrunning).2
    exact congrFun (hhandler.trans hrecorder) event

end IsForwarding

/-- A forwarding handler makes one request, and that raises nothing. -/
theorem forward_inj {r : Request} {next : r.Answer → Program σ} {event : HubEvent}
    (h : Program.request r next = Handler.forward channel event) :
    r = .send channel event ∧ ∀ answer, next answer = .finish .succeeded := by
  obtain ⟨rfl, hnext⟩ := Program.request.inj h
  exact ⟨rfl, fun answer => congrFun (eq_of_heq hnext) answer⟩

variable (hkind : kind ∈ watchedKinds) (hrecorder : recorder kind = .forward channel)

include hkind hrecorder in
theorem Step.isForwarding (h : Step supply m t m') (hm : m.IsRecording hub recorder)
    (hafter : ∀ a ∈ t, a.after.IsRecorded hub recorder)
    (hforwarding : m.IsForwarding hub (recorderNumber kind) channel) :
    m'.IsForwarding hub (recorderNumber kind) channel := by
  cases h with
  | @answered w w' ds r next answer patience hreply =>
    refine ⟨fun d hd hhub hrunning => .inr ?_, hforwarding.outside⟩
    rcases hforwarding.innermost d hd hhub hrunning with hprogram | ⟨o, hprogram⟩
    · exact ⟨_, (forward_inj hprogram).2 answer⟩
    · contradiction
  | @raised w w' ds r next i event answer patience hreply =>
    have hnot := hforwarding.ne_running (fun event' hprogram => ?_) nofun
    · refine IsForwarding.deliver _ _ hkind hrecorder hnot fun hi => ?_
      subst hi
      have hw' : w'.IsRecorded i recorder := hafter _ (List.mem_singleton_self _)
      exact hw'.areOwn event
    · obtain ⟨rfl, -⟩ := forward_inj hprogram
      cases hreply
  | panicked => exact ⟨fun _ _ _ _ => .inr ⟨_, rfl⟩, hforwarding.outside⟩
  | subscribed | recalled | remembered =>
    refine .of_ne_running (hforwarding.ne_running (fun event hprogram => ?_) fun o hprogram => ?_)
    · cases hprogram
    · cases hprogram
  | handled w d ds o =>
    refine IsForwarding.deliver _ _ hkind hrecorder hforwarding.outside fun hhub => ?_
    exact (hm.waiting d List.mem_cons_self hhub).areOwn d.event

include hkind hrecorder in
/-- When an event is handed out, it is about to be put into the channel just if the recorder hears
it and it is of its kind. -/
theorem pending_deliver {i : Nat} {event : HubEvent} {next : DispatchReport → Program σ}
    {ds : List (Dispatch σ)} {handlers : List (Registration σ)} (report : DispatchReport)
    (w : World σ) (houter : m.outer = ds)
    (hds : ∀ d ∈ ds, d.hub = hub → d.running ≠ recorderNumber kind)
    (hown : i = hub → AreOwn recorder event handlers)
    (hreserves : (deliver i event next ds handlers report w).Reserves supply hub
      (recorderNumber kind) channel) :
    (deliver i event next ds handlers report w).pending channel =
      (heard hub recorderNumbers m (deliver i event next ds handlers report w)).filter
        (·.kind == kind) := by
  cases handlers with
  | nil =>
    rw [heard_of_length_le (by rw [houter]; exact Nat.le_refl _)]
    exact hreserves.pending_eq_nil (IsForwarding.not_isInnermost hds)
  | cons r rest =>
    rw [heard_deliver_cons r rest report w houter]
    by_cases hr : i = hub ∧ r.id = recorderNumber kind
    · obtain ⟨rfl, hid⟩ := hr
      obtain ⟨heq, hhandler⟩ := (hown rfl).eq_of_id hkind List.mem_cons_self hid
      have hnumber : r.id ∈ recorderNumbers :=
        mem_recorderNumbers.mpr (hid ▸ recorderNumber_lt hkind)
      simp [pending, Machine.deliver, hhandler, hrecorder, Handler.forward, Request.puts, hnumber,
        heq]
    · have houtside : ¬(deliver i event next ds (r :: rest) report w).IsInnermost hub
          (recorderNumber kind) := by
        rintro ⟨d, hd, hd'⟩
        obtain rfl := Option.some.inj hd
        exact hr hd'
      rw [hreserves.pending_eq_nil houtside]
      split
      · next hheard =>
        have hid := ((hown hheard.1) r List.mem_cons_self (mem_recorderNumbers.mp hheard.2)).1
        have hne : event.kind ≠ kind := fun heq => hr ⟨hheard.1, heq ▸ hid⟩
        simp [hne]
      · rfl

include hkind hrecorder in
/-- What a step puts into the channel and what is about to be put into it then is what was about to
be put into it and what the recorder hears of its kind. -/
theorem Step.puts (h : Step supply m t m') (hm : m.IsRecording hub recorder)
    (hafter : ∀ a ∈ t, a.after.IsRecorded hub recorder)
    (hforwarding : m.IsForwarding hub (recorderNumber kind) channel)
    (hreserves : m.Reserves supply hub (recorderNumber kind) channel) :
    (t.flatMap fun a => a.request.puts channel) ++ m'.pending channel =
      m.pending channel ++ (heard hub recorderNumbers m m').filter (·.kind == kind) := by
  have hreserves' := hreserves.step h
  cases h with
  | @answered w w' ds r next answer patience hreply =>
    rw [heard_of_length_le (Nat.le_refl _), List.flatMap_singleton]
    have hpending : pending channel ⟨w', next answer, ds⟩ = [] := by
      by_cases hinner : IsInnermost hub (recorderNumber kind) ⟨w', next answer, ds⟩
      · obtain ⟨d, hd, hhub, hrunning⟩ := hinner
        rcases hforwarding.innermost d hd hhub hrunning with hprogram | ⟨o, hprogram⟩
        · rw [pending, (forward_inj hprogram).2 answer]
        · contradiction
      · exact hreserves'.pending_eq_nil hinner
    rw [hpending]
    rfl
  | panicked =>
    rw [heard_of_length_le (Nat.le_refl _), List.flatMap_singleton]
    rfl
  | @raised w w' ds r next i event answer patience hreply =>
    have hquiet : r.puts channel = [] := by
      refine Request.puts_of_not_handles fun hr => ?_
      cases r with
      | send | receive | closeChannel => cases hreply
      | _ => exact hr
    have hnot := hforwarding.ne_running (fun event' hprogram => ?_) nofun
    · have hbefore : pending channel ⟨w, .request r next, ds⟩ = [] := hquiet
      rw [List.flatMap_singleton, hquiet, hbefore, List.nil_append, List.nil_append]
      refine pending_deliver hkind hrecorder _ _ rfl hnot (fun hi => ?_) hreserves'
      subst hi
      have hw' : w'.IsRecorded i recorder := hafter _ (List.mem_singleton_self _)
      exact hw'.areOwn event
    · obtain ⟨rfl, -⟩ := forward_inj hprogram
      cases hreply
  | subscribed | recalled | remembered =>
    rw [heard_of_length_le (Nat.le_refl _)]
    refine (hreserves'.pending_eq_nil (IsForwarding.not_isInnermost ?_)).trans rfl
    refine hforwarding.ne_running (fun event hprogram => ?_) fun o hprogram => ?_
    · cases hprogram
    · cases hprogram
  | handled w d ds o =>
    refine pending_deliver hkind hrecorder _ _ rfl hforwarding.outside (fun hhub => ?_) hreserves'
    exact (hm.waiting d List.mem_cons_self hhub).areOwn d.event

/-! ## Runs -/

include hkind hrecorder in
theorem Hears.puts {events : List HubEvent} (h : Hears supply hub recorderNumbers m t events m')
    (hm : m.IsRecording hub recorder) (hsilences : ∀ a ∈ t, ¬a.Silences hub)
    (hforwarding : m.IsForwarding hub (recorderNumber kind) channel)
    (hreserves : m.Reserves supply hub (recorderNumber kind) channel) :
    (t.flatMap fun a => a.request.puts channel) ++ m'.pending channel =
      m.pending channel ++ events.filter (·.kind == kind) := by
  induction h with
  | refl m => exact (List.append_nil _).symm
  | step h rest ih =>
    obtain ⟨hsilences, hsilences'⟩ := List.forall_mem_append.mp hsilences
    obtain ⟨-, hafter⟩ := h.isRecorded_after hm.world hsilences
    have hstep := h.puts hkind hrecorder hm hafter hforwarding hreserves
    have hlater := ih (h.isRecording hm hsilences) hsilences'
      (h.isForwarding hkind hrecorder hm hafter hforwarding) (hreserves.step h)
    rw [List.flatMap_append, List.append_assoc, hlater, ← List.append_assoc, hstep,
      List.append_assoc, List.filter_append]

/-- A recorder has done nothing yet when it subscribes to a new hub. -/
theorem IsUntouched.isForwarding (hm : m.IsUntouched hub) :
    (m.record hub recorder).IsForwarding hub number channel :=
  .of_ne_running fun d hd hhub => absurd hhub (hm.dispatches d hd)

include hkind hrecorder in
/-- The events of a kind that a recorder hears through a channel are those that have been taken out
of the channel, those that wait in it and the one that is about to be put into it. -/
theorem IsUntouched.channelHolds {events : List HubEvent} (hm : m.IsUntouched hub)
    (h : Hears supply hub recorderNumbers (m.record hub recorder) t events m')
    (hsilences : ∀ a ∈ t, ¬a.Silences hub) (hnew : m.world.ChannelHolds channel [])
    (hreserves : (m.record hub recorder).Reserves supply hub (recorderNumber kind) channel)
    (hopen : ∀ a ∈ t, a.request ≠ .closeChannel channel) :
    ∃ waiting, m'.world.ChannelHolds channel waiting ∧
      t.flatMap (Moment.taken channel) ++ waiting ++ m'.pending channel =
        events.filter (·.kind == kind) := by
  have hnew' : (m.record hub recorder).world.ChannelHolds channel [] :=
    (World.retains_record m.world hub recorder).holds hnew
  have hfirst : (m.record hub recorder).pending channel = [] :=
    hreserves.pending_eq_nil
      (IsForwarding.not_isInnermost fun d hd hhub => absurd hhub (hm.dispatches d hd))
  have hputs := h.puts hkind hrecorder (hm.isRecording recorder).1 hsilences hm.isForwarding
    hreserves
  obtain ⟨waiting, hheld, heq⟩ := h.runs.holds hopen hnew'
  refine ⟨waiting, hheld, ?_⟩
  rw [heq, List.nil_append, hputs, hfirst, List.nil_append]

/-- What a recorder hears that subscribes to a new hub before anyone else is a journal of the run,
whatever handlers do, as long as the hub is not restored, no event is made up, and the recorder
keeps its handles. At each moment, that at which it hears an event included, the lists of the hub
are those that come of what it has heard so far. Where it listens through a channel that was new and
into which no one else puts anything, and does not give up the receiving end, all it has heard of
the kind has got into the channel, in this order: it has been taken out, waits, or is just about to
be put in. -/
theorem isJournal_of_hears {events : List HubEvent} (hnew : m.IsUntouched hub)
    (h : Hears supply hub recorderNumbers (m.record hub recorder) t events m')
    (hsilences : ∀ a ∈ t, ¬a.Silences hub) (hrestores : ∀ a ∈ t, ¬a.Restores hub)
    (hforges : ∀ a ∈ t, ¬a.Forges hub) :
    IsJournal hub t events ∧
      (∀ s, m'.world.store? hub = some s →
        s.lists = events.foldl HubEvent.replay (.ofFn fun _ => [])) ∧
      ∀ kind ∈ watchedKinds, ∀ channel, recorder kind = .forward channel →
        m.world.ChannelHolds channel [] →
        (m.record hub recorder).Reserves supply hub (recorderNumber kind) channel →
        (∀ a ∈ t, a.request ≠ .closeChannel channel) →
        ∃ waiting, m'.world.ChannelHolds channel waiting ∧
          t.flatMap (Moment.taken channel) ++ waiting ++ m'.pending channel =
            events.filter (·.kind == kind) := by
  obtain ⟨hrecording, hempty⟩ := hnew.isRecording recorder
  obtain ⟨hjournal, hreplays⟩ := h.isJournal hrecording hsilences hrestores hforges
  refine ⟨hjournal, fun s hs => ?_, fun kind hkind channel hrecorder hchannel hreserves hopen => ?_⟩
  · obtain ⟨s₀, hs₀, hlists⟩ := hreplays s hs
    obtain rfl := Option.some.inj (hempty.symm.trans hs₀)
    exact hlists
  · exact hnew.channelHolds hkind hrecorder h hsilences hchannel hreserves hopen

/-- A new hub on which every entry that is exported is removed by a handler, and three channels that
nobody uses yet. -/
def exportForNothing : Machine Unit :=
  let program : Program Unit := .subscribe 0 .entryCreated removeAgain fun _ =>
    .request exportSquare fun _ => .finish .succeeded
  ⟨(World.new 1 ⟨[], .empty⟩ ()).withChannels (List.replicate 3 ⟨[], true⟩), program, []⟩

/-- A recorder that listens through the first channels. -/
def throughChannels : EventKind → Handler Unit := fun kind => .forward (recorderNumber kind)

theorem reserves_exportForNothing (n : Nat) :
    (exportForNothing.record 0 throughChannels).Reserves standingSupply 0 n n := by
  have hown : ∀ {c event}, (Request.send c event).puts n ≠ [] → c = n :=
    fun hputs => not_not.mp fun hne => hputs (if_neg hne)
  refine .of_step (.subscribed _ _ _ _ _ _) (fun h => absurd rfl h) ?_
  refine .of_step (by exact .raised 1 rfl) (fun h => absurd rfl h) ?_
  refine .of_step (.answered 0 rfl) (fun h => ⟨_, rfl, rfl, hown h⟩) ?_
  refine .of_step (.handled _ _ _ _) (fun h => absurd rfl h) ?_
  refine .of_step (by exact .raised 1 rfl) (fun h => absurd rfl h) ?_
  refine .of_step (.answered 0 rfl) (fun h => ⟨_, rfl, rfl, hown h⟩) ?_
  refine .of_step (.handled _ _ _ _) (fun h => absurd rfl h) ?_
  refine .of_step (.handled _ _ _ _) (fun h => absurd rfl h) ?_
  exact .of_isOver ⟨_, _, rfl⟩

/-- Its channels are those that a recorder opens there. -/
theorem record_exportForNothing : (exportForNothing.record 0 throughChannels).world =
    (World.new 1 ⟨[], .empty⟩ ()).openChannels standingSupply 0 := by
  have hsame : (fun kind => Handler.forward (0 + recorderNumber kind)) = throughChannels :=
    funext fun kind => congrArg Handler.forward (Nat.zero_add _)
  rw [← hsame]
  exact (World.openChannels_eq (h := .new) rfl).symm

/-- The export and the removal are forwarded, each to the channel for its kind. -/
theorem exists_hears_exportForNothing :
    ∃ t events m, Hears standingSupply 0 recorderNumbers
        (exportForNothing.record 0 throughChannels) t events m ∧
      (∃ e e', t.map Moment.request =
        [exportSquare, .send 0 e, .store 0 (.remove "functions" ⟨"a"⟩), .send 1 e']) ∧
      events.map HubEvent.kind = [.entryCreated, .entryRemoved] ∧
      (∀ channel, t.flatMap (Moment.taken channel) = []) ∧ ∀ channel, m.pending channel = [] := by
  apply Exists.intro
  apply Exists.intro
  apply Exists.intro
  constructor
  · apply Hears.step (.subscribed _ _ _ _ _ _)
    apply Hears.step (by exact .raised 1 rfl)
    apply Hears.step (.answered 0 rfl)
    apply Hears.step (.handled _ _ _ _)
    apply Hears.step (by exact .raised 1 rfl)
    apply Hears.step (.answered 0 rfl)
    apply Hears.step (.handled _ _ _ _)
    apply Hears.step (.handled _ _ _ _)
    exact .refl _
  · exact ⟨⟨_, _, rfl⟩, rfl, fun _ => rfl, fun _ => rfl⟩

theorem isJournal_of_hears_exportForNothing :
    (exportForNothing.record 0 throughChannels).world =
      (World.new 1 ⟨[], .empty⟩ ()).openChannels standingSupply 0 ∧
    ∃ t events m, Hears standingSupply 0 recorderNumbers (exportForNothing.record 0 throughChannels)
        t events m ∧
      events.map HubEvent.kind = [.entryCreated, .entryRemoved] ∧
      IsJournal 0 t events ∧ (∀ s, m.world.store? 0 = some s →
        s.lists = events.foldl HubEvent.replay (.ofFn fun _ => [])) ∧
      ∀ kind ∈ watchedKinds, m.world.ChannelHolds (recorderNumber kind)
        (events.filter (·.kind == kind)) := by
  have hnew : exportForNothing.IsUntouched 0 := ⟨⟨.new, rfl, rfl, rfl, rfl⟩,
    fun _ hp => absurd hp List.not_mem_nil, fun _ hd => absurd hd List.not_mem_nil⟩
  obtain ⟨t, events, m, hhears, ⟨e, e', hrequests⟩, hkinds, htaken, hpending⟩ :=
    exists_hears_exportForNothing
  have hplain : ∀ a ∈ t, ¬a.Silences 0 ∧ ¬a.Restores 0 ∧ ¬a.Forges 0 ∧
      ∀ channel, a.request ≠ .closeChannel channel := by
    intro a ha
    have hmem := List.mem_map_of_mem (f := Moment.request) ha
    simp only [hrequests, exportSquare, List.mem_cons, List.not_mem_nil, or_false] at hmem
    refine ⟨?_, ?_, ?_, fun channel hclose => by simp [hclose] at hmem⟩
    · rintro ⟨hhub, hid⟩
      simp at hmem
    · intro hrestores
      rcases hrestores.request with ⟨s, hr⟩ | ⟨path, hr⟩ <;> simp [hr] at hmem
    · rintro ⟨htells⟩
      simp at hmem
  obtain ⟨hjournal, hlists, hchannels⟩ := isJournal_of_hears hnew hhears
    (fun a ha => (hplain a ha).1) (fun a ha => (hplain a ha).2.1) fun a ha => (hplain a ha).2.2.1
  refine ⟨record_exportForNothing, t, events, m, hhears, hkinds, hjournal, hlists,
    fun kind hkind => ?_⟩
  have hempty : exportForNothing.world.ChannelHolds (recorderNumber kind) [] :=
    List.getElem?_replicate_of_lt (recorderNumber_lt hkind)
  obtain ⟨waiting, hheld, heq⟩ := hchannels kind hkind _ rfl hempty
    (reserves_exportForNothing _) fun a ha => (hplain a ha).2.2.2 _
  rw [htaken, hpending, List.nil_append, List.append_nil] at heq
  exact heq ▸ hheld

end Machine
end LabExchange
