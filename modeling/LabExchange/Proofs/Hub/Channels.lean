import LabExchange.Proofs.Hub.Changes

/-!
# Channels

Only three requests touch a channel: an event is put into it, the waiting ones are taken out, or
the receiving end is given up. All others leave the channels as they are and at most open new ones.
So a channel that is kept loses nothing and makes nothing up: what has been taken out of it and what
still waits in it is, in this order, what has been put into it.
-/
namespace LabExchange

variable {σ : Type} {supply : Supply} {channel : Nat}

namespace World

variable {w w' w'' : World σ}

/-- An open channel in which some events wait. -/
def ChannelHolds (w : World σ) (channel : Nat) (events : List HubEvent) : Prop :=
  w.channels[channel]? = some ⟨events, true⟩

/-! ## What lies beside the hubs -/

/-- A world has the depth of an earlier one, and all its channels as they were. -/
structure Retains (w w' : World σ) : Prop where
  depth : w'.depth = w.depth
  channels : w.channels <+: w'.channels

namespace Retains

theorem of_eq (hdepth : w'.depth = w.depth) (hchannels : w'.channels = w.channels) :
    w.Retains w' := ⟨hdepth, hchannels ▸ List.prefix_refl _⟩

theorem refl (w : World σ) : w.Retains w := of_eq rfl rfl

theorem trans (h : w.Retains w') (h' : w'.Retains w'') : w.Retains w'' :=
  ⟨h'.depth.trans h.depth, h.channels.trans h'.channels⟩

theorem holds (h : w.Retains w') {events : List HubEvent} (hw : w.ChannelHolds channel events) :
    w'.ChannelHolds channel events := by
  obtain ⟨added, hadded⟩ := h.channels
  rw [ChannelHolds, ← hadded]
  exact List.getElem?_append_left (List.getElem?_eq_some_iff.mp hw).1 |>.trans hw

end Retains

theorem retains_subscribe (w : World σ) (i : Nat) (kind : EventKind) (handler : Handler σ) :
    w.Retains (w.subscribe i kind handler).2 := by
  unfold subscribe
  split <;> exact .of_eq rfl rfl

theorem retains_unsubscribe (w : World σ) (s : Subscription) :
    w.Retains (w.unsubscribe s).2 := by
  unfold unsubscribe
  split
  · exact .refl w
  · split <;> exact .of_eq rfl rfl

theorem retains_unsubscribeAll (w : World σ) (l : List Subscription) :
    w.Retains (w.unsubscribeAll l) := by
  induction l generalizing w with
  | nil => exact .refl w
  | cons s rest ih => exact (retains_unsubscribe w s).trans (ih _)

theorem retains_attachPanel (w : World σ) (i : Nat) (h : Hub σ) :
    w.Retains (w.attachPanel i h).2 := by
  have hfirst := retains_subscribe w i .entryCreated (.follow w.panels.length)
  have hsecond := hfirst.trans (retains_subscribe _ i .entryRemoved (.follow w.panels.length))
  have hthird := hsecond.trans (retains_subscribe _ i .entriesCleared (.follow w.panels.length))
  exact hthird.trans (.of_eq rfl rfl)

theorem retains_reloadPanel (w : World σ) (panel : Nat) (kind? : Option EventKind) :
    w.Retains (w.reloadPanel panel kind?) := by
  unfold reloadPanel
  split
  · exact .refl w
  · split <;> exact .of_eq rfl rfl

theorem retains_openChannel (w : World σ) (i : Nat) (kind : EventKind) :
    w.Retains (({ w with channels := w.channels ++ [⟨[], true⟩] } : World σ).subscribe i kind
      (.forward w.channels.length)).2 := by
  have hopened : w.Retains { w with channels := w.channels ++ [⟨[], true⟩] } :=
    ⟨rfl, List.prefix_append _ _⟩
  exact hopened.trans (retains_subscribe _ i kind _)

theorem retains_withHub {α : Type} {i : Nat} {f : Hub σ → Reply σ (Option α)}
    (hf : ∀ h, w.Retains ((f h).world w)) : w.Retains ((w.withHub i f).world w) := by
  rcases withHub_cases w i f with ⟨-, heq⟩ | ⟨h, -, heq⟩
  · rw [heq]
    exact .refl w
  · rw [heq]
    exact hf h

theorem retains_storeReply (w : World σ) (i : Nat) (h : Hub σ) (q : StoreRequest) :
    w.Retains ((w.storeReply i h q).world w) := by
  have hreply := ofRequest_storeReply w i h q
  generalize w.storeReply i h q = reply at hreply ⊢
  cases hreply <;> exact .of_eq rfl rfl

theorem retains_exportReply (supply : Supply) (patience : Nat) (w : World σ) (i : Nat) (h : Hub σ)
    (x : Store.Export) : w.Retains ((w.exportReply supply patience i h x).world w) := by
  have hreply := ofExport_exportReply supply patience w i h x
  generalize w.exportReply supply patience i h x = reply at hreply ⊢
  cases hreply <;> exact .of_eq rfl rfl

theorem retains_load (w : World σ) (i : Nat) (h : Hub σ) (path : String) :
    w.Retains (w.load i h path).2 := by
  unfold load
  split <;> exact .of_eq rfl rfl

theorem retains_save (supply : Supply) (w : World σ) (h : Hub σ) (path : String) :
    w.Retains (w.save supply h path).2 := by
  unfold save
  dsimp only
  split <;> exact .of_eq rfl rfl

end World

/-- A request that touches a channel which is there already. -/
def Request.HandlesChannel : Request → Prop
  | send .. | receive _ | closeChannel _ => True
  | _ => False

/-- No other request touches a channel, and none at all begins or ends a handler. -/
theorem World.retains_reply (supply : Supply) (patience : Nat) (w : World σ) {r : Request}
    (hr : ¬r.HandlesChannel) : w.Retains ((w.reply supply patience r).world w) := by
  cases r with
  | store i q => exact retains_withHub fun h => retains_storeReply w i h q
  | exportData i x => exact retains_withHub fun h => retains_exportReply supply patience w i h x
  | load i path => exact retains_withHub fun h => retains_load w i h path
  | save i path => exact retains_withHub fun h => retains_save supply w h path
  | attachPanel i => exact retains_withHub fun h => retains_attachPanel w i h
  | openChannel i kind => exact retains_withHub fun h => retains_openChannel w i kind
  | snapshot i | emit i event | handlerCount i kind | handlerTotal i =>
    exact retains_withHub fun h => .of_eq rfl rfl
  | unsubscribe s => exact retains_unsubscribe w s
  | refreshPanel panel => exact retains_reloadPanel w panel none
  | followPanel panel kind => exact retains_reloadPanel w panel (some kind)
  | usePanel panel summary target =>
    rcases world_usePanel supply patience w panel summary target with heq | ⟨i, h, -, heq⟩
    · rw [heq]
      exact .refl w
    · rw [heq]
      exact retains_storeReply w i h _
  | detachPanel panel =>
    rw [reply]
    split
    · exact .refl w
    · exact (retains_unsubscribeAll w _).trans (.of_eq rfl rfl)
  | parse text =>
    rw [reply]
    split <;> exact .of_eq rfl rfl
  | acquire i | release i =>
    rw [reply]
    split <;> exact .of_eq rfl rfl
  | readPanel | isAlive | inHandler | fileText | putFile | makeDirectory => exact .of_eq rfl rfl
  | send | receive | closeChannel => exact absurd trivial hr

/-! ## Moments -/

namespace Request

/-- The events that a request puts into a channel. -/
def puts (channel : Nat) : Request → List HubEvent
  | send c event => if c = channel then [event] else []
  | _ => []

theorem puts_of_not_handles {r : Request} (hr : ¬r.HandlesChannel) : r.puts channel = [] := by
  cases r with
  | send => exact absurd trivial hr
  | _ => rfl

end Request

namespace Moment

theorem IsReply.depth {m : Moment σ} (h : m.IsReply supply) : m.after.depth = m.before.depth := by
  obtain ⟨w, r, reply⟩ := m
  obtain ⟨patience, rfl⟩ : ∃ patience, w.reply supply patience r = reply := h
  by_cases hr : r.HandlesChannel
  · cases r with
    | send | receive | closeChannel => rfl
    | _ => exact hr.elim
  · exact (World.retains_reply supply patience w hr).depth

/-- The events that are taken out of a channel. -/
def taken (channel : Nat) : Moment σ → List HubEvent
  | ⟨_, .receive c, .done events _⟩ => if c = channel then events else []
  | _ => []

theorem taken_of_not_handles {m : Moment σ} (hm : ¬m.request.HandlesChannel) :
    m.taken channel = [] := by
  obtain ⟨w, r, reply⟩ := m
  cases r with
  | receive => exact absurd trivial hm
  | _ => rfl

/-- A channel that is not given up hands out what was put into it, the first first. -/
theorem IsReply.holds {m : Moment σ} (h : m.IsReply supply)
    (hopen : m.request ≠ .closeChannel channel) {events : List HubEvent}
    (hm : m.before.ChannelHolds channel events) :
    ∃ events', m.after.ChannelHolds channel events' ∧
      m.taken channel ++ events' = events ++ m.request.puts channel := by
  obtain ⟨w, r, reply⟩ := m
  obtain ⟨patience, rfl⟩ : ∃ patience, w.reply supply patience r = reply := h
  dsimp only at hopen hm
  by_cases hr : r.HandlesChannel
  · unfold World.ChannelHolds at hm
    cases r with
    | send c event =>
      by_cases hc : c = channel
      · refine ⟨events ++ [event], ?_, by simp [taken, Request.puts, hc]⟩
        simp [after, World.reply, Reply.world, World.ChannelHolds, hc, hm]
      · refine ⟨events, ?_, by simp [taken, Request.puts, hc]⟩
        simp [after, World.reply, Reply.world, World.ChannelHolds, hc, hm]
    | receive c =>
      by_cases hc : c = channel
      · refine ⟨[], ?_, by simp [taken, World.reply, Request.puts, hc, hm]⟩
        simp [after, World.reply, Reply.world, World.ChannelHolds, hc, hm]
      · refine ⟨events, ?_, by simp [taken, World.reply, Request.puts, hc]⟩
        simp [after, World.reply, Reply.world, World.ChannelHolds, hc, hm]
    | closeChannel c =>
      have hc : c ≠ channel := fun hc => hopen (by rw [hc])
      refine ⟨events, ?_, by simp [taken, Request.puts]⟩
      simp [after, World.reply, Reply.world, World.ChannelHolds, hc, hm]
    | _ => exact hr.elim
  · refine ⟨events, (World.retains_reply supply patience w hr).holds hm, ?_⟩
    rw [taken_of_not_handles hr, Request.puts_of_not_handles hr, List.append_nil, List.nil_append]

end Moment

/-! ## Steps and runs -/

namespace Machine

variable {m m' : Machine σ} {t : List (Moment σ)} {events : List HubEvent}

theorem channels_deliver (i : Nat) (event : HubEvent) (next : DispatchReport → Program σ)
    (ds : List (Dispatch σ)) (handlers : List (Registration σ)) (report : DispatchReport)
    (w : World σ) :
    w.channels = (deliver i event next ds handlers report w).world.channels := by
  cases handlers <;> rfl

/-- Besides the request of a step nothing touches a channel. -/
theorem Step.holds_of_moment (h : Step supply m t m')
    (hm : t = [] → m.world.ChannelHolds channel events)
    (ht : ∀ a ∈ t, a.after.ChannelHolds channel events) : m'.world.ChannelHolds channel events := by
  cases h with
  | answered | panicked => exact ht _ (List.mem_singleton_self _)
  | raised =>
    unfold World.ChannelHolds
    rw [dispatch, ← channels_deliver]
    exact ht _ (List.mem_singleton_self _)
  | subscribed w ds i kind handler next =>
    exact (World.retains_subscribe w i kind handler).holds (hm rfl)
  | recalled | remembered => exact hm rfl
  | handled =>
    unfold World.ChannelHolds
    rw [afterHandler, ← channels_deliver]
    exact hm rfl

/-- What a step takes out of a channel and what waits in it then is what waited in it and what the
step has put into it. -/
theorem Step.holds (h : Step supply m t m') (hopen : ∀ a ∈ t, a.request ≠ .closeChannel channel)
    (hm : m.world.ChannelHolds channel events) :
    ∃ events', m'.world.ChannelHolds channel events' ∧
      t.flatMap (Moment.taken channel) ++ events' =
        events ++ t.flatMap fun a => a.request.puts channel := by
  rcases h.moment with rfl | ⟨a, rfl, hbefore, hreply⟩
  · have hheld := h.holds_of_moment (fun _ => hm) fun a ha => absurd ha List.not_mem_nil
    exact ⟨events, hheld, (List.append_nil events).symm⟩
  · obtain ⟨events', hafter, heq⟩ :=
      hreply.holds (hopen a (List.mem_singleton_self a)) (hbefore ▸ hm)
    have hheld := h.holds_of_moment nofun (List.forall_mem_singleton.mpr hafter)
    exact ⟨events', hheld, by simpa using heq⟩

/-- The same in a whole run. -/
theorem Runs.holds (h : Runs supply m t m') (hopen : ∀ a ∈ t, a.request ≠ .closeChannel channel)
    (hm : m.world.ChannelHolds channel events) :
    ∃ events', m'.world.ChannelHolds channel events' ∧
      t.flatMap (Moment.taken channel) ++ events' =
        events ++ t.flatMap fun a => a.request.puts channel := by
  induction h generalizing events with
  | refl m => exact ⟨events, hm, by simp⟩
  | step h rest ih =>
    obtain ⟨hfirst, hlater⟩ := List.forall_mem_append.mp hopen
    obtain ⟨events₁, hheld₁, heq₁⟩ := h.holds hfirst hm
    obtain ⟨events₂, hheld₂, heq₂⟩ := ih hlater hheld₁
    refine ⟨events₂, hheld₂, ?_⟩
    rw [List.flatMap_append, List.flatMap_append, List.append_assoc, heq₂, ← List.append_assoc,
      heq₁, List.append_assoc]

end Machine
end LabExchange
