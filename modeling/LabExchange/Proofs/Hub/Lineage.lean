import LabExchange.Proofs.Hub.Machine
import LabExchange.Proofs.Hub.Replies

/-!
# The stores in a run

Whatever programs do to a world, the store of a hub that is alive afterwards has come by its steps
from the store of the same hub before. In particular a hub that is gone does not come back.
-/
namespace LabExchange

variable {σ : Type} {w w' w'' : World σ}

namespace World

/-- A hub that is alive has an entry. -/
def Holds (hub : Nat) (e : Entry) (w : World σ) : Prop :=
  ∃ s, w.store? hub = some s ∧ e ∈ s.toList

/-- A hub that is alive later was alive before, and its store has come from there by steps. -/
def LeadsTo (hub : Nat) (w w' : World σ) : Prop :=
  ∀ s', w'.store? hub = some s' → ∃ s, w.store? hub = some s ∧ s.Steps s'

namespace LeadsTo

variable {hub : Nat}

theorem refl (w : World σ) : LeadsTo hub w w := fun s hs => ⟨s, hs, .refl s⟩

theorem trans (h : LeadsTo hub w w') (h' : LeadsTo hub w' w'') : LeadsTo hub w w'' := by
  intro s'' hs''
  obtain ⟨s', hs', hsteps'⟩ := h' s'' hs''
  obtain ⟨s, hs, hsteps⟩ := h s' hs'
  exact ⟨s, hs, hsteps.trans hsteps'⟩

theorem of_hubs_eq (h : w'.hubs = w.hubs) : LeadsTo hub w w' := by
  intro s hs
  rw [store?, hub?, h] at hs
  exact ⟨s, hs, .refl s⟩

theorem addLog (h : LeadsTo hub w w') (lines : List LogLine) : LeadsTo hub w (w'.addLog lines) := h

/-- One hub changes, by steps of its store, and is not brought back to life. -/
theorem modify {i : Nat} {f : Hub σ → Hub σ}
    (hf : ∀ h, w.hubs[i]? = some h → (f h).isAlive = true →
      h.isAlive = true ∧ h.store.Steps (f h).store) :
    LeadsTo hub w { w with hubs := w.hubs.modify i f } := by
  intro s' hs'
  obtain ⟨h', hhub, rfl⟩ := store?_eq_some.mp hs'
  obtain ⟨hget, halive⟩ := hub?_eq_some.mp hhub
  rw [List.getElem?_modify] at hget
  obtain ⟨h, hold, rfl⟩ := Option.map_eq_some_iff.mp hget
  by_cases hi : i = hub
  · subst hi
    rw [if_pos rfl] at halive ⊢
    obtain ⟨halive', hsteps⟩ := hf h hold halive
    exact ⟨h.store, store?_of_hub? (hub?_eq_some.mpr ⟨hold, halive'⟩), hsteps⟩
  · rw [if_neg hi] at halive ⊢
    exact ⟨h.store, store?_of_hub? (hub?_eq_some.mpr ⟨hold, halive⟩), .refl _⟩

theorem setHub {i : Nat} {h h' : Hub σ} (hhub : w.hub? i = some h)
    (hsteps : h'.isAlive = true → h.store.Steps h'.store) : LeadsTo hub w (w.setHub i h') := by
  obtain ⟨hget, halive⟩ := hub?_eq_some.mp hhub
  have hmodify : w.setHub i h' = { w with hubs := w.hubs.modify i fun _ => h' } := by
    rw [World.setHub, List.set_eq_modify]
  rw [hmodify]
  refine modify fun g hg halive' => ?_
  obtain rfl : g = h := Option.some.inj (hg.symm.trans hget)
  exact ⟨halive, hsteps halive'⟩

theorem setStore {i : Nat} {h : Hub σ} (hhub : w.hub? i = some h) {s : Store}
    (hsteps : h.store.Steps s) : LeadsTo hub w (w.setHub i { h with store := s }) :=
  setHub hhub fun _ => hsteps

end LeadsTo

/-! ## What handlers and panels do to a world -/

variable (hub : Nat)

theorem leadsTo_subscribe (w : World σ) (i : Nat) (kind : EventKind) (handler : Handler σ) :
    LeadsTo hub w (w.subscribe i kind handler).2 := by
  unfold subscribe
  cases hhub : w.hub? i with
  | none => exact .refl w
  | some h => exact LeadsTo.setHub hhub fun _ => .refl _

theorem leadsTo_unsubscribe (w : World σ) (s : Subscription) :
    LeadsTo hub w (w.unsubscribe s).2 := by
  unfold unsubscribe
  cases hhub : w.hub? s.hub with
  | none => exact .refl w
  | some h =>
    dsimp only
    split
    · exact LeadsTo.setHub hhub fun _ => .refl _
    · exact .refl w

theorem leadsTo_unsubscribeAll (w : World σ) (l : List Subscription) :
    LeadsTo hub w (w.unsubscribeAll l) := by
  induction l generalizing w with
  | nil => exact .refl w
  | cons s rest ih => exact (leadsTo_unsubscribe hub w s).trans (ih _)

/-- A panel subscribes to three kinds of events, one after the other. -/
theorem leadsTo_attachPanel (w : World σ) (i : Nat) (h : Hub σ) :
    LeadsTo hub w (w.attachPanel i h).2 :=
  (leadsTo_subscribe hub w i _ _).trans
    ((leadsTo_subscribe hub _ i _ _).trans (leadsTo_subscribe hub _ i _ _))

theorem leadsTo_reloadPanel (w : World σ) (i : Nat) (kind? : Option EventKind) :
    LeadsTo hub w (w.reloadPanel i kind?) := by
  unfold reloadPanel
  split
  · exact .refl w
  · split
    · exact .refl w
    · exact .of_hubs_eq rfl

theorem leadsTo_beginDispatch {i : Nat} (hi : (w.hub? i).isSome) :
    LeadsTo hub w (w.beginDispatch i) := by
  obtain ⟨h, hhub⟩ := Option.isSome_iff_exists.mp hi
  obtain ⟨hget, halive⟩ := hub?_eq_some.mp hhub
  refine LeadsTo.modify fun g hg _ => ?_
  obtain rfl : g = h := Option.some.inj (hg.symm.trans hget)
  exact ⟨halive, .refl _⟩

theorem leadsTo_endDispatch (w : World σ) (i : Nat) : LeadsTo hub w (w.endDispatch i) := by
  refine LeadsTo.modify fun h hget halive => ?_
  obtain ⟨hlive, hsettle⟩ := Hub.settle_of_isAlive halive
  rw [hsettle]
  refine ⟨?_, .refl _⟩
  simp only [Hub.isAlive, Bool.or_eq_true, decide_eq_true_eq] at hlive ⊢
  omega

end World

/-! ## Replies -/

namespace Reply

/-- What every reply to a request in a world is like: the stores have come from there, and an event
is one of a hub that is alive. -/
structure Follows {α : Type} (hub : Nat) (w : World σ) (reply : Reply σ α) : Prop where
  leadsTo : w.LeadsTo hub (reply.world w)
  alive : ∀ {i event answer w'}, reply = .raises i event answer w' → (w'.hub? i).isSome

theorem follows_done {α : Type} {hub : Nat} (h : w.LeadsTo hub w') (a : α) :
    (done a w').Follows hub w := ⟨h, nofun⟩

theorem follows_of_hubs_eq {α : Type} {hub : Nat} (a : α) (h : w'.hubs = w.hubs) :
    (done a w').Follows hub w := follows_done (.of_hubs_eq h) a

theorem follows_panics {α : Type} {hub : Nat} (h : w.LeadsTo hub w') (message : String) :
    (panics message w' : Reply σ α).Follows hub w := ⟨h, nofun⟩

theorem follows_waiting {α : Type} (hub : Nat) (w : World σ) :
    (waiting : Reply σ α).Follows hub w := ⟨.refl w, nofun⟩

theorem follows_raises {α : Type} {hub i : Nat} (h : w.LeadsTo hub w') (hi : (w'.hub? i).isSome)
    (event : HubEvent) (answer : DispatchReport → α) :
    (raises i event answer w').Follows hub w := by
  refine ⟨h, fun heq => ?_⟩
  cases heq
  exact hi

end Reply

namespace World

variable (hub : Nat)

theorem follows_withHub {α : Type} {i : Nat} {f : Hub σ → Reply σ (Option α)}
    (hf : ∀ h, w.hub? i = some h → (f h).Follows hub w) : (w.withHub i f).Follows hub w := by
  rcases withHub_cases w i f with ⟨-, heq⟩ | ⟨h, hhub, heq⟩
  · rw [heq]
    exact Reply.follows_done (.refl w) none
  · rw [heq]
    exact hf h hhub

theorem follows_storeReply {i : Nat} {h : Hub σ} (hhub : w.hub? i = some h) (q : StoreRequest) :
    (w.storeReply i h q).Follows hub w := by
  have hleads : LeadsTo hub w (w.afterRequest i h q) :=
    (LeadsTo.setStore hhub (Store.steps_answer h.store q)).addLog _
  have hreply := ofRequest_storeReply w i h q
  generalize w.storeReply i h q = reply at hreply ⊢
  cases hreply with
  | answered hevent => exact Reply.follows_done hleads _
  | raised hevent =>
    refine Reply.follows_raises hleads ?_ _ _
    exact Option.isSome_iff_exists.mpr ⟨_, hub?_setStore hhub _⟩

theorem follows_exportReply (supply : Supply) (patience : Nat) {i : Nat} {h : Hub σ}
    (hhub : w.hub? i = some h) (x : Store.Export) :
    (w.exportReply supply patience i h x).Follows hub w := by
  have hsteps := fun id => Store.steps_call h.store (.exportData x id (supply.time w.drawnTimes))
  have hreply := ofExport_exportReply supply patience w i h x
  generalize w.exportReply supply patience i h x = reply at hreply ⊢
  cases hreply with
  | waiting => exact Reply.follows_waiting hub w
  | refused e => exact Reply.follows_done (.refl w) _
  | @exhausted id store drawn hexport =>
    have hstore := hsteps id
    rw [Store.call, hexport] at hstore
    refine Reply.follows_panics ?_ _
    exact (LeadsTo.setStore hhub hstore).trans (.of_hubs_eq rfl)
  | @stored id effect e c drawn hexport hevent =>
    have hstore := hsteps id
    rw [Store.call, hexport] at hstore
    refine Reply.follows_raises ?_ ?_ _ _
    · exact (LeadsTo.setStore hhub hstore).trans (.of_hubs_eq rfl)
    · exact Option.isSome_iff_exists.mpr ⟨_, hub?_setStore hhub _⟩

theorem leadsTo_load {i : Nat} {h : Hub σ} (hhub : w.hub? i = some h) (path : String) :
    LeadsTo hub w (w.load i h path).2 := by
  unfold load
  split
  · exact .refl w
  · next snapshot log _ =>
    exact (LeadsTo.setStore hhub (Store.steps_answer h.store (.restore snapshot))).addLog _

theorem leadsTo_save (supply : Supply) (w : World σ) (h : Hub σ) (path : String) :
    LeadsTo hub w (w.save supply h path).2 := by
  refine .of_hubs_eq ?_
  unfold save
  dsimp only
  split <;> rfl

theorem follows_parse (supply : Supply) (patience : Nat) (w : World σ) (text : String) :
    (w.reply supply patience (.parse text)).Follows hub w := by
  rw [reply]
  split
  · exact Reply.follows_done (.refl w) _
  · apply Reply.follows_of_hubs_eq
    rfl

theorem follows_emit (supply : Supply) (patience : Nat) (w : World σ) (i : Nat)
    (event : HubEvent) : (w.reply supply patience (.emit i event)).Follows hub w := by
  refine follows_withHub hub fun h hhub => Reply.follows_raises (.refl w) ?_ event _
  rw [hhub]
  rfl

theorem follows_openChannel (supply : Supply) (patience : Nat) (w : World σ) (i : Nat)
    (kind : EventKind) : (w.reply supply patience (.openChannel i kind)).Follows hub w := by
  refine follows_withHub hub fun h hhub => Reply.follows_done ?_ _
  exact LeadsTo.trans (.of_hubs_eq rfl) (leadsTo_subscribe hub _ i kind _)

/-- The reply is the one of the store, with another answer. -/
theorem follows_usePanel (supply : Supply) (patience : Nat) (w : World σ) (panel : Nat)
    (summary : EntrySummary) (target : String) :
    (w.reply supply patience (.usePanel panel summary target)).Follows hub w := by
  rw [reply]
  split
  · exact Reply.follows_done (.refl w) _
  · next i h hpanel =>
    have hfollows := follows_storeReply hub (hub?_of_panel hpanel)
      (.requestUse summary.category.name summary.id target)
    split
    · next hreply =>
      rw [hreply] at hfollows
      exact Reply.follows_done hfollows.leadsTo _
    · next hreply =>
      rw [hreply] at hfollows
      exact Reply.follows_raises hfollows.leadsTo (hfollows.alive rfl) _ _
    · next hreply =>
      rw [hreply] at hfollows
      exact Reply.follows_panics hfollows.leadsTo _
    · exact Reply.follows_waiting hub w

theorem follows_detachPanel (supply : Supply) (patience : Nat) (w : World σ) (panel : Nat) :
    (w.reply supply patience (.detachPanel panel)).Follows hub w := by
  rw [reply]
  split
  · exact Reply.follows_done (.refl w) _
  · exact Reply.follows_done ((leadsTo_unsubscribeAll hub w _).addLog _) _

theorem follows_acquire (supply : Supply) (patience : Nat) (w : World σ) (i : Nat) :
    (w.reply supply patience (.acquire i)).Follows hub w := by
  rw [reply]
  cases hhub : w.hub? i with
  | none => exact Reply.follows_done (.refl w) _
  | some h =>
    refine Reply.follows_done ?_ _
    exact LeadsTo.setHub hhub fun _ => .refl _

/-- A hub that is given up by its last handle is gone, and another one keeps its store. -/
theorem follows_release (supply : Supply) (patience : Nat) (w : World σ) (i : Nat) :
    (w.reply supply patience (.release i)).Follows hub w := by
  rw [reply]
  cases hhub : w.hub? i with
  | none => exact Reply.follows_done (.refl w) _
  | some h =>
    refine Reply.follows_done (LeadsTo.setHub hhub fun halive => ?_) _
    rw [(Hub.settle_of_isAlive halive).2]
    exact .refl _

/-- Whatever is requested, the reply follows. -/
theorem follows_reply (supply : Supply) (patience : Nat) (w : World σ) (r : Request) :
    (w.reply supply patience r).Follows hub w := by
  cases r with
  | store i q => exact follows_withHub hub fun h hhub => follows_storeReply hub hhub q
  | exportData i x =>
    exact follows_withHub hub fun h hhub => follows_exportReply hub supply patience hhub x
  | snapshot i => exact follows_withHub hub fun h hhub => Reply.follows_of_hubs_eq _ rfl
  | save i path =>
    exact follows_withHub hub fun h hhub => Reply.follows_done (leadsTo_save hub supply w h path) _
  | load i path =>
    exact follows_withHub hub fun h hhub => Reply.follows_done (leadsTo_load hub hhub path) _
  | parse text => exact follows_parse hub supply patience w text
  | emit i event => exact follows_emit hub supply patience w i event
  | handlerCount i kind | handlerTotal i =>
    exact follows_withHub hub fun h hhub => Reply.follows_done (.refl w) _
  | unsubscribe s => exact Reply.follows_done (leadsTo_unsubscribe hub w s) _
  | openChannel i kind => exact follows_openChannel hub supply patience w i kind
  | attachPanel i =>
    exact follows_withHub hub fun h hhub =>
      Reply.follows_done (leadsTo_attachPanel hub w i h) _
  | refreshPanel panel => exact Reply.follows_done (leadsTo_reloadPanel hub w panel none) _
  | followPanel panel kind =>
    exact Reply.follows_done (leadsTo_reloadPanel hub w panel (some kind)) _
  | usePanel panel summary target => exact follows_usePanel hub supply patience w panel summary target
  | detachPanel panel => exact follows_detachPanel hub supply patience w panel
  | acquire i => exact follows_acquire hub supply patience w i
  | release i => exact follows_release hub supply patience w i
  | send | receive | closeChannel | readPanel | isAlive | inHandler | fileText | putFile
  | makeDirectory => exact Reply.follows_of_hubs_eq _ rfl

end World

/-! ## Runs -/

namespace Moment

/-- The world in which a request leaves its own, before anything is dispatched. -/
def after (m : Moment σ) : World σ := m.reply.world m.before

/-- The reply is the one that the world gives. -/
def IsReply (supply : Supply) (m : Moment σ) : Prop :=
  ∃ patience, m.before.reply supply patience m.request = m.reply

theorem IsReply.leadsTo {supply : Supply} {m : Moment σ} (h : m.IsReply supply) (hub : Nat) :
    m.before.LeadsTo hub m.after := by
  obtain ⟨patience, hreply⟩ := h
  rw [after, ← hreply]
  exact (World.follows_reply hub supply patience m.before m.request).leadsTo

end Moment

namespace Machine

variable {supply : Supply} (hub : Nat)

theorem leadsTo_deliver (i : Nat) (event : HubEvent) (next : DispatchReport → Program σ)
    (ds : List (Dispatch σ)) (handlers : List (Registration σ)) (report : DispatchReport)
    (w : World σ) : w.LeadsTo hub (deliver i event next ds handlers report w).world := by
  cases handlers with
  | nil => exact World.leadsTo_endDispatch hub w i
  | cons r rest => exact .of_hubs_eq rfl

theorem leadsTo_dispatch {i : Nat} (hi : (w.hub? i).isSome) (event : HubEvent)
    (next : DispatchReport → Program σ) (ds : List (Dispatch σ)) :
    w.LeadsTo hub (dispatch i event next ds w).world :=
  (World.leadsTo_beginDispatch hub hi).trans (leadsTo_deliver hub i event next ds _ _ _)

/-- One step of a machine: nothing is requested, or there is one request with its reply, and then
the stores come from there. -/
theorem Step.lineage {m m' : Machine σ} {t : List (Moment σ)} (h : Step supply m t m') :
    (t = [] ∧ m.world.LeadsTo hub m'.world) ∨
      ∃ a, t = [a] ∧ a.before = m.world ∧ a.IsReply supply ∧ a.after.LeadsTo hub m'.world := by
  cases h with
  | answered patience hreply => exact .inr ⟨_, rfl, rfl, ⟨patience, hreply⟩, .refl _⟩
  | @raised w w' ds r next i event answer patience hreply =>
    have halive := (World.follows_reply hub supply patience w r).alive hreply
    exact .inr ⟨_, rfl, rfl, ⟨patience, hreply⟩, leadsTo_dispatch hub halive event _ ds⟩
  | panicked patience hreply => exact .inr ⟨_, rfl, rfl, ⟨patience, hreply⟩, .refl _⟩
  | subscribed w ds i kind handler next =>
    exact .inl ⟨rfl, World.leadsTo_subscribe hub w i kind handler⟩
  | recalled w ds next => exact .inl ⟨rfl, .refl w⟩
  | remembered w ds change next => exact .inl ⟨rfl, .of_hubs_eq rfl⟩
  | handled w d ds o =>
    exact .inl ⟨rfl, World.LeadsTo.trans (.of_hubs_eq rfl) (leadsTo_deliver hub d.hub _ _ ds _ _ _)⟩

/-- The worlds that the requests of a run are made in and leave. -/
def worlds (t : List (Moment σ)) : List (World σ) := t.flatMap fun a => [a.before, a.after]

/-- How the stores of a hub go through the moments of a run. -/
structure IsHistory (supply : Supply) (hub : Nat) (w : World σ) (t : List (Moment σ)) : Prop where
  replies : ∀ a ∈ t, a.IsReply supply
  ordered : (w :: worlds t).Pairwise (World.LeadsTo hub)

theorem Runs.isHistory {m m' : Machine σ} {t : List (Moment σ)} (h : Runs supply m t m') :
    IsHistory supply hub m.world t := by
  induction h with
  | refl m => exact ⟨by simp, List.pairwise_singleton _ _⟩
  | step h rest ih =>
    obtain ⟨hafter, hordered⟩ := List.pairwise_cons.mp ih.ordered
    rcases h.lineage hub with ⟨rfl, hleads⟩ | ⟨a, rfl, hbefore, hreply, hleads⟩
    · refine ⟨ih.replies, List.pairwise_cons.mpr ⟨?_, hordered⟩⟩
      exact fun v hv => hleads.trans (hafter v hv)
    · refine ⟨List.forall_mem_cons.mpr ⟨hreply, ih.replies⟩, ?_⟩
      have hlater := fun v hv => hleads.trans (hafter v hv)
      have hrest := List.pairwise_cons.mpr ⟨hlater, hordered⟩
      -- the world of the machine stands twice, as it is also the one of the request
      have hagain := List.forall_mem_cons.mpr
        ⟨hreply.leadsTo hub, fun v hv => (hreply.leadsTo hub).trans (hlater v hv)⟩
      rw [← hbefore]
      exact List.pairwise_cons.mpr ⟨List.forall_mem_cons.mpr ⟨.refl _, hagain⟩,
        List.pairwise_cons.mpr ⟨hagain, hrest⟩⟩

end Machine
end LabExchange
