import LabExchange.Hub.World
import LabExchange.Proofs.Hub.Calls

/-!
# Replies

What requests to a hub come to. The replies to a request about the entries, and those to an
export, are described once, case by case; what is proved of them goes by these cases.
-/
namespace LabExchange

variable {σ : Type} {w w' : World σ}

/-- A hub that is alive when it has been settled was alive, and is left as it was. -/
theorem Hub.settle_of_isAlive {h : Hub σ} (halive : h.settle.isAlive = true) :
    h.isAlive = true ∧ h.settle = h := by
  by_cases hlive : h.isAlive = true
  · exact ⟨hlive, if_pos hlive⟩
  · rw [settle, if_neg hlive] at halive
    simp [isAlive, new] at halive

/-! ## Hubs in a world -/

namespace World

/-- The store of a hub that is alive. -/
def store? (w : World σ) (hub : Nat) : Option Store := (w.hub? hub).map Hub.store

theorem hub?_eq_some {id : Nat} {h : Hub σ} :
    w.hub? id = some h ↔ w.hubs[id]? = some h ∧ h.isAlive = true := Option.filter_eq_some_iff

theorem store?_eq_some {hub : Nat} {s : Store} :
    w.store? hub = some s ↔ ∃ h, w.hub? hub = some h ∧ h.store = s := Option.map_eq_some_iff

theorem store?_of_hub? {hub : Nat} {h : Hub σ} (hhub : w.hub? hub = some h) :
    w.store? hub = some h.store := store?_eq_some.mpr ⟨h, hhub, rfl⟩

/-- A hub is new where nothing has been done yet. -/
theorem hub?_new {hubs : Nat} {files : Files} {memory : σ} {hub : Nat} {h : Hub σ}
    (hhub : (World.new hubs files memory).hub? hub = some h) : h = .new :=
  List.eq_of_mem_replicate (List.mem_of_getElem? (hub?_eq_some.mp hhub).1)

theorem hub?_setHub {i : Nat} {h h' : Hub σ} (hhub : w.hub? i = some h)
    (halive : h'.isAlive = true) : (w.setHub i h').hub? i = some h' := by
  have hlt : i < w.hubs.length := (List.getElem?_eq_some_iff.mp (hub?_eq_some.mp hhub).1).1
  refine hub?_eq_some.mpr ⟨?_, halive⟩
  rw [setHub, List.getElem?_set_self hlt]

/-- A hub stays alive when it is given another store. -/
theorem hub?_setStore {i : Nat} {h : Hub σ} (hhub : w.hub? i = some h) (s : Store) :
    (w.setHub i { h with store := s }).hub? i = some { h with store := s } :=
  hub?_setHub hhub (hub?_eq_some.mp hhub).2

/-- The hub that a panel shows, if it is alive. -/
theorem hub?_of_panel {panel i : Nat} {h : Hub σ}
    (hpanel : (w.panels[panel]?.bind fun panel =>
      (w.hub? panel.hub).map fun h => (panel.hub, h)) = some (i, h)) : w.hub? i = some h := by
  obtain ⟨p, -, hmap⟩ := Option.bind_eq_some_iff.mp hpanel
  obtain ⟨g, hhub, heq⟩ := Option.map_eq_some_iff.mp hmap
  obtain ⟨rfl, rfl⟩ := Prod.mk.inj heq
  exact hhub

/-- The world after a request about the entries of a hub. -/
def afterRequest (w : World σ) (i : Nat) (h : Hub σ) (q : StoreRequest) : World σ :=
  (w.setHub i { h with store := (h.store.answer q).store }).addLog (h.store.answer q).log

/-- The world after an export that has been stored, when some ids have been drawn in all. -/
def afterExport (w : World σ) (i : Nat) (h : Hub σ) (effect : Effect EntryId) (drawn : Nat) :
    World σ :=
  { (w.setHub i { h with store := effect.store }).addLog effect.log with
    drawnIds := drawn, drawnTimes := w.drawnTimes + 1 }

end World

/-! ## Descriptions of replies -/

namespace Reply

/-- The world after a reply to a request that was made in another one. -/
def world {α : Type} (before : World σ) : Reply σ α → World σ
  | done _ w => w
  | raises _ _ _ w => w
  | panics _ w => w
  | waiting => before

/-- An answer that a reply comes to, however an event is taken by its handlers. -/
def Gives {α : Type} (a : α) : Reply σ α → Prop
  | done answer _ => answer = a
  | raises _ _ answer _ => ∃ report, answer report = a
  | panics .. | waiting => False

/-- The replies to a request about the entries of a hub. -/
inductive OfRequest (w : World σ) (i : Nat) (h : Hub σ) (q : StoreRequest) :
    Reply σ (Option q.Answer) → Prop
  | answered (hevent : (h.store.answer q).event = none) :
      OfRequest w i h q (done (some (h.store.answer q).answer) (w.afterRequest i h q))
  | raised {event : HubEvent} (hevent : (h.store.answer q).event = some event) :
      OfRequest w i h q
        (raises i event (fun _ => some (h.store.answer q).answer) (w.afterRequest i h q))

/-- The replies to an export. -/
inductive OfExport (supply : Supply) (w : World σ) (i : Nat) (h : Hub σ) (x : Store.Export) :
    Reply σ (Option (Except HubError EntryId)) → Prop
  | waiting : OfExport supply w i h x waiting
  | refused (e : HubError) : OfExport supply w i h x (done (some (.error e)) w)
  | exhausted {id : EntryId} {store : Store} (drawn : Nat)
      (hexport : h.store.exportData x id (supply.time w.drawnTimes) = .exhausted store) :
      OfExport supply w i h x (panics Store.overflowMessage
        { w.setHub i { h with store := store } with
          drawnIds := drawn, drawnTimes := w.drawnTimes + 1 })
  | stored {id : EntryId} {effect : Effect EntryId} {e : Entry} {c : Category} (drawn : Nat)
      (hexport : h.store.exportData x id (supply.time w.drawnTimes) = .stored effect)
      (hevent : effect.event = some (.entryCreated e c)) :
      OfExport supply w i h x (raises i (.entryCreated e c) (fun _ => some (.ok effect.answer))
        (w.afterExport i h effect drawn))

end Reply

namespace World

theorem withHub_of_hub? {α : Type} {i : Nat} {h : Hub σ} (hhub : w.hub? i = some h)
    (f : Hub σ → Reply σ (Option α)) : w.withHub i f = f h := by
  simp [withHub, hhub]

theorem withHub_cases {α : Type} (w : World σ) (i : Nat) (f : Hub σ → Reply σ (Option α)) :
    w.hub? i = none ∧ w.withHub i f = .done none w ∨
      ∃ h, w.hub? i = some h ∧ w.withHub i f = f h := by
  cases hhub : w.hub? i with
  | none => exact .inl ⟨rfl, by simp [withHub, hhub]⟩
  | some h => exact .inr ⟨h, rfl, withHub_of_hub? hhub f⟩

theorem ofRequest_storeReply (w : World σ) (i : Nat) (h : Hub σ) (q : StoreRequest) :
    Reply.OfRequest w i h q (w.storeReply i h q) := by
  unfold storeReply
  cases hevent : (h.store.answer q).event with
  | none =>
    simp only [hevent]
    exact .answered hevent
  | some event =>
    simp only [hevent]
    exact .raised hevent

theorem ofExport_exportReply (supply : Supply) (patience : Nat) (w : World σ) (i : Nat) (h : Hub σ)
    (x : Store.Export) : Reply.OfExport supply w i h x (w.exportReply supply patience i h x) := by
  unfold exportReply
  cases hdraw :
    h.store.exportDrawing x supply.id (supply.time w.drawnTimes) patience w.drawnIds with
  | none => exact .waiting
  | some result =>
    obtain ⟨id, hexport⟩ := Store.exportDrawing_eq_some hdraw
    obtain ⟨result, drawn⟩ := result
    cases result with
    | refused e => exact .refused e
    | redraw => exact .waiting
    | exhausted store => exact .exhausted drawn hexport
    | stored effect =>
      obtain ⟨c, e, -, hevent, -⟩ := Store.exportData_eq_stored hexport
      simp only [hevent]
      exact .stored drawn hexport hevent

/-! ## Answers and events -/

variable {supply : Supply} {patience hub : Nat}

theorem withHub_gives {α : Type} {i : Nat} {f : Hub σ → Reply σ (Option α)} {a : α}
    (h : (w.withHub i f).Gives (some a)) : ∃ g, w.hub? i = some g ∧ (f g).Gives (some a) := by
  rcases withHub_cases w i f with ⟨-, heq⟩ | ⟨g, hhub, heq⟩
  · rw [heq] at h
    contradiction
  · rw [heq] at h
    exact ⟨g, hhub, h⟩

theorem storeReply_gives {i : Nat} {g : Hub σ} {q : StoreRequest} {a : q.Answer}
    (h : (w.storeReply i g q).Gives (some a)) : a = (g.store.answer q).answer := by
  have hreply := ofRequest_storeReply w i g q
  generalize w.storeReply i g q = reply at hreply h
  cases hreply with
  | answered hevent => exact (Option.some.inj h).symm
  | raised hevent =>
    obtain ⟨report, ha⟩ := h
    exact (Option.some.inj ha).symm

/-- After a request about the entries, a hub has the store that comes of it. -/
theorem store?_storeReply {i : Nat} {g : Hub σ} (hhub : w.hub? i = some g) (q : StoreRequest) :
    ((w.storeReply i g q).world w).store? i = some (g.store.answer q).store := by
  have hafter : (w.afterRequest i g q).store? i = some (g.store.answer q).store :=
    store?_eq_some.mpr ⟨_, hub?_setStore hhub _, rfl⟩
  have hreply := ofRequest_storeReply w i g q
  generalize w.storeReply i g q = reply at hreply ⊢
  cases hreply <;> exact hafter

theorem withHub_eq_raises {α : Type} {i : Nat} {f : Hub σ → Reply σ (Option α)} {event : HubEvent}
    {answer : DispatchReport → Option α} (h : w.withHub i f = .raises hub event answer w') :
    ∃ g, w.hub? i = some g ∧ f g = .raises hub event answer w' := by
  rcases withHub_cases w i f with ⟨-, heq⟩ | ⟨g, hhub, heq⟩
  · rw [heq] at h
    contradiction
  · exact ⟨g, hhub, heq.symm.trans h⟩

theorem storeReply_eq_raises {i : Nat} {g : Hub σ} {q : StoreRequest} {event : HubEvent}
    {answer : DispatchReport → Option q.Answer}
    (h : w.storeReply i g q = .raises hub event answer w') :
    i = hub ∧ (g.store.answer q).event = some event := by
  have hreply := ofRequest_storeReply w i g q
  rw [h] at hreply
  cases hreply with
  | raised hevent => exact ⟨rfl, hevent⟩

theorem exportReply_eq_raises {i : Nat} {g : Hub σ} {x : Store.Export} {event : HubEvent}
    {answer : DispatchReport → Option (Except HubError EntryId)} (hhub : w.hub? i = some g)
    (h : w.exportReply supply patience i g x = .raises hub event answer w') :
    i = hub ∧ ∃ id now effect, g.store.exportData x id now = .stored effect ∧
      effect.event = some event ∧ w'.store? hub = some effect.store := by
  have hreply := ofExport_exportReply supply patience w i g x
  rw [h] at hreply
  cases hreply with
  | stored drawn hexport hevent =>
    exact ⟨rfl, _, _, _, hexport, hevent, store?_eq_some.mpr ⟨_, hub?_setStore hhub _, rfl⟩⟩

/-- An event that a hub raises is that of a request about its entries or that of an export. -/
theorem reply_eq_raises {r : Request} {event : HubEvent} {answer : DispatchReport → r.Answer}
    (h : w.reply supply patience r = .raises hub event answer w')
    (hr : ∀ event, r ≠ .emit hub event) :
    ∃ s, w.store? hub = some s ∧ ((∃ q, (s.answer q).event = some event) ∨
      ∃ x id now effect, s.exportData x id now = .stored effect ∧ effect.event = some event ∧
        w'.store? hub = some effect.store) := by
  cases r with
  | store i q =>
    obtain ⟨g, hhub, hraises⟩ := withHub_eq_raises h
    obtain ⟨rfl, hevent⟩ := storeReply_eq_raises hraises
    exact ⟨g.store, store?_of_hub? hhub, .inl ⟨q, hevent⟩⟩
  | exportData i x =>
    obtain ⟨g, hhub, hraises⟩ := withHub_eq_raises h
    obtain ⟨rfl, id, now, effect, hstored⟩ := exportReply_eq_raises hhub hraises
    exact ⟨g.store, store?_of_hub? hhub, .inr ⟨x, id, now, effect, hstored⟩⟩
  | usePanel panel summary target =>
    rw [reply] at h
    split at h
    · contradiction
    · next i g hpanel =>
      split at h
      · contradiction
      · next hraises =>
        obtain ⟨rfl, rfl, -⟩ := Reply.raises.inj h
        obtain ⟨rfl, hevent⟩ := storeReply_eq_raises hraises
        exact ⟨g.store, store?_of_hub? (hub?_of_panel hpanel), .inl ⟨_, hevent⟩⟩
      · contradiction
      · contradiction
  | emit i event' =>
    obtain ⟨g, hhub, hraises⟩ := withHub_eq_raises h
    obtain ⟨rfl, -⟩ := Reply.raises.inj hraises
    exact absurd rfl (hr event')
  | snapshot | save | load | handlerCount | handlerTotal | openChannel | attachPanel =>
    obtain ⟨g, hhub, hraises⟩ := withHub_eq_raises h
    contradiction
  | unsubscribe | send | receive | closeChannel | readPanel | refreshPanel | followPanel
  | isAlive | inHandler | fileText | putFile | makeDirectory => contradiction
  | parse | detachPanel | acquire | release =>
    rw [reply] at h
    split at h <;> contradiction

end World
end LabExchange
