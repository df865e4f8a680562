import LabExchange.Proofs.Hub.Turns
import LabExchange.Proofs.Store.Alike

/-!
# Worlds that are alike

Two runs are compared in which the same programs run, except that handlers may end in different
ways, and in which the same is there, except for ids that were issued to nobody. What is done to
both worlds alike leaves them alike.
-/
namespace LabExchange

variable {σ α : Type}

/-! ## Lists that are compared item by item -/

section

variable {β : Type} {R : α → β → Prop} {l : List α} {l' : List β}

theorem forall₂_getElem? (h : List.Forall₂ R l l') (i : Nat) : Option.Rel R l[i]? l'[i]? := by
  induction h generalizing i with
  | nil => exact .none
  | cons hhead htail ih =>
    cases i with
    | zero => exact .some hhead
    | succ i => exact ih i

theorem forall₂_modify (h : List.Forall₂ R l l') (i : Nat) {f : α → α} {f' : β → β}
    (hf : ∀ a a', R a a' → R (f a) (f' a')) : List.Forall₂ R (l.modify i f) (l'.modify i f') := by
  induction h generalizing i with
  | nil =>
    rw [List.modify_nil, List.modify_nil]
    exact .nil
  | cons hhead htail ih =>
    cases i with
    | zero => exact .cons (hf _ _ hhead) htail
    | succ i => exact .cons hhead (ih i)

theorem forall₂_set (h : List.Forall₂ R l l') (i : Nat) {a : α} {a' : β} (ha : R a a') :
    List.Forall₂ R (l.set i a) (l'.set i a') := by
  rw [List.set_eq_modify, List.set_eq_modify]
  exact forall₂_modify h i fun _ _ _ => ha

theorem forall₂_set_left (h : List.Forall₂ R l l') {i : Nat} {a : α} {a' : β}
    (hget : l'[i]? = some a') (ha : R a a') : List.Forall₂ R (l.set i a) l' := by
  obtain ⟨hlt, rfl⟩ := List.getElem?_eq_some_iff.mp hget
  have hset := forall₂_set h i ha
  rwa [List.set_getElem_self] at hset

theorem forall₂_filter (h : List.Forall₂ R l l') {p : α → Bool} {p' : β → Bool}
    (hp : ∀ a a', R a a' → p' a' = p a) : List.Forall₂ R (l.filter p) (l'.filter p') :=
  List.rel_filter (fun a a' ha => (congrArg (· = true) (hp a a' ha).symm).to_iff) h

end

/-! ## What is compared -/

/-- A way to compare two runs: where their ids and times come from, how a handler may end in the
other run, which reports are taken for the same then, which lines of the logs are compared, and
which ids may have been issued in one run only. -/
structure Comparison where
  first : Supply
  second : Supply
  outcomes : Outcome → Outcome → Prop
  reports : DispatchReport → DispatchReport → Prop
  compares : LogLine → Bool
  hidden : EntryId → Prop
  same : ∀ o, outcomes o o
  empty : reports .empty .empty
  count : ∀ {r r' o o'}, reports r r' → outcomes o o' → reports (r.count o) (r'.count o')
  warning : ∀ {o o'} (id : Nat) (kind : EventKind), outcomes o o' →
    (o'.warning id kind).filter compares = (o.warning id kind).filter compares

variable {c : Comparison}

/-- Two answers to a request are the same, but a report may be another one. -/
def Request.Likens (c : Comparison) : (r : Request) → r.Answer → r.Answer → Prop
  | .emit .. => Option.Rel c.reports
  | _ => Eq

/-- Two programs make the same requests as long as they get the same answers, and end in ways that
are compared. -/
inductive Program.Alike (c : Comparison) : Program σ → Program σ → Prop
  | finish {o o' : Outcome} (h : c.outcomes o o') : Alike c (.finish o) (.finish o')
  | request (r : Request) {next next' : r.Answer → Program σ}
      (h : ∀ a a', r.Likens c a a' → Alike c (next a) (next' a')) :
      Alike c (.request r next) (.request r next')
  | subscribe (hub : Nat) (kind : EventKind) {handler handler' : HubEvent → Program σ}
      {next next' : Option Subscription → Program σ}
      (hhandler : ∀ event, Alike c (handler event) (handler' event))
      (h : ∀ s, Alike c (next s) (next' s)) :
      Alike c (.subscribe hub kind handler next) (.subscribe hub kind handler' next')
  | «recall» {next next' : σ → Program σ} (h : ∀ memory, Alike c (next memory) (next' memory)) :
      Alike c (.recall next) (.recall next')
  | remember (change : σ → σ) {next next' : Program σ} (h : Alike c next next') :
      Alike c (.remember change next) (.remember change next')

/-- Two handlers do the same with each event. -/
def Handler.Alike (c : Comparison) (handler handler' : Handler σ) : Prop :=
  ∀ event, (handler event).Alike c (handler' event)

structure Registration.Alike (c : Comparison) (r r' : Registration σ) : Prop where
  id : r'.id = r.id
  kind : r'.kind = r.kind
  handler : r.handler.Alike c r'.handler

structure Hub.Alike (c : Comparison) (h h' : Hub σ) : Prop where
  handles : h'.handles = h.handles
  dispatches : h'.dispatches = h.dispatches
  store : h.store.Alike c.hidden h'.store
  nextHandler : h'.nextHandler = h.nextHandler
  registrations : List.Forall₂ (Registration.Alike c) h.registrations h'.registrations

/-- Two worlds are the same as far as they are compared. From now on, the same ids and times are
drawn in them. -/
structure World.Alike (c : Comparison) (w w' : World σ) : Prop where
  hubs : List.Forall₂ (Hub.Alike c) w.hubs w'.hubs
  channels : w'.channels = w.channels
  panels : w'.panels = w.panels
  files : w'.files = w.files
  log : w'.log.filter c.compares = w.log.filter c.compares
  depth : w'.depth = w.depth
  memory : w'.memory = w.memory
  ids : Store.SameIds c.hidden c.first.id c.second.id w.drawnIds w'.drawnIds
  times : ∀ k, c.second.time (w'.drawnTimes + k) = c.first.time (w.drawnTimes + k)

/-- Two replies to a request, whose answers are compared in some way. -/
inductive Reply.Alike (c : Comparison) (likens : α → α → Prop) : Reply σ α → Reply σ α → Prop
  | done {a a' : α} {w w' : World σ} (ha : likens a a') (hw : w.Alike c w') :
      Alike c likens (.done a w) (.done a' w')
  | raises (hub : Nat) (event : HubEvent) {answer answer' : DispatchReport → α} {w w' : World σ}
      (ha : ∀ r r', c.reports r r' → likens (answer r) (answer' r')) (hw : w.Alike c w') :
      Alike c likens (.raises hub event answer w) (.raises hub event answer' w')
  | panics (message : String) {w w' : World σ} (hw : w.Alike c w') :
      Alike c likens (.panics message w) (.panics message w')
  | waiting : Alike c likens .waiting .waiting

/-- A request restores an entry under a hidden id. -/
def Request.Brings (hidden : EntryId → Prop) (w : World σ) : Request → Prop
  | .store _ q => q.Brings hidden
  | .load _ path => ∃ snapshot log, Snapshot.readFile w.files path = .ok (snapshot, log) ∧
    ∃ e ∈ snapshot.entries, hidden e.id
  | _ => False

/-! ## Hubs -/

theorem Handler.alike_forward (channel : Nat) :
    (Handler.forward channel : Handler σ).Alike c (.forward channel) :=
  fun _ => .request _ fun _ _ _ => .finish (c.same _)

theorem Handler.alike_follow (panel : Nat) :
    (Handler.follow panel : Handler σ).Alike c (.follow panel) :=
  fun _ => .request _ fun _ _ _ => .finish (c.same _)

namespace Hub.Alike

variable {h h' : Hub σ}

theorem isAlive (hh : h.Alike c h') : h'.isAlive = h.isAlive := by
  rw [Hub.isAlive, hh.handles, hh.dispatches, Hub.isAlive]

theorem settle (hh : h.Alike c h') : h.settle.Alike c h'.settle := by
  rw [Hub.settle, Hub.settle, hh.isAlive]
  split
  · exact hh
  · exact ⟨rfl, rfl, .refl _, rfl, .nil⟩

theorem handlersOf (hh : h.Alike c h') (kind : EventKind) :
    List.Forall₂ (Registration.Alike c) (h.handlersOf kind) (h'.handlersOf kind) :=
  forall₂_filter hh.registrations fun r r' hr => by rw [hr.kind]

theorem register (hh : h.Alike c h') (kind : EventKind) {handler handler' : Handler σ}
    (hhandler : handler.Alike c handler') :
    (h.register kind handler).Alike c (h'.register kind handler') := by
  refine { hh with
    nextHandler := congrArg (· + 1) hh.nextHandler
    registrations := List.rel_append hh.registrations (.cons ?_ .nil) }
  exact ⟨hh.nextHandler, rfl, hhandler⟩

theorem unregister (hh : h.Alike c h') (id : Nat) :
    (h.unregister id).Alike c (h'.unregister id) :=
  { hh with registrations := forall₂_filter hh.registrations fun r r' hr => by rw [hr.id] }

theorem isRegistered (hh : h.Alike c h') (id : Nat) :
    h'.registrations.any (·.id == id) = h.registrations.any (·.id == id) := by
  have hids : h'.registrations.map (·.id) = h.registrations.map (·.id) := by
    refine (List.forall₂_eq_eq_eq ▸ List.rel_map (P := Eq) ?_ hh.registrations).symm
    exact fun r r' hr => hr.id.symm
  have hany := congrArg (List.any · (· == id)) hids
  simpa [List.any_map, Function.comp_def] using hany

theorem view (hh : h.Alike c h') (last : Option EventKind) : h'.view last = h.view last := by
  simp only [Hub.view, CategoryCounts.ofStore, Store.total, Store.listAll, hh.store.toList]

end Hub.Alike

/-! ## Worlds -/

namespace World.Alike

variable {w w' : World σ}

theorem hub? (hw : w.Alike c w') (i : Nat) :
    Option.Rel (Hub.Alike c) (w.hub? i) (w'.hub? i) := by
  have hget := forall₂_getElem? hw.hubs i
  rw [World.hub?, World.hub?]
  generalize w.hubs[i]? = o at hget ⊢
  generalize w'.hubs[i]? = o' at hget ⊢
  cases hget with
  | none => exact .none
  | @some h h' hh =>
    rw [Option.filter_some, Option.filter_some, hh.isAlive]
    split
    · exact .some hh
    · exact .none

theorem setHub (hw : w.Alike c w') (i : Nat) {h h' : Hub σ} (hh : h.Alike c h') :
    (w.setHub i h).Alike c (w'.setHub i h') :=
  { hw with hubs := forall₂_set hw.hubs i hh }

theorem setStore (hw : w.Alike c w') (i : Nat) {h h' : Hub σ} (hh : h.Alike c h') {s s' : Store}
    (hs : s.Alike c.hidden s') :
    (w.setHub i { h with store := s }).Alike c (w'.setHub i { h' with store := s' }) := by
  refine hw.setHub i ?_
  exact { hh with store := hs }

theorem addLines (hw : w.Alike c w') {lines lines' : List LogLine}
    (hlines : lines'.filter c.compares = lines.filter c.compares) :
    (w.addLog lines).Alike c (w'.addLog lines') :=
  { hw with
    log := by
      rw [World.addLog, World.addLog, List.filter_append, List.filter_append, hw.log, hlines] }

theorem addLog (hw : w.Alike c w') (lines : List LogLine) :
    (w.addLog lines).Alike c (w'.addLog lines) := hw.addLines rfl

theorem mapChannels (hw : w.Alike c w') (f : List Channel → List Channel) :
    World.Alike c { w with channels := f w.channels } { w' with channels := f w'.channels } :=
  { hw with channels := by rw [hw.channels] }

theorem withFiles (hw : w.Alike c w') (files : Files) :
    World.Alike c { w with files := files } { w' with files := files } :=
  { hw with files := rfl }

theorem withDrawnTimes (hw : w.Alike c w') :
    World.Alike c { w with drawnTimes := w.drawnTimes + 1 }
      { w' with drawnTimes := w'.drawnTimes + 1 } := by
  refine { hw with times := fun k => ?_ }
  rw [Nat.add_assoc, Nat.add_assoc]
  exact hw.times (1 + k)

theorem withDrawnIds (hw : w.Alike c w') (n : Nat) :
    World.Alike c { w with drawnIds := w.drawnIds + n } { w' with drawnIds := w'.drawnIds + n } :=
  { hw with ids := hw.ids.later n }

theorem time (hw : w.Alike c w') : c.second.time w'.drawnTimes = c.first.time w.drawnTimes :=
  hw.times 0

theorem subscribe (hw : w.Alike c w') (i : Nat) (kind : EventKind) {handler handler' : Handler σ}
    (hhandler : handler.Alike c handler') :
    (w'.subscribe i kind handler').1 = (w.subscribe i kind handler).1 ∧
      (w.subscribe i kind handler).2.Alike c (w'.subscribe i kind handler').2 := by
  have hhub := hw.hub? i
  simp only [World.subscribe]
  generalize w.hub? i = o at hhub ⊢
  generalize w'.hub? i = o' at hhub ⊢
  cases hhub with
  | none => exact ⟨rfl, hw⟩
  | some hh =>
    simp only [hh.nextHandler, true_and]
    exact (hw.setHub i (hh.register kind hhandler)).addLog _

theorem unsubscribe (hw : w.Alike c w') (s : Subscription) :
    (w'.unsubscribe s).1 = (w.unsubscribe s).1 ∧
      (w.unsubscribe s).2.Alike c (w'.unsubscribe s).2 := by
  have hhub := hw.hub? s.hub
  simp only [World.unsubscribe]
  generalize w.hub? s.hub = o at hhub ⊢
  generalize w'.hub? s.hub = o' at hhub ⊢
  cases hhub with
  | none => exact ⟨rfl, hw⟩
  | some hh =>
    simp only [hh.isRegistered]
    split
    · exact ⟨rfl, (hw.setHub s.hub (hh.unregister s.id)).addLog _⟩
    · exact ⟨rfl, hw⟩

theorem unsubscribeAll (hw : w.Alike c w') (l : List Subscription) :
    (w.unsubscribeAll l).Alike c (w'.unsubscribeAll l) := by
  induction l generalizing w w' with
  | nil => exact hw
  | cons s rest ih => exact ih (hw.unsubscribe s).2

/-- A panel subscribes to three kinds of events, one after the other. -/
theorem attachPanel (hw : w.Alike c w') (i : Nat) {h h' : Hub σ} (hh : h.Alike c h') :
    (w'.attachPanel i h').1 = (w.attachPanel i h).1 ∧
      (w.attachPanel i h).2.Alike c (w'.attachPanel i h').2 := by
  have hfollow := Handler.alike_follow (σ := σ) (c := c) w.panels.length
  obtain ⟨hs₁, hw₁⟩ := hw.subscribe i .entryCreated hfollow
  obtain ⟨hs₂, hw₂⟩ := hw₁.subscribe i .entryRemoved hfollow
  obtain ⟨hs₃, hw₃⟩ := hw₂.subscribe i .entriesCleared hfollow
  simp only [World.attachPanel, watchedKinds, List.foldl_cons, List.foldl_nil, hw.panels, hs₁, hs₂,
    hs₃, hh.view, hw₃.panels, true_and]
  refine World.Alike.addLog ?_ _
  exact { hw₃ with panels := rfl }

theorem reloadPanel (hw : w.Alike c w') (panel : Nat) (kind? : Option EventKind) :
    (w.reloadPanel panel kind?).Alike c (w'.reloadPanel panel kind?) := by
  simp only [World.reloadPanel, hw.panels]
  cases w.panels[panel]? with
  | none => exact hw
  | some p =>
    have hhub := hw.hub? p.hub
    dsimp only
    generalize w.hub? p.hub = o at hhub ⊢
    generalize w'.hub? p.hub = o' at hhub ⊢
    cases hhub with
    | none => exact hw
    | some hh =>
      simp only [hh.view]
      exact { hw with panels := rfl }

theorem beginDispatch (hw : w.Alike c w') (i : Nat) :
    (w.beginDispatch i).Alike c (w'.beginDispatch i) := by
  refine { hw with hubs := forall₂_modify hw.hubs i fun h h' hh => ?_ }
  exact { hh with dispatches := congrArg (· + 1) hh.dispatches }

theorem endDispatch (hw : w.Alike c w') (i : Nat) :
    (w.endDispatch i).Alike c (w'.endDispatch i) := by
  refine { hw with hubs := forall₂_modify hw.hubs i fun h h' hh => Hub.Alike.settle ?_ }
  exact { hh with dispatches := congrArg (· - 1) hh.dispatches }

/-! ## Replies -/

theorem withHub (hw : w.Alike c w') (i : Nat) {likens : Option α → Option α → Prop}
    {f f' : Hub σ → Reply σ (Option α)} (hnone : likens none none)
    (hf : ∀ h h', h.Alike c h' → (f h).Alike c likens (f' h')) :
    (w.withHub i f).Alike c likens (w'.withHub i f') := by
  have hhub := hw.hub? i
  simp only [World.withHub]
  generalize w.hub? i = o at hhub ⊢
  generalize w'.hub? i = o' at hhub ⊢
  cases hhub with
  | none => exact .done hnone hw
  | some hh => exact hf _ _ hh

theorem storeReply (hw : w.Alike c w') (i : Nat) {h h' : Hub σ} (hh : h.Alike c h')
    {q : StoreRequest} (hq : ¬q.Brings c.hidden) :
    (w.storeReply i h q).Alike c Eq (w'.storeReply i h' q) := by
  have he := hh.store.answer hq
  have hafter : World.Alike c (w.afterRequest i h q) (w'.afterRequest i h' q) := by
    rw [afterRequest, afterRequest, he.log]
    exact (hw.setStore i hh he.store).addLog _
  have hreply := ofRequest_storeReply w i h q
  have hreply' := ofRequest_storeReply w' i h' q
  generalize w.storeReply i h q = r at hreply ⊢
  generalize w'.storeReply i h' q = r' at hreply' ⊢
  cases hreply with
  | answered hevent =>
    cases hreply' with
    | answered => exact .done (congrArg some he.answer.symm) hafter
    | raised hevent' => rw [he.event, hevent] at hevent'; contradiction
  | raised hevent =>
    cases hreply' with
    | answered hevent' => rw [he.event, hevent] at hevent'; contradiction
    | raised hevent' =>
      rw [he.event, hevent] at hevent'
      obtain rfl := Option.some.inj hevent'
      exact .raises i _ (fun _ _ _ => congrArg some he.answer.symm) hafter

theorem exportReply (hw : w.Alike c w') (patience i : Nat) {h h' : Hub σ} (hh : h.Alike c h')
    (x : Store.Export) :
    (w.exportReply c.first patience i h x).Alike c Eq
      (w'.exportReply c.second patience i h' x) := by
  have hdrawing := hh.store.exportDrawing x (c.first.time w.drawnTimes) patience hw.ids
  simp only [World.exportReply, hw.time]
  generalize h.store.exportDrawing x c.first.id _ patience _ = o at hdrawing ⊢
  generalize h'.store.exportDrawing x c.second.id _ patience _ = o' at hdrawing ⊢
  cases hdrawing with
  | none => exact .waiting
  | @some r r' hboth =>
    obtain ⟨result, drawn⟩ := r
    obtain ⟨result', drawn'⟩ := r'
    obtain ⟨hresult, n, rfl, rfl⟩ := hboth
    dsimp only at hresult
    cases hresult with
    | refused e => exact .done rfl hw
    | redraw => exact .waiting
    | exhausted hs =>
      exact .panics _ ((hw.setStore i hh hs).withDrawnIds n).withDrawnTimes
    | @stored e e' he =>
      have hafter := ((hw.setStore i hh he.store).addLog e.log).withDrawnIds n
      simp only [he.event, he.log, he.answer]
      cases e.event with
      | none => exact .done rfl hafter.withDrawnTimes
      | some event => exact .raises i event (fun _ _ _ => rfl) hafter.withDrawnTimes

theorem takeSnapshot (hw : w.Alike c w') {h h' : Hub σ} (hh : h.Alike c h') :
    (takeSnapshot c.second w' h').1 = (takeSnapshot c.first w h).1 ∧
      (takeSnapshot c.first w h).2.Alike c (takeSnapshot c.second w' h').2 := by
  refine ⟨?_, hw.withDrawnTimes⟩
  rw [World.takeSnapshot, World.takeSnapshot, hh.store.toList, hw.time]

theorem save (hw : w.Alike c w') {h h' : Hub σ} (hh : h.Alike c h') (path : String) :
    (save c.second w' h' path).1 = (save c.first w h path).1 ∧
      (save c.first w h path).2.Alike c (save c.second w' h' path).2 := by
  obtain ⟨hsnapshot, hw'⟩ := hw.takeSnapshot hh
  simp only [World.save, hsnapshot, hw'.files]
  split
  · exact ⟨rfl, hw'.withFiles _⟩
  · exact ⟨rfl, (hw'.withFiles _).addLog _⟩

theorem load (hw : w.Alike c w') (i : Nat) {h h' : Hub σ} (hh : h.Alike c h') {path : String}
    (hpath : ¬(Request.load i path).Brings c.hidden w) :
    (w'.load i h' path).1 = (w.load i h path).1 ∧
      (w.load i h path).2.Alike c (w'.load i h' path).2 := by
  simp only [World.load, hw.files]
  cases hread : Snapshot.readFile w.files path with
  | error failure => exact ⟨rfl, hw⟩
  | ok read =>
    obtain ⟨snapshot, lines⟩ := read
    have hbrings : ¬(StoreRequest.restore snapshot).Brings c.hidden := by
      rintro ⟨e, he, hid⟩
      exact hpath ⟨snapshot, lines, hread, e, he, hid⟩
    have he : Effect.Alike _ (h.store.restore snapshot) (h'.store.restore snapshot) :=
      hh.store.answer hbrings
    simp only [he.answer, he.log, true_and]
    exact (hw.setStore i hh he.store).addLog _

end World.Alike
end LabExchange
