import LabExchange.Proofs.Hub.Alike

/-!
# Runs in lockstep

Machines that are alike make the same steps. The proof goes by the requests: each comes to the same
in worlds that are alike. So a run of one machine is matched, sign by sign, by a run of the other
one, and there is no other run that it could have.
-/
namespace LabExchange

variable {σ : Type} {c : Comparison}

/-! ## Requests -/

/-! ### The store and the files -/

theorem World.Alike.reply_snapshot {w w' : World σ} (hw : w.Alike c w') (patience i : Nat) :
    (w.reply c.first patience (.snapshot i)).Alike c Eq
      (w'.reply c.second patience (.snapshot i)) := by
  refine hw.withHub i rfl fun h h' hh => ?_
  obtain ⟨hsnapshot, hw'⟩ := hw.takeSnapshot hh
  exact .done (congrArg some hsnapshot.symm) hw'

theorem World.Alike.reply_save {w w' : World σ} (hw : w.Alike c w') (patience i : Nat) (path : String) :
    (w.reply c.first patience (.save i path)).Alike c Eq
      (w'.reply c.second patience (.save i path)) := by
  refine hw.withHub i rfl fun h h' hh => ?_
  obtain ⟨hresult, hw'⟩ := hw.save hh path
  exact .done (congrArg some hresult.symm) hw'

theorem World.Alike.reply_load {w w' : World σ} (hw : w.Alike c w') (patience i : Nat) {path : String}
    (hpath : ¬(Request.load i path).Brings c.hidden w) :
    (w.reply c.first patience (.load i path)).Alike c Eq
      (w'.reply c.second patience (.load i path)) := by
  refine hw.withHub i rfl fun h h' hh => ?_
  obtain ⟨hresult, hw'⟩ := hw.load i hh hpath
  exact .done (congrArg some hresult.symm) hw'

theorem World.Alike.reply_parse {w w' : World σ} (hw : w.Alike c w') (patience : Nat) (text : String) :
    (w.reply c.first patience (.parse text)).Alike c Eq
      (w'.reply c.second patience (.parse text)) := by
  simp only [World.reply]
  split
  · exact .done rfl hw
  · exact .done rfl (hw.addLog _)

theorem World.Alike.reply_handlerCount {w w' : World σ} (hw : w.Alike c w') (patience i : Nat)
    (kind : EventKind) :
    (w.reply c.first patience (.handlerCount i kind)).Alike c Eq
      (w'.reply c.second patience (.handlerCount i kind)) :=
  hw.withHub i rfl fun _ _ hh => .done (congrArg some (hh.handlersOf kind).length_eq) hw

theorem World.Alike.reply_handlerTotal {w w' : World σ} (hw : w.Alike c w') (patience i : Nat) :
    (w.reply c.first patience (.handlerTotal i)).Alike c Eq
      (w'.reply c.second patience (.handlerTotal i)) :=
  hw.withHub i rfl fun _ _ hh => .done (congrArg some hh.registrations.length_eq) hw

/-! ### Channels -/

theorem World.Alike.reply_openChannel {w w' : World σ} (hw : w.Alike c w') (patience i : Nat)
    (kind : EventKind) :
    (w.reply c.first patience (.openChannel i kind)).Alike c Eq
      (w'.reply c.second patience (.openChannel i kind)) := by
  refine hw.withHub i rfl fun h h' hh => ?_
  have hopened := hw.mapChannels (· ++ [⟨[], true⟩])
  rw [hw.channels] at hopened ⊢
  obtain ⟨hs, hw'⟩ := hopened.subscribe i kind (Handler.alike_forward w.channels.length)
  exact .done (congrArg (Option.map (·, w.channels.length)) hs.symm) hw'

theorem World.Alike.reply_receive {w w' : World σ} (hw : w.Alike c w') (patience channel : Nat) :
    (w.reply c.first patience (.receive channel)).Alike c Eq
      (w'.reply c.second patience (.receive channel)) := by
  have hwaiting := congrArg (fun l => (l[channel]?.map Channel.waiting).getD []) hw.channels.symm
  exact .done hwaiting (hw.mapChannels _)

theorem World.Alike.reply_closeChannel {w w' : World σ} (hw : w.Alike c w') (patience channel : Nat) :
    (w.reply c.first patience (.closeChannel channel)).Alike c Eq
      (w'.reply c.second patience (.closeChannel channel)) := by
  have hopen := congrArg (fun l => l[channel]?.any Channel.isOpen) hw.channels.symm
  exact .done hopen (hw.mapChannels _)

/-! ### Panels and handles -/

theorem World.Alike.reply_usePanel {w w' : World σ} (hw : w.Alike c w') (patience panel : Nat)
    (summary : EntrySummary) (target : String) :
    (w.reply c.first patience (.usePanel panel summary target)).Alike c Eq
      (w'.reply c.second patience (.usePanel panel summary target)) := by
  simp only [World.reply, hw.panels]
  cases w.panels[panel]? with
  | none => exact .done rfl hw
  | some p =>
    have hhub := hw.hub? p.hub
    simp only [Option.bind_some]
    generalize w.hub? p.hub = o at hhub ⊢
    generalize w'.hub? p.hub = o' at hhub ⊢
    cases hhub with
    | none => exact .done rfl hw
    | @some h h' hh =>
      have hreply := hw.storeReply p.hub hh
        (q := .requestUse summary.category.name summary.id target) id
      simp only [Option.map_some]
      generalize w.storeReply p.hub h _ = r at hreply ⊢
      generalize w'.storeReply p.hub h' _ = r' at hreply ⊢
      cases hreply with
      | done ha hw' => exact .done (congrArg (Option.getD · _) ha) hw'
      | raises hub event ha hw' =>
        exact .raises hub event (fun r r' hr => congrArg (Option.getD · _) (ha r r' hr)) hw'
      | panics message hw' => exact .panics message hw'
      | waiting => exact .waiting

theorem World.Alike.reply_detachPanel {w w' : World σ} (hw : w.Alike c w') (patience panel : Nat) :
    (w.reply c.first patience (.detachPanel panel)).Alike c Eq
      (w'.reply c.second patience (.detachPanel panel)) := by
  simp only [World.reply, hw.panels]
  split
  · exact .done rfl hw
  · exact .done rfl ((hw.unsubscribeAll _).addLog _)

theorem World.Alike.reply_attachPanel {w w' : World σ} (hw : w.Alike c w') (patience i : Nat) :
    (w.reply c.first patience (.attachPanel i)).Alike c Eq
      (w'.reply c.second patience (.attachPanel i)) := by
  refine hw.withHub i rfl fun h h' hh => ?_
  obtain ⟨hpanel, hw'⟩ := hw.attachPanel i hh
  exact .done (congrArg some hpanel.symm) hw'

theorem World.Alike.reply_acquire {w w' : World σ} (hw : w.Alike c w') (patience i : Nat) :
    (w.reply c.first patience (.acquire i)).Alike c Eq
      (w'.reply c.second patience (.acquire i)) := by
  have hhub := hw.hub? i
  simp only [World.reply]
  generalize w.hub? i = o at hhub ⊢
  generalize w'.hub? i = o' at hhub ⊢
  cases hhub with
  | none => exact .done rfl hw
  | some hh =>
    refine .done rfl (hw.setHub i ?_)
    exact { hh with handles := congrArg (· + 1) hh.handles }

theorem World.Alike.reply_release {w w' : World σ} (hw : w.Alike c w') (patience i : Nat) :
    (w.reply c.first patience (.release i)).Alike c Eq
      (w'.reply c.second patience (.release i)) := by
  have hhub := hw.hub? i
  simp only [World.reply]
  generalize w.hub? i = o at hhub ⊢
  generalize w'.hub? i = o' at hhub ⊢
  cases hhub with
  | none => exact .done rfl hw
  | some hh =>
    have hheld := congrArg (fun n => decide (0 < n)) hh.handles.symm
    refine .done hheld (hw.setHub i (Hub.Alike.settle ?_))
    exact { hh with handles := congrArg (· - 1) hh.handles }

theorem World.Alike.reply_isAlive {w w' : World σ} (hw : w.Alike c w') (patience i : Nat) :
    (w.reply c.first patience (.isAlive i)).Alike c Eq
      (w'.reply c.second patience (.isAlive i)) := by
  refine .done ?_ hw
  have hhub := hw.hub? i
  generalize w.hub? i = o at hhub ⊢
  generalize w'.hub? i = o' at hhub ⊢
  cases hhub <;> rfl

/-! ### All requests -/

/-- A request that brings no hidden id comes to the same in worlds that are alike. -/
theorem World.Alike.reply {w w' : World σ} (hw : w.Alike c w') (patience : Nat) {r : Request}
    (hr : ¬r.Brings c.hidden w) :
    (w.reply c.first patience r).Alike c (r.Likens c) (w'.reply c.second patience r) := by
  cases r with
  | store i q => exact hw.withHub i rfl fun h h' hh => hw.storeReply i hh hr
  | exportData i x => exact hw.withHub i rfl fun h h' hh => hw.exportReply patience i hh x
  | snapshot i => exact hw.reply_snapshot patience i
  | save i path => exact hw.reply_save patience i path
  | load i path => exact hw.reply_load patience i hr
  | parse text => exact hw.reply_parse patience text
  | emit i event =>
    exact hw.withHub i .none fun h h' hh => .raises i event (fun _ _ hreport => .some hreport) hw
  | handlerCount i kind => exact hw.reply_handlerCount patience i kind
  | handlerTotal i => exact hw.reply_handlerTotal patience i
  | unsubscribe s => exact .done (hw.unsubscribe s).1.symm (hw.unsubscribe s).2
  | openChannel i kind => exact hw.reply_openChannel patience i kind
  | send channel event => exact .done rfl (hw.mapChannels _)
  | receive channel => exact hw.reply_receive patience channel
  | closeChannel channel => exact hw.reply_closeChannel patience channel
  | attachPanel i => exact hw.reply_attachPanel patience i
  | readPanel i => exact .done (congrArg (fun l => l[i]?.map Panel.view) hw.panels.symm) hw
  | refreshPanel i => exact .done rfl (hw.reloadPanel i none)
  | followPanel i kind => exact .done rfl (hw.reloadPanel i (some kind))
  | usePanel panel summary target => exact hw.reply_usePanel patience panel summary target
  | detachPanel panel => exact hw.reply_detachPanel patience panel
  | acquire i => exact hw.reply_acquire patience i
  | release i => exact hw.reply_release patience i
  | isAlive i => exact hw.reply_isAlive patience i
  | inHandler => exact .done (congrArg (fun n => decide (0 < n)) hw.depth.symm) hw
  | fileText path =>
    exact .done (congrArg (fun f : Files => (f.read path).toOption) hw.files.symm) hw
  | putFile path text =>
    refine .done rfl ?_
    exact { hw with files := by rw [hw.files] }
  | makeDirectory path =>
    refine .done rfl ?_
    exact { hw with files := by rw [hw.files] }

/-! ## Machines -/

structure Dispatch.Alike (c : Comparison) (d d' : Dispatch σ) : Prop where
  hub : d'.hub = d.hub
  event : d'.event = d.event
  running : d'.running = d.running
  waiting : List.Forall₂ (Registration.Alike c) d.waiting d'.waiting
  report : c.reports d.report d'.report
  next : ∀ r r', c.reports r r' → (d.next r).Alike c (d'.next r')

structure Machine.Alike (c : Comparison) (m m' : Machine σ) : Prop where
  world : m.world.Alike c m'.world
  program : m.program.Alike c m'.program
  dispatches : List.Forall₂ (Dispatch.Alike c) m.dispatches m'.dispatches

/-- Two signs are the same as far as they are compared. -/
inductive Sign.Alike (c : Comparison) : Sign σ → Sign σ → Prop
  | asked {w w' : World σ} {r : Request} {reply reply' : Reply σ r.Answer} (hw : w.Alike c w')
      (hreply : reply.Alike c (r.Likens c) reply') :
      Alike c (.asked ⟨w, r, reply⟩) (.asked ⟨w', r, reply'⟩)
  | begun (level hub : Nat) (event : HubEvent) (handler : Nat) {p p' : Program σ}
      (hp : p.Alike c p') :
      Alike c (.begun level ⟨hub, event, handler, p⟩) (.begun level ⟨hub, event, handler, p'⟩)
  | ended (level handler : Nat) {o o' : Outcome} (ho : c.outcomes o o') :
      Alike c (.ended level handler o) (.ended level handler o')

/-- A moment of a run brings a hidden id back. -/
def Moment.Brings (hidden : EntryId → Prop) (a : Moment σ) : Prop :=
  a.request.Brings hidden a.before

namespace Machine

variable {m m' n n' : Machine σ} {t : List (Moment σ)}

theorem Alike.outer (hm : m.Alike c m') : m'.outer.length = m.outer.length := by
  have hlength := hm.dispatches.length_eq
  obtain ⟨w, p, ds⟩ := m
  obtain ⟨w', p', ds'⟩ := m'
  cases hm.program with
  | finish => simp only [Machine.outer, List.length_tail, hlength]
  | request | subscribe | «recall» | remember => exact hlength.symm

theorem Alike.endings (hm : m.Alike c m') :
    List.Forall₂ (Sign.Alike c) m.endings m'.endings := by
  obtain ⟨w, p, ds⟩ := m
  obtain ⟨w', p', ds'⟩ := m'
  obtain ⟨-, hp, hds⟩ := hm
  cases hp with
  | request | subscribe | «recall» | remember => exact .nil
  | finish ho =>
    cases hds with
    | nil => exact .nil
    | cons hd hds =>
      simp only [Machine.endings, hd.running, hds.length_eq]
      exact .cons (.ended _ _ ho) .nil

theorem Alike.beginnings (hm : m.Alike c m') (hn : n.Alike c n') :
    List.Forall₂ (Sign.Alike c) (m.beginnings n) (m'.beginnings n') := by
  obtain ⟨w, p, ds⟩ := n
  obtain ⟨w', p', ds'⟩ := n'
  obtain ⟨-, hp, hds⟩ := hn
  cases hds with
  | nil => exact .nil
  | cons hd hds =>
    simp only [Machine.beginnings, hm.outer, hds.length_eq, hd.hub, hd.event, hd.running]
    split
    · exact .cons (.begun _ _ _ _ hp) .nil
    · exact .nil

theorem alike_deliver (hub : Nat) (event : HubEvent) {next next' : DispatchReport → Program σ}
    (hnext : ∀ r r', c.reports r r' → (next r).Alike c (next' r')) {ds ds' : List (Dispatch σ)}
    (hds : List.Forall₂ (Dispatch.Alike c) ds ds') {handlers handlers' : List (Registration σ)}
    (hhandlers : List.Forall₂ (Registration.Alike c) handlers handlers')
    {report report' : DispatchReport} (hreport : c.reports report report') {w w' : World σ}
    (hw : w.Alike c w') :
    (deliver hub event next ds handlers report w).Alike c
      (deliver hub event next' ds' handlers' report' w') := by
  cases hhandlers with
  | nil => exact ⟨hw.endDispatch hub, hnext _ _ hreport, hds⟩
  | cons hr hrest =>
    refine ⟨?_, hr.handler event, .cons ⟨rfl, rfl, hr.id, hrest, hreport, hnext⟩ hds⟩
    exact { hw with depth := congrArg (· + 1) hw.depth }

theorem alike_dispatch (hub : Nat) (event : HubEvent) {next next' : DispatchReport → Program σ}
    (hnext : ∀ r r', c.reports r r' → (next r).Alike c (next' r')) {ds ds' : List (Dispatch σ)}
    (hds : List.Forall₂ (Dispatch.Alike c) ds ds') {w w' : World σ} (hw : w.Alike c w') :
    (dispatch hub event next ds w).Alike c (dispatch hub event next' ds' w') := by
  have hhandlers : List.Forall₂ (Registration.Alike c)
      (((w.hub? hub).map (·.handlersOf event.kind)).getD [])
      (((w'.hub? hub).map (·.handlersOf event.kind)).getD []) := by
    have hhub := hw.hub? hub
    generalize w.hub? hub = o at hhub ⊢
    generalize w'.hub? hub = o' at hhub ⊢
    cases hhub with
    | none => exact .nil
    | some hh => exact hh.handlersOf _
  refine alike_deliver hub event hnext hds hhandlers c.empty ?_
  rw [hhandlers.length_eq]
  exact (hw.beginDispatch hub).addLog _

theorem alike_afterHandler {d d' : Dispatch σ} (hd : d.Alike c d') {ds ds' : List (Dispatch σ)}
    (hds : List.Forall₂ (Dispatch.Alike c) ds ds') {o o' : Outcome} (ho : c.outcomes o o')
    {w w' : World σ} (hw : w.Alike c w') :
    (afterHandler d ds o w).Alike c (afterHandler d' ds' o' w') := by
  simp only [afterHandler, hd.hub, hd.event, hd.running]
  refine alike_deliver _ _ hd.next hds hd.waiting (c.count hd.report ho)
    (World.Alike.addLines ?_ ?_)
  · exact { hw with depth := congrArg (· - 1) hw.depth }
  · exact c.warning d.running d.event.kind ho

/-- When a machine makes a request, one that is like it makes the same, and it comes to the same. -/
theorem Alike.asks {w : World σ} {r : Request} {next : r.Answer → Program σ}
    {ds : List (Dispatch σ)} (hm : (⟨w, .request r next, ds⟩ : Machine σ).Alike c m')
    (hr : ¬r.Brings c.hidden w) (patience : Nat) :
    ∃ w' next' ds', m' = ⟨w', .request r next', ds'⟩ ∧ w.Alike c w' ∧
      (∀ a a', r.Likens c a a' → (next a).Alike c (next' a')) ∧
      List.Forall₂ (Dispatch.Alike c) ds ds' ∧
      (w.reply c.first patience r).Alike c (r.Likens c) (w'.reply c.second patience r) := by
  obtain ⟨w', p', ds'⟩ := m'
  obtain ⟨hw, hp, hds⟩ := hm
  cases hp with
  | request r hnext => exact ⟨w', _, ds', rfl, hw, hnext, hds, hw.reply patience hr⟩

/-- A step of a machine is one of a machine that is like it. -/
theorem Step.alike (h : Step c.first m t n) (hm : m.Alike c m')
    (ht : ∀ a ∈ t, ¬a.Brings c.hidden) :
    ∃ t' n', Step c.second m' t' n' ∧ n.Alike c n' ∧
      List.Forall₂ (Sign.Alike c) (m.signs t n) (m'.signs t' n') := by
  -- what is left to show when the step and the machines after it are known
  have hmatch : ∀ {t' n'}, Step c.second m' t' n' → n.Alike c n' →
      List.Forall₂ (Sign.Alike c) (t.map .asked) (t'.map .asked) →
      ∃ t' n', Step c.second m' t' n' ∧ n.Alike c n' ∧
        List.Forall₂ (Sign.Alike c) (m.signs t n) (m'.signs t' n') :=
    fun hstep hn hasked => ⟨_, _, hstep, hn,
      List.rel_append (List.rel_append hm.endings hasked) (hm.beginnings hn)⟩
  cases h with
  | @answered w w₁ ds r next answer patience hreply =>
    obtain ⟨w', next', ds', rfl, hw, hnext, hds, halike⟩ :=
      hm.asks (ht _ (List.mem_singleton_self _)) patience
    rw [hreply] at halike
    generalize hreply' : w'.reply c.second patience r = reply' at halike
    cases halike with
    | done ha hw₁ =>
      exact hmatch (.answered patience hreply') ⟨hw₁, hnext _ _ ha, hds⟩
        (.cons (.asked hw (.done ha hw₁)) .nil)
  | @raised w w₁ ds r next hub event answer patience hreply =>
    obtain ⟨w', next', ds', rfl, hw, hnext, hds, halike⟩ :=
      hm.asks (ht _ (List.mem_singleton_self _)) patience
    rw [hreply] at halike
    generalize hreply' : w'.reply c.second patience r = reply' at halike
    cases halike with
    | raises hub event ha hw₁ =>
      refine hmatch (.raised patience hreply') ?_ (.cons (.asked hw (.raises _ _ ha hw₁)) .nil)
      exact alike_dispatch hub event (fun r r' hr => hnext _ _ (ha r r' hr)) hds hw₁
  | @panicked w w₁ ds r next message patience hreply =>
    obtain ⟨w', next', ds', rfl, hw, -, hds, halike⟩ :=
      hm.asks (ht _ (List.mem_singleton_self _)) patience
    rw [hreply] at halike
    generalize hreply' : w'.reply c.second patience r = reply' at halike
    cases halike with
    | panics message hw₁ =>
      exact hmatch (.panicked patience hreply') ⟨hw₁, .finish (c.same _), hds⟩
        (.cons (.asked hw (.panics message hw₁)) .nil)
  | subscribed w ds hub kind handler next =>
    obtain ⟨w', p', ds'⟩ := m'
    obtain ⟨hw, hp, hds⟩ := hm
    cases hp with
    | subscribe hub kind hhandler hnext =>
      obtain ⟨hs, hw₁⟩ := hw.subscribe hub kind hhandler
      refine hmatch (.subscribed w' ds' hub kind _ _) ⟨hw₁, ?_, hds⟩ .nil
      rw [hs]
      exact hnext _
  | recalled w ds next =>
    obtain ⟨w', p', ds'⟩ := m'
    obtain ⟨hw, hp, hds⟩ := hm
    cases hp with
    | «recall» hnext =>
      refine hmatch (.recalled w' ds' _) ⟨hw, ?_, hds⟩ .nil
      rw [hw.memory]
      exact hnext _
  | remembered w ds change next =>
    obtain ⟨w', p', ds'⟩ := m'
    obtain ⟨hw, hp, hds⟩ := hm
    cases hp with
    | remember change hnext =>
      refine hmatch (.remembered w' ds' change _) ⟨?_, hnext, hds⟩ .nil
      exact { hw with memory := congrArg change hw.memory }
  | handled w d ds o =>
    obtain ⟨w', p', ds'⟩ := m'
    obtain ⟨hw, hp, hds⟩ := hm
    cases hp with
    | finish ho =>
      cases hds with
      | cons hd hds => exact hmatch (.handled w' _ _ _) (alike_afterHandler hd hds ho hw) .nil

/-- A run of a machine is one of a machine that is like it. -/
theorem Passes.alike {floor : Nat} {s : List (Sign σ)} (h : Passes c.first floor m s n)
    (hm : m.Alike c m') (hs : ∀ a ∈ Sign.moments s, ¬a.Brings c.hidden) :
    ∃ s' n', Passes c.second floor m' s' n' ∧ n.Alike c n' ∧
      List.Forall₂ (Sign.Alike c) s s' := by
  induction h generalizing m' with
  | refl m => exact ⟨[], m', .refl m', hm, .nil⟩
  | step h hfloor rest ih =>
    rw [Sign.moments_append, moments_signs, List.forall_mem_append] at hs
    obtain ⟨t', n', hstep, hn, hsigns⟩ := h.alike hm hs.1
    obtain ⟨s', n'', hpasses, hlast, hlater⟩ := ih hn hs.2
    exact ⟨_, n'', .step hstep (hm.dispatches.length_eq ▸ hfloor) hpasses, hlast,
      List.rel_append hsigns hlater⟩

/-! ## The other way round -/

end Machine

/-- The same comparison with the runs exchanged. -/
def Comparison.flip (c : Comparison) : Comparison where
  first := c.second
  second := c.first
  outcomes o o' := c.outcomes o' o
  reports r r' := c.reports r' r
  compares := c.compares
  hidden := c.hidden
  same := c.same
  empty := c.empty
  count hr ho := c.count hr ho
  warning id kind ho := (c.warning id kind ho).symm

theorem Request.Likens.flip {r : Request} {a a' : r.Answer} (h : r.Likens c.flip a a') :
    r.Likens c a' a := by
  cases r with
  | emit =>
    cases h with
    | some hreport => exact .some hreport
    | none => exact .none
  | _ => exact Eq.symm h

theorem Program.Alike.flip {p p' : Program σ} (h : p.Alike c p') : p'.Alike c.flip p := by
  induction h with
  | finish ho => exact .finish ho
  | request r _ ih => exact .request r fun a a' ha => ih a' a ha.flip
  | subscribe hub kind _ _ ihhandler ih => exact .subscribe hub kind ihhandler ih
  | «recall» _ ih => exact .recall ih
  | remember change _ ih => exact .remember change ih

theorem forall₂_flip {α : Type} {R S : α → α → Prop} (hR : ∀ a a', R a a' → S a' a)
    {l l' : List α} (h : List.Forall₂ R l l') : List.Forall₂ S l' l :=
  List.Forall₂.flip (h.imp hR)

theorem Registration.Alike.flip {r r' : Registration σ} (h : r.Alike c r') : r'.Alike c.flip r :=
  ⟨h.id.symm, h.kind.symm, fun event => (h.handler event).flip⟩

theorem Hub.Alike.flip {h h' : Hub σ} (hh : h.Alike c h') : h'.Alike c.flip h where
  handles := hh.handles.symm
  dispatches := hh.dispatches.symm
  store := hh.store.symm
  nextHandler := hh.nextHandler.symm
  registrations := forall₂_flip (fun _ _ hr => hr.flip) hh.registrations

theorem World.Alike.flip {w w' : World σ} (hw : w.Alike c w') : w'.Alike c.flip w where
  hubs := forall₂_flip (fun _ _ hh => hh.flip) hw.hubs
  channels := hw.channels.symm
  panels := hw.panels.symm
  files := hw.files.symm
  log := hw.log.symm
  depth := hw.depth.symm
  memory := hw.memory.symm
  ids k := by
    obtain ⟨hsame, hshown⟩ := hw.ids k
    exact ⟨hsame.symm, hsame ▸ hshown⟩
  times k := (hw.times k).symm

theorem Dispatch.Alike.flip {d d' : Dispatch σ} (hd : d.Alike c d') : d'.Alike c.flip d where
  hub := hd.hub.symm
  event := hd.event.symm
  running := hd.running.symm
  waiting := forall₂_flip (fun _ _ hr => hr.flip) hd.waiting
  report := hd.report
  next r r' hr := (hd.next r' r hr).flip

namespace Machine

variable {m m' n n' : Machine σ}

theorem Alike.flip (hm : m.Alike c m') : m'.Alike c.flip m :=
  ⟨hm.world.flip, hm.program.flip, forall₂_flip (fun _ _ hd => hd.flip) hm.dispatches⟩

/-- Whatever is seen of one machine is seen of the other one, as long as no hidden id comes back. -/
def Matches (c : Comparison) (m m' : Machine σ) : Prop :=
  (∀ s n, Passes c.first 0 m s n → (∀ a ∈ Sign.moments s, ¬a.Brings c.hidden) →
    ∃ s' n', Passes c.second 0 m' s' n' ∧ n.Alike c n' ∧ List.Forall₂ (Sign.Alike c) s s') ∧
  ∀ s' n', Passes c.second 0 m' s' n' → (∀ a ∈ Sign.moments s', ¬a.Brings c.hidden) →
    ∃ s n, Passes c.first 0 m s n ∧ n'.Alike c.flip n ∧ List.Forall₂ (Sign.Alike c.flip) s' s

theorem Alike.matches (hm : m.Alike c m') : m.Matches c m' :=
  ⟨fun _ _ h hs => h.alike hm hs, fun _ _ h hs => Passes.alike (c := c.flip) h hm.flip hs⟩

/-! ## Runs that are over -/

theorem Alike.isOver (hm : m.Alike c m') (h : m.IsOver) : m'.IsOver := by
  obtain ⟨o, w, rfl⟩ := h
  obtain ⟨w', p', ds'⟩ := m'
  obtain ⟨-, hp, hds⟩ := hm
  cases hp with
  | finish ho =>
    cases hds
    exact ⟨_, w', rfl⟩

/-- A run that is over is like the only one of a machine that is like its machine. -/
theorem Passes.alike_of_isOver {floor : Nat} {s s' : List (Sign σ)}
    (h : Passes c.first floor m s n) (hn : n.IsOver) (hm : m.Alike c m')
    (hs : ∀ a ∈ Sign.moments s, ¬a.Brings c.hidden) (h' : Passes c.second floor m' s' n')
    (hn' : n'.IsOver) : n.Alike c n' ∧ List.Forall₂ (Sign.Alike c) s s' := by
  obtain ⟨s₁, n₁, hpasses, hlast, hsigns⟩ := h.alike hm hs
  obtain ⟨rfl, rfl⟩ := hpasses.unique (hlast.isOver hn) h' hn'
  exact ⟨hlast, hsigns⟩

end Machine
end LabExchange
