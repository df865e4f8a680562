import LabExchange.Proofs.Hub.Ledger

/-!
# Runs with their ledgers

Which acts a request comes to, and which a step. Everything else that is asked of a world leaves the
handlers of its hubs and the handles of its panels alone. So the ledger of a run, act by act, says
what has become of them.
-/
namespace LabExchange

variable {σ : Type}

/-! ## Requests -/

namespace World

variable {w w' : World σ} {hub : Nat} {supply : Supply} {patience : Nat}

theorem quiet_withHub {α : Type} {i : Nat} {f : Hub σ → Reply σ (Option α)}
    (hf : ∀ h, w.hub? i = some h → Balances hub [] w ((f h).world w)) :
    Balances hub [] w ((w.withHub i f).world w) := by
  rcases withHub_cases w i f with ⟨-, heq⟩ | ⟨h, hhub, heq⟩
  · rw [heq]
    exact .of_eq rfl rfl
  · rw [heq]
    exact hf h hhub

theorem quiet_reloadPanel (w : World σ) (panel : Nat) (kind? : Option EventKind) :
    Balances hub [] w (w.reloadPanel panel kind?) := by
  refine .of_eq ?_ (places_reloadPanel w panel kind?)
  unfold reloadPanel
  split
  · rfl
  · split <;> rfl

theorem quiet_storeReply {i : Nat} {h : Hub σ} (hhub : w.hub? i = some h) (q : StoreRequest) :
    Balances hub [] w ((w.storeReply i h q).world w) := by
  have hafter : Balances hub [] w (w.afterRequest i h q) :=
    (Balances.setStore hhub _).trans_quiet (.of_eq rfl rfl)
  have hreply := ofRequest_storeReply w i h q
  generalize w.storeReply i h q = reply at hreply ⊢
  cases hreply <;> exact hafter

theorem quiet_exportReply {i : Nat} {h : Hub σ} (hhub : w.hub? i = some h) (x : Store.Export) :
    Balances hub [] w ((w.exportReply supply patience i h x).world w) := by
  have hreply := ofExport_exportReply supply patience w i h x
  generalize w.exportReply supply patience i h x = reply at hreply ⊢
  cases hreply with
  | waiting | refused => exact .of_eq rfl rfl
  | exhausted | stored => exact (Balances.setStore hhub _).trans_quiet (.of_eq rfl rfl)

theorem quiet_load {i : Nat} {h : Hub σ} (hhub : w.hub? i = some h) (path : String) :
    Balances hub [] w (w.load i h path).2 := by
  unfold load
  split
  · exact .of_eq rfl rfl
  · exact (Balances.setStore hhub _).trans_quiet (.of_eq rfl rfl)

theorem quiet_save (supply : Supply) (w : World σ) (h : Hub σ) (path : String) :
    Balances hub [] w (w.save supply h path).2 := by
  unfold save
  dsimp only
  split <;> exact .of_eq rfl rfl

end World

/-- The acts of a request that comes to a reply. -/
def Request.acts (w : World σ) : (r : Request) → Reply σ r.Answer → List (Act σ)
  | .unsubscribe s, .done answer _ => [.unsubscribed s answer]
  | .openChannel _ _, .done (some (s, channel)) _ => [.subscribed s (.forward channel)]
  | .attachPanel _, .done (some panel) w' =>
    (w'.handles? panel).toList.map (.attached panel)
  | .detachPanel panel, .done _ _ => (w.handles? panel).toList.map (.detached panel)
  | _, _ => []

theorem Request.length_acts_le (w : World σ) (r : Request) (reply : Reply σ r.Answer) :
    (r.acts w reply).length ≤ 1 := by
  unfold acts
  split
  · exact Nat.le_refl 1
  · exact Nat.le_refl 1
  · rw [List.length_map]
    exact Option.length_toList_le
  · rw [List.length_map]
    exact Option.length_toList_le
  · exact Nat.zero_le 1

namespace World

variable {hub : Nat} {supply : Supply} {patience : Nat}

theorem reply_openChannel {w : World σ} {i : Nat} {h : Hub σ} (hhub : w.hub? i = some h)
    (kind : EventKind) :
    w.reply supply patience (.openChannel i kind) =
      .done (some (⟨i, h.nextHandler, kind⟩, w.channels.length))
        (subscribe { w with channels := w.channels ++ [⟨[], true⟩] } i kind
          (.forward w.channels.length)).2 := by
  let w₁ : World σ := { w with channels := w.channels ++ [⟨[], true⟩] }
  have hhub₁ : w₁.hub? i = some h := hhub
  have hs := (subscribe_eq hhub₁ kind (.forward w.channels.length)).1
  have hreply : w.reply supply patience (.openChannel i kind) =
      .done ((w₁.subscribe i kind (.forward w.channels.length)).1.map (·, w.channels.length))
        (w₁.subscribe i kind (.forward w.channels.length)).2 := withHub_of_hub? hhub _
  rw [hreply, hs]
  rfl

theorem reply_attachPanel {w : World σ} {i : Nat} {h : Hub σ} (hhub : w.hub? i = some h) :
    w.reply supply patience (.attachPanel i) =
      .done (some w.panels.length) (w.attachPanel i h).2 := by
  have hreply : w.reply supply patience (.attachPanel i) =
      .done (some (w.attachPanel i h).1) (w.attachPanel i h).2 := withHub_of_hub? hhub _
  rw [hreply, (attachPanel_eq hhub).1]

theorem handles?_attachPanel {w : World σ} {i : Nat} {h : Hub σ} (hhub : w.hub? i = some h) :
    (w.attachPanel i h).2.handles? w.panels.length =
      some (Subscription.ofPanel i h.nextHandler) := by
  have hbalances : w.Balances i _ _ := .attachPanel hhub
  exact (hbalances.attached _ _).mpr (.inr (List.mem_singleton_self _))

theorem balances_openChannel (w : World σ) (i : Nat) (kind : EventKind) :
    w.Balances hub
      (Request.acts w (.openChannel i kind) (w.reply supply patience (.openChannel i kind)))
      ((w.reply supply patience (.openChannel i kind)).world w) := by
  cases hhub : w.hub? i with
  | none =>
    rw [reply, withHub, hhub]
    exact .of_eq rfl rfl
  | some h =>
    rw [reply_openChannel hhub]
    let w₁ : World σ := { w with channels := w.channels ++ [⟨[], true⟩] }
    have hhub₁ : w₁.hub? i = some h := hhub
    have hquiet : w.Balances hub [] w₁ := .of_eq rfl rfl
    have hbalances : w₁.Balances hub _ _ := .subscribe w₁ i kind (.forward w.channels.length)
    rw [(subscribe_eq hhub₁ kind (.forward w.channels.length)).1] at hbalances
    exact hquiet.quiet_trans hbalances

theorem balances_attachPanel (w : World σ) (i : Nat) :
    w.Balances hub (Request.acts w (.attachPanel i) (w.reply supply patience (.attachPanel i)))
      ((w.reply supply patience (.attachPanel i)).world w) := by
  cases hhub : w.hub? i with
  | none =>
    rw [reply, withHub, hhub]
    exact .of_eq rfl rfl
  | some h =>
    have hbalances : w.Balances hub _ _ := .attachPanel hhub
    rw [reply_attachPanel hhub]
    simp only [Request.acts, handles?_attachPanel hhub]
    exact hbalances

theorem balances_detachPanel (w : World σ) (panel : Nat) :
    w.Balances hub
      (Request.acts w (.detachPanel panel) (w.reply supply patience (.detachPanel panel)))
      ((w.reply supply patience (.detachPanel panel)).world w) := by
  rw [reply]
  cases hpanel : w.panels[panel]? with
  | none =>
    have hhandles : w.handles? panel = none := by
      rw [handles?, places, List.getElem?_map, hpanel]
      rfl
    simp only [Request.acts, hhandles]
    exact .of_eq rfl rfl
  | some p =>
    have hhandles : w.handles? panel = some p.subscriptions := by
      rw [handles?, places_getElem? hpanel]
      rfl
    have hbalances : w.Balances hub _ _ := .detachPanel w hpanel
    simp only [Request.acts, hhandles]
    exact hbalances.trans_quiet (.of_eq rfl rfl)

end World

namespace Moment

def acts (m : Moment σ) : List (Act σ) := m.request.acts m.before m.reply

theorem IsReply.balances {supply : Supply} {m : Moment σ} (h : m.IsReply supply) (hub : Nat) :
    m.before.Balances hub m.acts m.after := by
  obtain ⟨w, r, reply⟩ := m
  obtain ⟨patience, rfl⟩ : ∃ patience, w.reply supply patience r = reply := h
  change w.Balances hub (r.acts w (w.reply supply patience r))
    ((w.reply supply patience r).world w)
  cases r with
  | store i q => exact World.quiet_withHub fun h hhub => World.quiet_storeReply hhub q
  | exportData i x => exact World.quiet_withHub fun h hhub => World.quiet_exportReply hhub x
  | load i path => exact World.quiet_withHub fun h hhub => World.quiet_load hhub path
  | save i path => exact World.quiet_withHub fun h hhub => World.quiet_save supply w h path
  | snapshot i | emit i event | handlerCount i kind | handlerTotal i =>
    exact World.quiet_withHub fun h hhub => World.Balances.of_eq rfl rfl
  | unsubscribe s => exact World.Balances.unsubscribe w s _
  | openChannel i kind => exact World.balances_openChannel w i kind
  | attachPanel i => exact World.balances_attachPanel w i
  | detachPanel panel => exact World.balances_detachPanel w panel
  | refreshPanel panel => exact World.quiet_reloadPanel w panel none
  | followPanel panel kind => exact World.quiet_reloadPanel w panel (some kind)
  | usePanel panel summary target =>
    rcases World.world_usePanel supply patience w panel summary target with
      heq | ⟨i, h, hhub, heq⟩
    · rw [heq]
      exact .of_eq rfl rfl
    · rw [heq]
      exact World.quiet_storeReply hhub _
  | parse text =>
    rw [World.reply]
    split <;> exact World.Balances.of_eq rfl rfl
  | acquire i =>
    rw [World.reply]
    cases hhub : w.hub? i with
    | none => exact .of_eq rfl rfl
    | some h => exact World.Balances.setHub hhub fun _ => .of_eq rfl rfl
  | release i =>
    rw [World.reply]
    cases hhub : w.hub? i with
    | none => exact .of_eq rfl rfl
    | some h =>
      refine World.Balances.setHub hhub fun halive => ?_
      rw [(Hub.settle_of_isAlive halive).2]
      exact .of_eq rfl rfl
  | send | receive | closeChannel | readPanel | isAlive | inHandler | fileText | putFile
  | makeDirectory => exact World.Balances.of_eq rfl rfl

/-- A handle is given back with the answer that its world has for it. -/
theorem IsReply.unsubscribed {supply : Supply} {m : Moment σ} (h : m.IsReply supply)
    {s : Subscription} {answer : Bool} (hact : .unsubscribed s answer ∈ m.acts) :
    (m.before.unsubscribe s).1 = answer := by
  obtain ⟨w, r, reply⟩ := m
  obtain ⟨patience, hreply⟩ := h
  simp only [acts, Request.acts] at hact
  split at hact
  · obtain ⟨rfl, rfl⟩ := Act.unsubscribed.inj (List.mem_singleton.mp hact)
    exact (Reply.done.inj hreply).1
  · simp at hact
  · simp at hact
  · simp at hact
  · exact absurd hact List.not_mem_nil

end Moment

/-! ## Steps -/

namespace World

variable {w : World σ} {hub : Nat}

theorem quiet_beginDispatch {i : Nat} (hi : (w.hub? i).isSome) :
    Balances hub [] w (w.beginDispatch i) := by
  obtain ⟨h, hhub⟩ := Option.isSome_iff_exists.mp hi
  obtain ⟨hget, halive⟩ := hub?_eq_some.mp hhub
  refine .quiet rfl (OnHub.modify (fun g hg _ => ?_) fun _ _ => .of_eq rfl rfl)
  obtain rfl : g = h := Option.some.inj (hg.symm.trans hget)
  exact ⟨halive, fun _ => .of_eq rfl rfl⟩

theorem quiet_endDispatch (w : World σ) (i : Nat) : Balances hub [] w (w.endDispatch i) := by
  refine .quiet rfl (OnHub.modify (fun h _ halive => ?_) fun _ _ => .of_eq rfl rfl)
  obtain ⟨hlive, hsettle⟩ := Hub.settle_of_isAlive halive
  rw [hsettle]
  refine ⟨?_, fun _ => .of_eq rfl rfl⟩
  simp only [Hub.isAlive, Bool.or_eq_true, decide_eq_true_eq] at hlive ⊢
  omega

end World

namespace Machine

variable {supply : Supply} {m m' m'' : Machine σ} {t : List (Moment σ)} {hub : Nat}

/-- The acts of a step. -/
def acts (m : Machine σ) (t : List (Moment σ)) : List (Act σ) :=
  match m.program with
  | .subscribe hub kind handler _ =>
    (m.world.subscribe hub kind handler).1.toList.map (Act.subscribed · handler)
  | _ => t.flatMap Moment.acts

theorem quiet_deliver (i : Nat) (event : HubEvent) (next : DispatchReport → Program σ)
    (ds : List (Dispatch σ)) (handlers : List (Registration σ)) (report : DispatchReport)
    (w : World σ) : w.Balances hub [] (deliver i event next ds handlers report w).world := by
  cases handlers with
  | nil => exact World.quiet_endDispatch w i
  | cons r rest => exact .of_eq rfl rfl

theorem quiet_dispatch {w : World σ} {i : Nat} (hi : (w.hub? i).isSome) (event : HubEvent)
    (next : DispatchReport → Program σ) (ds : List (Dispatch σ)) :
    w.Balances hub [] (dispatch i event next ds w).world := by
  refine (World.quiet_beginDispatch hi).trans_quiet ?_
  refine World.Balances.trans_quiet ?_ (quiet_deliver i event next ds _ _ _)
  exact .of_eq rfl rfl

/-- The handlers of a hub and the handles of the panels change in a step by its acts. -/
theorem Step.balances (h : Step supply m t m') (hub : Nat) :
    m.world.Balances hub (m.acts t) m'.world := by
  cases h with
  | answered patience hreply | panicked patience hreply =>
    rw [acts, List.flatMap_singleton]
    exact Moment.IsReply.balances ⟨patience, hreply⟩ hub
  | @raised w w' ds r next i event answer patience hreply =>
    rw [acts, List.flatMap_singleton]
    have halive := (World.follows_reply hub supply patience w r).alive hreply
    have hmoment : Moment.IsReply supply ⟨w, r, .raises i event answer w'⟩ := ⟨patience, hreply⟩
    exact (hmoment.balances hub).trans_quiet (quiet_dispatch halive event _ ds)
  | subscribed w ds i kind handler next => exact World.Balances.subscribe w i kind handler
  | recalled w ds next | remembered w ds change next => exact .of_eq rfl rfl
  | handled w d ds o =>
    refine World.Balances.trans_quiet ?_ (quiet_deliver d.hub d.event d.next ds d.waiting _ _)
    exact .of_eq rfl rfl

/-- There is one act at most in a step. -/
theorem Step.length_acts_le (h : Step supply m t m') : (m.acts t).length ≤ 1 := by
  cases h with
  | answered | raised | panicked =>
    rw [acts, List.flatMap_singleton]
    exact Request.length_acts_le _ _ _
  | subscribed =>
    rw [acts, List.length_map]
    exact Option.length_toList_le
  | recalled | remembered | handled => exact Nat.zero_le 1

/-- A step that gives a handle back answers as its world does. -/
theorem Step.unsubscribed (h : Step supply m t m') {s : Subscription} {answer : Bool}
    (hact : .unsubscribed s answer ∈ m.acts t) : (m.world.unsubscribe s).1 = answer := by
  cases h with
  | answered patience hreply | raised patience hreply | panicked patience hreply =>
    rw [acts, List.flatMap_singleton] at hact
    exact Moment.IsReply.unsubscribed ⟨patience, hreply⟩ hact
  | subscribed => simp [acts] at hact
  | recalled | remembered | handled => exact absurd hact List.not_mem_nil

/-! ## Runs -/

/-- A run with its ledger. -/
inductive Books (supply : Supply) : Machine σ → List (Act σ) → Machine σ → Prop
  | refl (m : Machine σ) : Books supply m [] m
  | step {m m' m'' : Machine σ} {t : List (Moment σ)} {ledger : List (Act σ)}
      (h : Step supply m t m') (rest : Books supply m' ledger m'') :
      Books supply m (m.acts t ++ ledger) m''

variable {ledger : List (Act σ)}

theorem Runs.exists_books (h : Runs supply m t m') : ∃ ledger, Books supply m ledger m' := by
  induction h with
  | refl m => exact ⟨[], .refl m⟩
  | step h rest ih =>
    obtain ⟨ledger, hrest⟩ := ih
    exact ⟨_, .step h hrest⟩

theorem Books.exists_runs (h : Books supply m ledger m') : ∃ t, Runs supply m t m' := by
  induction h with
  | refl m => exact ⟨[], .refl m⟩
  | step h rest ih =>
    obtain ⟨t, hrest⟩ := ih
    exact ⟨_, .step h hrest⟩

/-- A run with some act in its ledger comes to it, makes its step, and goes on. -/
theorem Books.split {pre post : List (Act σ)} {a : Act σ}
    (h : Books supply m (pre ++ a :: post) m') :
    ∃ m₁ t m₂, Books supply m pre m₁ ∧ Step supply m₁ t m₂ ∧ m₁.acts t = [a] ∧
      Books supply m₂ post m' := by
  generalize hledger : pre ++ a :: post = ledger at h
  induction h generalizing pre with
  | refl m => exact absurd hledger (by simp)
  | @step m m' m'' t later h rest ih =>
    rcases Nat.le_one_iff_eq_zero_or_eq_one.mp h.length_acts_le with hzero | hsingle
    · have hnone := List.eq_nil_of_length_eq_zero hzero
      rw [hnone, List.nil_append] at hledger
      obtain ⟨m₁, t₁, m₂, hpre, hrest⟩ := ih hledger
      have hbooks := Books.step h hpre
      rw [hnone, List.nil_append] at hbooks
      exact ⟨m₁, t₁, m₂, hbooks, hrest⟩
    · obtain ⟨b, hone⟩ := List.length_eq_one_iff.mp hsingle
      rw [hone] at hledger
      cases pre with
      | nil =>
        obtain ⟨rfl, rfl⟩ := List.cons.inj hledger
        exact ⟨m, t, m', .refl m, h, hone, rest⟩
      | cons c pre =>
        obtain ⟨rfl, htail⟩ := List.cons.inj hledger
        obtain ⟨m₁, t₁, m₂, hpre, hrest⟩ := ih htail
        have hbooks := Books.step h hpre
        rw [hone] at hbooks
        exact ⟨m₁, t₁, m₂, hbooks, hrest⟩

/-- A hub that is alive after a run was alive before it. -/
theorem Books.alive (h : Books supply m ledger m') (hhub : (m'.world.hub? hub).isSome) :
    (m.world.hub? hub).isSome := by
  induction h with
  | refl m => exact hhub
  | step h rest ih =>
    obtain ⟨g', hg'⟩ := Option.isSome_iff_exists.mp (ih hhub)
    obtain ⟨g, hg, -⟩ := (h.balances hub).onHub g' hg'
    exact Option.isSome_iff_exists.mpr ⟨g, hg⟩

end Machine

end LabExchange
