import LabExchange.Proofs.Hub.Bookkeeping
import LabExchange.Proofs.Hub.History

/-!
# Handlers accounted for

A handle cannot be made up and is used up when it is given back. Programs that keep to this find the
handlers of a hub that is alive as the ledger has them, whatever is done from the middle of nested
dispatches: those that have been entered and not been struck off, in the order of their entries.
The numbers carry it, since no two handlers of a hub ever have the same one.
-/
namespace LabExchange

variable {σ : Type}

namespace Act

/-- The handlers of a hub whose handles have been given out and not been given back. -/
def standing (hub : Nat) (ledger : List (Act σ)) : List (Registration σ) :=
  ((ledger.flatMap given).filter fun x =>
    x.1.hub == hub && decide (x.1 ∉ ledger.flatMap returned)).map .ofHandle

/-- A handle that a program has been given and has not given back. The handles of the panels are
not for programs. -/
def IsHeld (ledger : List (Act σ)) (s : Subscription) : Prop :=
  (∃ handler, .subscribed s handler ∈ ledger) ∧ ∀ answer, .unsubscribed s answer ∉ ledger

/-- Programs give back only the handles that they hold. -/
def HandlesOwned (ledger : List (Act σ)) : Prop :=
  ∀ pre s answer post, ledger = pre ++ .unsubscribed s answer :: post → IsHeld pre s

/-- A panel is detached with the handles with which it has been attached. -/
def PanelsKept (ledger : List (Act σ)) : Prop :=
  ∀ panel handles, .detached panel handles ∈ ledger → .attached panel handles ∈ ledger

/-- Whatever has been given back has been given out. -/
def IsCovered (ledger : List (Act σ)) : Prop :=
  ∀ s ∈ ledger.flatMap returned, ∃ handler, (s, handler) ∈ ledger.flatMap given

variable {hub : Nat} {ledger more pre mid post : List (Act σ)} {a : Act σ}

theorem HandlesOwned.of_append (h : HandlesOwned (ledger ++ more)) : HandlesOwned ledger := by
  intro pre s answer post heq
  refine h pre s answer (post ++ more) ?_
  rw [heq, List.append_assoc, List.cons_append]

theorem isCovered_of_owned (howned : HandlesOwned ledger) (hpanels : PanelsKept ledger) :
    IsCovered ledger := by
  intro s hs
  obtain ⟨a, ha, hsa⟩ := List.mem_flatMap.mp hs
  cases a with
  | unsubscribed s' answer =>
    obtain rfl := List.mem_singleton.mp hsa
    obtain ⟨pre, post, rfl⟩ := List.append_of_mem ha
    obtain ⟨⟨handler, hsubscribed⟩, -⟩ := howned pre s answer post rfl
    exact ⟨handler, List.mem_flatMap.mpr
      ⟨_, List.mem_append_left _ hsubscribed, List.mem_singleton_self _⟩⟩
  | detached panel handles =>
    exact ⟨.follow panel, List.mem_flatMap.mpr
      ⟨_, hpanels panel handles ha, List.mem_map_of_mem hsa⟩⟩
  | subscribed | attached => exact absurd hsa List.not_mem_nil

theorem mem_opened {r : Registration σ} :
    r ∈ opened hub ledger ↔ ∃ x ∈ ledger.flatMap given, x.1.hub = hub ∧ .ofHandle x = r := by
  simp only [opened, List.mem_map, List.mem_filter, beq_iff_eq, and_assoc]

theorem mem_closed {id : Nat} :
    id ∈ closed hub ledger ↔ ∃ s ∈ ledger.flatMap returned, s.hub = hub ∧ s.id = id :=
  Subscription.mem_numbersOn

/-- Where everything is covered, only what has been opened is closed. -/
theorem IsCovered.mem_opened_of_mem_closed (h : IsCovered ledger) {id : Nat}
    (hid : id ∈ closed hub ledger) : ∃ r ∈ opened hub ledger, r.id = id := by
  obtain ⟨s, hs, hhub, rfl⟩ := mem_closed.mp hid
  obtain ⟨handler, hgiven⟩ := h s hs
  exact ⟨_, mem_opened.mpr ⟨_, hgiven, hhub, rfl⟩, rfl⟩

/-! ## What follows from the numbers -/

/-- A number belongs to one handle of a hub. -/
theorem eq_of_id_eq (hnumbers : ((opened hub ledger).map (·.id)).Nodup)
    {x y : Subscription × Handler σ} (hx : x ∈ ledger.flatMap given)
    (hy : y ∈ ledger.flatMap given) (hxhub : x.1.hub = hub) (hyhub : y.1.hub = hub)
    (hid : x.1.id = y.1.id) : x = y := by
  rw [opened, List.map_map] at hnumbers
  exact List.inj_on_of_nodup_map hnumbers (List.mem_filter.mpr ⟨hx, beq_iff_eq.mpr hxhub⟩)
    (List.mem_filter.mpr ⟨hy, beq_iff_eq.mpr hyhub⟩) hid

/-- An act gives out no handle that another one gives out. -/
theorem handle_ne_of_mem (hnumbers : ((opened hub (pre ++ a :: post)).map (·.id)).Nodup)
    {x y : Subscription × Handler σ} (hx : x ∈ given a) (hy : y ∈ (pre ++ post).flatMap given)
    (hhub : x.1.hub = hub) : x.1 ≠ y.1 := by
  have hmiddle : (opened hub (pre ++ a :: post)).Perm (opened hub ([a] ++ (pre ++ post))) :=
    ((List.perm_middle.flatMap_right given).filter _).map _
  have hapart := (hmiddle.map (·.id)).nodup_iff.mp hnumbers
  rw [opened_append, List.map_append] at hapart
  intro heq
  have hxgiven : x ∈ [a].flatMap given := by rwa [List.flatMap_singleton]
  have hopened : Registration.ofHandle x ∈ opened hub [a] :=
    mem_opened.mpr ⟨x, hxgiven, hhub, rfl⟩
  have hother : Registration.ofHandle y ∈ opened hub (pre ++ post) :=
    mem_opened.mpr ⟨y, hy, heq ▸ hhub, rfl⟩
  have hid : (Registration.ofHandle x).id = (Registration.ofHandle y).id := congrArg (·.id) heq
  exact List.disjoint_of_nodup_append hapart (List.mem_map_of_mem hopened)
    (hid ▸ List.mem_map_of_mem hother)

/-- The standing handlers told by their numbers, as a hub removes them. -/
theorem standing_eq (hnumbers : ((opened hub ledger).map (·.id)).Nodup)
    (hcovered : IsCovered ledger) :
    standing hub ledger = (opened hub ledger).filter (·.id ∉ closed hub ledger) := by
  rw [standing, opened, List.filter_map, List.filter_filter]
  refine congrArg _ (List.filter_congr fun x hx => Bool.eq_iff_iff.mpr ?_)
  simp only [Function.comp_apply, Bool.and_eq_true, beq_iff_eq, decide_eq_true_eq]
  rw [and_comm]
  refine and_congr_left fun hxhub => not_congr ?_
  rw [mem_closed]
  constructor
  · exact fun hreturned => ⟨x.1, hreturned, hxhub, rfl⟩
  · rintro ⟨s, hs, hshub, hid⟩
    obtain ⟨handler, hgiven⟩ := hcovered s hs
    obtain rfl := eq_of_id_eq hnumbers hgiven hx hshub hxhub hid
    exact hs

/-- A panel that has been attached and detached has left nothing behind. -/
theorem standing_of_detached {panel : Nat} {handles : List Subscription}
    (hledger : ledger = pre ++ .attached panel handles :: (mid ++ .detached panel handles :: post))
    (hnumbers : ((opened hub ledger).map (·.id)).Nodup) :
    standing hub ledger = standing hub (pre ++ mid ++ post) := by
  have hreturned : ∀ s, s ∈ ledger.flatMap returned ↔
      s ∈ handles ∨ s ∈ (pre ++ mid ++ post).flatMap returned := by
    intro s
    simp only [hledger, List.flatMap_append, List.flatMap_cons, returned, List.mem_append,
      List.not_mem_nil, false_or]
    tauto
  have hgiven : ledger.flatMap given =
      pre.flatMap given ++ given (.attached panel handles) ++ (mid ++ post).flatMap given := by
    simp [hledger, given]
  have hgone : (given (σ := σ) (.attached panel handles)).filter (fun x =>
      x.1.hub == hub && decide (x.1 ∉ ledger.flatMap returned)) = [] := by
    refine List.filter_eq_nil_iff.mpr fun x hx => ?_
    obtain ⟨s, hs, rfl⟩ := List.mem_map.mp hx
    simp [(hreturned s).mpr (.inl hs), -List.mem_flatMap]
  have hother : ∀ x ∈ (pre ++ mid ++ post).flatMap given, x.1.hub = hub → x.1 ∉ handles := by
    intro x hx hhub hmem
    have hpanel : (x.1, .follow panel) ∈ given (σ := σ) (.attached panel handles) :=
      List.mem_map_of_mem hmem
    refine handle_ne_of_mem (y := x) (hledger ▸ hnumbers) hpanel ?_ hhub rfl
    simpa [given, or_assoc] using hx
  rw [standing, hgiven, List.filter_append, List.filter_append, hgone, List.append_nil,
    ← List.filter_append, ← List.flatMap_append, ← List.append_assoc, standing]
  refine congrArg _ (List.filter_congr fun x hx => Bool.eq_iff_iff.mpr ?_)
  simp only [Bool.and_eq_true, beq_iff_eq, decide_eq_true_eq, hreturned, not_or]
  exact and_congr_right fun hhub => and_iff_right (hother x hx hhub)

theorem IsHeld.not_mem_returned {s : Subscription} (h : IsHeld ledger s)
    (hnumbers : ((opened s.hub ledger).map (·.id)).Nodup) (hpanels : PanelsKept ledger) :
    s ∉ ledger.flatMap returned := by
  intro hs
  obtain ⟨⟨handler, hsubscribed⟩, hkept⟩ := h
  obtain ⟨a, ha, hsa⟩ := List.mem_flatMap.mp hs
  cases a with
  | unsubscribed s' answer =>
    obtain rfl := List.mem_singleton.mp hsa
    exact hkept answer ha
  | detached panel handles =>
    obtain ⟨before, after, rfl⟩ := List.append_of_mem hsubscribed
    have hattached : .attached panel handles ∈ before ++ after := by
      simpa using hpanels panel handles ha
    refine handle_ne_of_mem (x := (s, handler)) (y := (s, .follow panel)) hnumbers
      (List.mem_singleton_self _) ?_ rfl rfl
    exact List.mem_flatMap.mpr ⟨_, hattached, List.mem_map_of_mem hsa⟩
  | subscribed | attached => exact absurd hsa List.not_mem_nil

/-- The handler of a handle that a program holds is still standing. -/
theorem IsHeld.exists_standing {s : Subscription} (h : IsHeld ledger s)
    (hnumbers : ((opened s.hub ledger).map (·.id)).Nodup) (hpanels : PanelsKept ledger) :
    ∃ handler, .subscribed s handler ∈ ledger ∧
      ⟨s.id, s.kind, handler⟩ ∈ standing s.hub ledger := by
  have hkept := h.not_mem_returned hnumbers hpanels
  obtain ⟨⟨handler, hsubscribed⟩, -⟩ := h
  have hgiven : (s, handler) ∈ ledger.flatMap given :=
    List.mem_flatMap.mpr ⟨_, hsubscribed, List.mem_singleton_self _⟩
  refine ⟨handler, hsubscribed, List.mem_map.mpr ⟨_, List.mem_filter.mpr ⟨hgiven, ?_⟩, rfl⟩⟩
  simpa only [beq_self_eq_true, Bool.true_and, decide_eq_true_eq] using hkept

end Act

/-! ## Worlds -/

/-- Among handlers with different numbers one is removed and no other. -/
theorem Hub.unregister_eq {h : Hub σ} {before after : List (Registration σ)} {r : Registration σ}
    (hsplit : h.registrations = before ++ r :: after)
    (hnodup : (h.registrations.map (·.id)).Nodup) :
    h.unregister r.id = { h with registrations := before ++ after } := by
  rw [hsplit, List.map_append, List.map_cons, List.nodup_middle, List.nodup_cons,
    ← List.map_append] at hnodup
  have hothers : (before ++ after).filter (·.id != r.id) = before ++ after :=
    List.filter_eq_self.mpr fun r' hr' => bne_iff_ne.mpr fun hid =>
      hnodup.1 (List.mem_map.mpr ⟨r', hr', hid⟩)
  rw [unregister, hsplit, List.filter_append, List.filter_cons_of_neg (by simp),
    ← List.filter_append, hothers]

namespace World

variable {hubs : Nat} {files : Files} {memory : σ} {w : World σ} {hub : Nat}
  {ledger : List (Act σ)}

theorem unsubscribe_of_mem {s : Subscription} {h : Hub σ} (hhub : w.hub? s.hub = some h)
    {r : Registration σ} (hr : r ∈ h.registrations) (hid : r.id = s.id) :
    (w.unsubscribe s).1 = true := by
  have hany : h.registrations.any (·.id == s.id) = true :=
    List.any_eq_true.mpr ⟨r, hr, beq_iff_eq.mpr hid⟩
  simp only [unsubscribe, hhub, hany, if_true]

theorem hub?_unsubscribe {s : Subscription} {h : Hub σ} (hhub : w.hub? s.hub = some h) :
    (w.unsubscribe s).2.hub? s.hub = some (h.unregister s.id) := by
  have hset : (w.setHub s.hub (h.unregister s.id)).hub? s.hub = some (h.unregister s.id) :=
    hub?_setHub hhub (hub?_eq_some.mp hhub).2
  rwa [hub?, World.setHub, ← hubs_unsubscribe hhub] at hset

namespace Balances

theorem attached_iff (h : (World.new hubs files memory).Balances hub ledger w) {panel : Nat}
    {handles : List Subscription} :
    w.handles? panel = some handles ↔ .attached panel handles ∈ ledger := by
  rw [h.attached]
  exact or_iff_right nofun

theorem panelsKept (h : (World.new hubs files memory).Balances hub ledger w) :
    Act.PanelsKept ledger := fun panel handles hdetached =>
  h.attached_iff.mp (h.detached panel handles hdetached)

/-- The handlers of a hub have got the numbers from the first one on. -/
theorem ids_opened (h : (World.new hubs files memory).Balances hub ledger w) {g : Hub σ}
    (hhub : w.hub? hub = some g) :
    (Act.opened hub ledger).map (·.id) = List.range g.nextHandler := by
  obtain ⟨g₀, hnew, hbalances⟩ := h.onHub g hhub
  obtain rfl := hub?_new hnew
  rw [hbalances.numbers, hbalances.next, List.range_eq_range']
  exact congrArg (List.range' 0) (Nat.zero_add _).symm

theorem nodup_ids (h : (World.new hubs files memory).Balances hub ledger w) {g : Hub σ}
    (hhub : w.hub? hub = some g) : ((Act.opened hub ledger).map (·.id)).Nodup := by
  rw [h.ids_opened hhub]
  exact List.nodup_range

theorem registrations_eq (h : (World.new hubs files memory).Balances hub ledger w) {g : Hub σ}
    (hhub : w.hub? hub = some g) (howned : Act.HandlesOwned ledger) :
    g.registrations = Act.standing hub ledger := by
  rw [Act.standing_eq (h.nodup_ids hhub) (Act.isCovered_of_owned howned h.panelsKept)]
  obtain ⟨g₀, hnew, hbalances⟩ := h.onHub g hhub
  obtain rfl := hub?_new hnew
  exact hbalances.registrations

/-- A handle that is held can be given back: its own handler goes, and the others keep their
order. -/
theorem unsubscribe_of_isHeld {s : Subscription}
    (h : (World.new hubs files memory).Balances s.hub ledger w) {g : Hub σ}
    (hhub : w.hub? s.hub = some g) (howned : Act.HandlesOwned ledger)
    (hheld : Act.IsHeld ledger s) :
    (w.unsubscribe s).1 = true ∧ ∃ handler before after, .subscribed s handler ∈ ledger ∧
      g.registrations = before ++ ⟨s.id, s.kind, handler⟩ :: after ∧
      (w.unsubscribe s).2.hub? s.hub = some { g with registrations := before ++ after } := by
  have hnumbers := h.nodup_ids hhub
  have hcovered := Act.isCovered_of_owned howned h.panelsKept
  have heq := h.registrations_eq hhub howned
  obtain ⟨handler, hsubscribed, hstanding⟩ := hheld.exists_standing hnumbers h.panelsKept
  rw [← heq] at hstanding
  obtain ⟨before, after, hsplit⟩ := List.append_of_mem hstanding
  have hnodup : (g.registrations.map (·.id)).Nodup := by
    rw [heq, Act.standing_eq hnumbers hcovered]
    exact hnumbers.sublist (List.filter_sublist.map _)
  refine ⟨unsubscribe_of_mem hhub hstanding rfl, handler, before, after, hsubscribed, hsplit, ?_⟩
  exact (hub?_unsubscribe hhub).trans (congrArg some (Hub.unregister_eq hsplit hnodup))

/-- What is done next goes on from there. -/
theorem trans_of_owned {w' : World σ} {more : List (Act σ)}
    (h : (World.new hubs files memory).Balances hub ledger w) (hmore : w.Balances hub more w')
    (howned : Act.HandlesOwned ledger) :
    (World.new hubs files memory).Balances hub (ledger ++ more) w' := by
  refine h.trans hmore fun g g' hhub hbalances r hr hclosed => ?_
  have hcovered := Act.isCovered_of_owned howned h.panelsKept
  obtain ⟨r₀, hr₀, hid⟩ := hcovered.mem_opened_of_mem_closed hclosed
  have hold : r.id ∈ List.range g.nextHandler :=
    h.ids_opened hhub ▸ hid ▸ List.mem_map_of_mem hr₀
  have hnew : r.id ∈ List.range' g.nextHandler (Act.opened hub more).length :=
    hbalances.numbers ▸ List.mem_map_of_mem hr
  exact absurd (List.mem_range'_1.mp hnew).1 (Nat.not_le_of_lt (List.mem_range.mp hold))

end Balances

end World

/-! ## Runs -/

namespace Machine

variable {supply : Supply} {m m' : Machine σ} {hubs : Nat} {files : Files} {memory : σ} {hub : Nat}
  {ledger more : List (Act σ)}

theorem Books.balances_append (h : Books supply m more m')
    (hstart : (World.new hubs files memory).Balances hub ledger m.world)
    (howned : Act.HandlesOwned (ledger ++ more)) :
    (World.new hubs files memory).Balances hub (ledger ++ more) m'.world := by
  induction h generalizing ledger with
  | refl m => rwa [List.append_nil]
  | step h rest ih =>
    rw [← List.append_assoc] at howned ⊢
    exact ih (hstart.trans_of_owned (h.balances hub) howned.of_append.of_append) howned

/-- A run of a program keeps the books of each hub. -/
theorem Books.balances {p : Program σ} (h : Books supply ⟨.new hubs files memory, p, []⟩ ledger m)
    (howned : Act.HandlesOwned ledger) (hub : Nat) :
    (World.new hubs files memory).Balances hub ledger m.world :=
  h.balances_append (.of_eq rfl rfl) howned

/-- What a ledger tells about the handlers of a hub, at a moment at which it is alive. -/
structure Accounts (supply : Supply) (hub : Nat) (ledger : List (Act σ)) (w : World σ)
    (h : Hub σ) : Prop where
  /-- The handlers are the standing ones, in the order in which they have been subscribed. -/
  registrations : h.registrations = Act.standing hub ledger
  /-- In this order all handlers that there have ever been are numbered. -/
  numbers : (Act.opened hub ledger).map (·.id) = List.range h.nextHandler
  /-- What is counted for a kind of events are its standing handlers. -/
  counted : ∀ patience kind, w.reply supply patience (.handlerCount hub kind) =
    .done (some ((Act.standing hub ledger).filter (·.kind == kind)).length) w
  /-- A handler, a channel or a panel gets the next numbers. -/
  subscribed : ∀ kind handler,
    (w.subscribe hub kind handler).1 = some ⟨hub, h.nextHandler, kind⟩
  opened : ∀ patience kind, ∃ channel w', w.reply supply patience (.openChannel hub kind) =
    .done (some (⟨hub, h.nextHandler, kind⟩, channel)) w'
  attached : ∀ patience, ∃ panel w', w.reply supply patience (.attachPanel hub) =
    .done (some panel) w' ∧ w'.handles? panel = some (Subscription.ofPanel hub h.nextHandler)
  /-- To give a handle back removes its own handler and no other. -/
  unsubscribed : ∀ s, Act.IsHeld ledger s → s.hub = hub → (w.unsubscribe s).1 = true ∧
    ∃ handler before after, .subscribed s handler ∈ ledger ∧
      h.registrations = before ++ ⟨s.id, s.kind, handler⟩ :: after ∧
      (w.unsubscribe s).2.hub? hub = some { h with registrations := before ++ after }
  /-- Whenever a handle has been given back, it has gone well. -/
  answered : ∀ s answer, .unsubscribed s answer ∈ ledger → s.hub = hub → answer = true
  /-- After a panel has been detached, the handlers are those without it. -/
  detached : ∀ pre panel handles mid handles' post,
    ledger = pre ++ .attached panel handles :: (mid ++ .detached panel handles' :: post) →
      h.registrations = Act.standing hub (pre ++ mid ++ post)

/-- In every run whose programs, the handlers among them, give back only handles that they hold,
the ledger accounts for the handlers of each hub that is alive. -/
theorem handlers_accounted {p : Program σ} {h : Hub σ}
    (hrun : Books supply ⟨.new hubs files memory, p, []⟩ ledger m)
    (howned : Act.HandlesOwned ledger) (hhub : m.world.hub? hub = some h) :
    Accounts supply hub ledger m.world h := by
  have hbalances := hrun.balances howned hub
  have heq := hbalances.registrations_eq hhub howned
  refine ⟨heq, hbalances.ids_opened hhub, fun patience kind => ?_, fun kind handler => ?_,
    fun patience kind => ?_, fun patience => ?_, ?_, ?_, ?_⟩
  · rw [World.reply, World.withHub_of_hub? hhub, Hub.handlersOf, heq]
    rfl
  · exact (World.subscribe_eq hhub kind handler).1
  · exact ⟨_, _, World.reply_openChannel hhub kind⟩
  · exact ⟨_, _, World.reply_attachPanel hhub, World.handles?_attachPanel hhub⟩
  · rintro s hheld rfl
    exact hbalances.unsubscribe_of_isHeld hhub howned hheld
  · rintro s answer hmem rfl
    obtain ⟨pre, post, rfl⟩ := List.append_of_mem hmem
    obtain ⟨m₁, t, m₂, hpre, hstep, hacts, hpost⟩ := hrun.split
    have halive := (Books.step hstep hpost).alive (Option.isSome_of_eq_some hhub)
    obtain ⟨h₁, hhub₁⟩ := Option.isSome_iff_exists.mp halive
    have howned₁ := howned.of_append
    have hanswer := hstep.unsubscribed (hacts ▸ List.mem_singleton_self _)
    exact hanswer.symm.trans ((hpre.balances howned₁ s.hub).unsubscribe_of_isHeld hhub₁ howned₁
      (howned pre s answer post rfl)).1
  · rintro pre panel handles mid handles' post rfl
    have hattached : m.world.handles? panel = some handles :=
      hbalances.attached_iff.mpr (by simp)
    have hdetached := hbalances.detached panel handles' (by simp)
    obtain rfl := Option.some.inj (hattached.symm.trans hdetached)
    exact heq.trans (Act.standing_of_detached rfl (hbalances.nodup_ids hhub))

/-- A handler that gives itself up and subscribes another one. -/
def moveOn : Handler Unit := fun _ =>
  .request (.unsubscribe ⟨0, 0, .entriesCleared⟩) fun _ =>
    .subscribe 0 .useData (fun _ => .finish .succeeded) fun _ => .finish .succeeded

/-- An event goes to that handler and to a panel, which is detached afterwards. -/
def movingOn : Program Unit :=
  .subscribe 0 .entriesCleared moveOn fun _ =>
    .request (.attachPanel 0) fun _ =>
      .request (.emit 0 (.entriesCleared .all)) fun _ =>
        .request (.detachPanel 0) fun _ => .finish .succeeded

def movingOnLedger : List (Act Unit) :=
  [.subscribed ⟨0, 0, .entriesCleared⟩ moveOn, .attached 0 (Subscription.ofPanel 0 1),
    .unsubscribed ⟨0, 0, .entriesCleared⟩ true,
    .subscribed ⟨0, 4, .useData⟩ fun _ => .finish .succeeded,
    .detached 0 (Subscription.ofPanel 0 1)]

theorem handlesOwned_movingOnLedger : Act.HandlesOwned movingOnLedger := by
  intro pre s answer post heq
  rw [movingOnLedger] at heq
  -- The third entry is the only one of a handle that has been given back.
  rcases pre with _ | ⟨_, _ | ⟨_, _ | ⟨_, _ | ⟨_, _ | ⟨_, pre⟩⟩⟩⟩⟩ <;> simp at heq
  obtain ⟨rfl, rfl, ⟨rfl, rfl⟩, rfl⟩ := heq
  exact ⟨⟨moveOn, by simp⟩, by simp⟩

/-- The handler that has come in the middle of the event is the one that is left. -/
theorem handlers_accounted_movingOn : ∃ m, ∃ h : Hub Unit,
    Books standingSupply ⟨.new 1 ⟨[], .empty⟩ (), movingOn, []⟩ movingOnLedger m ∧
    Act.HandlesOwned movingOnLedger ∧ m.world.hub? 0 = some h ∧
    h.registrations = [⟨4, .useData, fun _ => .finish .succeeded⟩] ∧
    Accounts standingSupply 0 movingOnLedger m.world h := by
  have hrun : ∃ ledger m,
      Books standingSupply ⟨.new 1 ⟨[], .empty⟩ (), movingOn, []⟩ ledger m ∧
      ledger = movingOnLedger ∧
      m.world.hub? 0 = some ⟨1, 0, .empty, 5, [⟨4, .useData, fun _ => .finish .succeeded⟩]⟩ :=
    ⟨_, _, .step (.subscribed _ _ _ _ _ _) (.step (.answered 0 rfl) (.step (.raised 0 rfl)
      (.step (.answered 0 rfl) (.step (.subscribed _ _ _ _ _ _) (.step (.handled _ _ _ _)
      (.step (.answered 0 rfl) (.step (.handled _ _ _ _) (.step (.answered 0 rfl)
      (.refl _))))))))), rfl, rfl⟩
  obtain ⟨ledger, m, hbooks, rfl, hhub⟩ := hrun
  exact ⟨m, _, hbooks, handlesOwned_movingOnLedger, hhub, rfl,
    handlers_accounted hbooks handlesOwned_movingOnLedger hhub⟩

end Machine

end LabExchange
