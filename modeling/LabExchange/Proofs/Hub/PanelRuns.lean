import LabExchange.Proofs.Hub.Panels

/-!
# What a panel shows in a run

A panel shows what its hub holds, except while an event that tells of a change has not reached it
yet. An event is handed to the panel whatever other handlers do in between, so the panel is up to
date when the dispatch is over, and it stays so until the next such event or a restoration.
-/
namespace LabExchange.Machine

variable {σ : Type} {supply : Supply} {hub panel k : Nat} {handles : List Subscription}
  {m m' : Machine σ} {t : List (Moment σ)}

/-! ## Levels -/

/-- The depth of a world is the number of dispatches that are going on. -/
def IsLevel (m : Machine σ) : Prop := m.world.depth = m.dispatches.length

theorem isLevel_deliver {i : Nat} {event : HubEvent} {next : DispatchReport → Program σ}
    {ds : List (Dispatch σ)} (handlers : List (Registration σ)) {report : DispatchReport}
    {w : World σ} (h : w.depth = ds.length) :
    (deliver i event next ds handlers report w).IsLevel := by
  cases handlers with
  | nil => exact h
  | cons r rest => exact congrArg (· + 1) h

theorem Step.isLevel (h : Step supply m t m') (hm : m.IsLevel) : m'.IsLevel := by
  have hdepth : ∀ a ∈ t, a.IsReply supply → a.after.depth = a.before.depth :=
    fun a _ hreply => hreply.depth
  cases h with
  | answered patience hreply | panicked patience hreply =>
    exact (hdepth _ (List.mem_singleton_self _) ⟨patience, hreply⟩).trans hm
  | raised patience hreply =>
    exact isLevel_deliver _ ((hdepth _ (List.mem_singleton_self _) ⟨patience, hreply⟩).trans hm)
  | subscribed w ds i kind handler next =>
    exact (World.retains_subscribe w i kind handler).depth.trans hm
  | recalled w ds next => exact hm
  | remembered w ds change next => exact hm
  | handled w d ds o =>
    have hdepth : w.depth = ds.length + 1 := hm
    refine isLevel_deliver _ ?_
    change w.depth - 1 = ds.length
    omega

theorem length_deliver_le (i : Nat) (event : HubEvent) (next : DispatchReport → Program σ)
    (ds : List (Dispatch σ)) (handlers : List (Registration σ)) (report : DispatchReport)
    (w : World σ) :
    (deliver i event next ds handlers report w).dispatches.length ≤ ds.length + 1 := by
  cases handlers with
  | nil => exact Nat.le_succ _
  | cons r rest => exact Nat.le_refl _

/-- A machine that is at some depth after a step was so before, if its request was. -/
theorem Step.le_length (h : Step supply m t m') (hm : m.IsLevel)
    (ht : ∀ a ∈ t, k ≤ a.before.depth) (hk : k ≤ m'.dispatches.length) :
    k ≤ m.dispatches.length := by
  rcases h.moment with rfl | ⟨a, rfl, hbefore, -⟩
  · cases h with
    | handled w d ds o => exact Nat.le_trans hk (length_deliver_le _ _ _ _ _ _ _)
    | subscribed | recalled | remembered => exact hk
  · rw [← hm, ← hbefore]
    exact ht a (List.mem_singleton_self a)

theorem Runs.isLevel (h : Runs supply m t m') (hm : m.IsLevel) : m'.IsLevel := by
  induction h with
  | refl m => exact hm
  | step h rest ih => exact ih (h.isLevel hm)

theorem Runs.le_length (h : Runs supply m t m') (hm : m.IsLevel)
    (ht : ∀ a ∈ t, k ≤ a.before.depth) (hk : k ≤ m'.dispatches.length) :
    k ≤ m.dispatches.length := by
  induction h with
  | refl m => exact hk
  | step h rest ih =>
    obtain ⟨hfirst, hlater⟩ := List.forall_mem_append.mp ht
    exact h.le_length hm hfirst (ih (h.isLevel hm) hlater hk)

/-! ## Handlers -/

theorem Step.keepsHandles (h : Step supply m t m') (hm : m.world.KeepsHandles hub) :
    m'.world.KeepsHandles hub := by
  have hchanges : m.world.Changes hub (t.flatMap (Moment.lost hub)) True m'.world :=
    h.changes (fun a ha => lost_subset_flatMap ha) fun _ _ _ => trivial
  exact hm.changes hchanges

/-- A panel goes on following its hub until it is loosened. -/
theorem Step.follows (h : Step supply m t m') (hkeeps : m.world.KeepsHandles hub)
    (hm : m.world.Follows hub panel handles) (ht : ∀ a ∈ t, ¬a.Loosens panel) :
    m'.world.Follows hub panel handles ∧ ∀ a ∈ t, a.after.Follows hub panel handles := by
  have hkept : ∀ id ∈ Subscription.numbersOn hub handles, id ∉ t.flatMap (Moment.lost hub) := by
    intro id hid hgiven
    obtain ⟨a, ha, hlost⟩ := List.mem_flatMap.mp hgiven
    rcases h.moment with rfl | ⟨b, rfl, hbefore, -⟩
    · exact List.not_mem_nil ha
    · obtain rfl := List.mem_singleton.mp ha
      exact Moment.not_mem_lost (hbefore ▸ hkeeps) (hbefore ▸ hm) (ht a ha) hid hlost
  constructor
  · have hchanges : m.world.Changes hub (t.flatMap (Moment.lost hub)) True m'.world :=
      h.changes (fun a ha => lost_subset_flatMap ha) fun _ _ _ => trivial
    exact hm.changes hkept hchanges
  · intro a ha
    rcases h.moment with rfl | ⟨b, rfl, hbefore, hreply⟩
    · exact absurd ha List.not_mem_nil
    · obtain rfl := List.mem_singleton.mp ha
      rw [← hbefore] at hm
      exact hm.changes (fun id hid hlost => hkept id hid (lost_subset_flatMap ha hlost))
        (hreply.changes hub)

/-! ## Reloading -/

/-- The panel is still to be reloaded by a dispatch at some depth or deeper: its handler runs, or
it is among those that wait. -/
def Awaits (panel k : Nat) (m : Machine σ) : Prop :=
  ∃ above below, m.dispatches = above ++ below ∧ below.length = k ∧ above ≠ [] ∧
    ((∃ event, m.program = Handler.follow panel event) ∨
      ∃ d ∈ above, ∃ r ∈ d.waiting, r.handler = .follow panel)

/-- The panel is up to date, or it is still to be reloaded. -/
def IsUpToDate (hub panel k : Nat) (m : Machine σ) : Prop :=
  m.world.IsCurrent hub panel ∨ m.Awaits panel k

/-- An event is handed to the panel if the panel is among its handlers. -/
theorem awaits_deliver_of_mem {i : Nat} {event : HubEvent} {next : DispatchReport → Program σ}
    {ds : List (Dispatch σ)} {handlers : List (Registration σ)} {report : DispatchReport}
    {w : World σ} {r : Registration σ} (hr : r ∈ handlers) (hfollow : r.handler = .follow panel)
    {above below : List (Dispatch σ)} (hds : ds = above ++ below) (hk : below.length = k) :
    (deliver i event next ds handlers report w).Awaits panel k := by
  cases handlers with
  | nil => exact absurd hr List.not_mem_nil
  | cons r₀ rest =>
    refine ⟨⟨i, event, r₀.id, rest, report, next⟩ :: above, below, congrArg _ hds, hk, nofun, ?_⟩
    rcases List.mem_cons.mp hr with rfl | hrest
    · exact .inl ⟨event, congrArg (· event) hfollow⟩
    · exact .inr ⟨_, List.mem_cons_self, r, hrest, hfollow⟩

/-- A handler of the panel that waits farther out still waits. -/
theorem awaits_deliver_of_waiting {i : Nat} {event : HubEvent} {next : DispatchReport → Program σ}
    {ds : List (Dispatch σ)} (handlers : List (Registration σ)) (report : DispatchReport)
    (w : World σ) {above below : List (Dispatch σ)} (hds : ds = above ++ below)
    (hk : below.length = k)
    (hwaiting : ∃ d ∈ above, ∃ r ∈ d.waiting, r.handler = Handler.follow panel) :
    (deliver i event next ds handlers report w).Awaits panel k := by
  obtain ⟨d, hd, hr⟩ := hwaiting
  cases handlers with
  | nil => exact ⟨above, below, hds, hk, List.ne_nil_of_mem hd, .inr ⟨d, hd, hr⟩⟩
  | cons r₀ rest =>
    exact ⟨_ :: above, below, congrArg _ hds, hk, nofun, .inr ⟨d, List.mem_cons_of_mem _ hd, hr⟩⟩

/-- An event that tells of a change is handed to a panel that follows the hub. -/
theorem awaits_dispatch {event : HubEvent} (next : DispatchReport → Program σ)
    {ds : List (Dispatch σ)} {w : World σ} (hw : w.Follows hub panel handles)
    (hhub : (w.hub? hub).isSome) (htells : event.tells) (hk : k ≤ ds.length) :
    (dispatch hub event next ds w).Awaits panel k := by
  obtain ⟨h, hhub⟩ := Option.isSome_iff_exists.mp hhub
  obtain ⟨id, -, hr⟩ := hw.registered h hhub event.kind htells
  have hmem : ⟨id, event.kind, Handler.follow panel⟩ ∈ h.handlersOf event.kind :=
    List.mem_filter.mpr ⟨hr, beq_self_eq_true _⟩
  rw [dispatch, hhub]
  refine awaits_deliver_of_mem hmem rfl (List.take_append_drop (ds.length - k) ds).symm ?_
  rw [List.length_drop]
  omega

theorem Step.awaits_of_announces (h : Step supply m t m') {a : Moment σ} (ha : a ∈ t)
    {event : HubEvent} (hevent : a.Announces hub event) (htells : event.tells)
    (hafter : a.after.Follows hub panel handles) (hk : k ≤ m.dispatches.length) :
    m'.Awaits panel k := by
  obtain ⟨answer, w', hreply'⟩ := hevent
  cases h with
  | @raised w w' ds r next i event answer patience hreply =>
    obtain rfl := List.mem_singleton.mp ha
    obtain ⟨rfl, rfl, -⟩ := Reply.raises.inj hreply'
    have halive := (World.follows_reply i supply patience w r).alive hreply
    exact awaits_dispatch _ hafter halive htells hk
  | answered | panicked =>
    obtain rfl := List.mem_singleton.mp ha
    contradiction
  | subscribed | recalled | remembered | handled => exact absurd ha List.not_mem_nil

/-- The handler of the panel reloads it at once. -/
theorem Step.isCurrent_of_follow (h : Step supply m t m') {event : HubEvent}
    (hprogram : m.program = Handler.follow panel event)
    (hplace : m.world.places[panel]? = some (hub, handles)) : m'.world.IsCurrent hub panel := by
  cases h with
  | answered patience hreply =>
    obtain ⟨rfl, -⟩ := Program.request.inj hprogram
    obtain ⟨-, rfl⟩ := Reply.done.inj hreply
    exact World.isCurrent_reloadPanel hplace _
  | raised patience hreply | panicked patience hreply =>
    obtain ⟨rfl, -⟩ := Program.request.inj hprogram
    contradiction
  | subscribed | recalled | remembered | handled => exact absurd hprogram nofun

/-- A handler that waits goes on waiting or is the next to run. -/
theorem Step.awaits_of_waiting (h : Step supply m t m') {above below : List (Dispatch σ)}
    (hds : m.dispatches = above ++ below) (hk : below.length = k)
    (hwaiting : ∃ d ∈ above, ∃ r ∈ d.waiting, r.handler = Handler.follow panel) :
    m'.Awaits panel k := by
  have hne : above ≠ [] := by
    obtain ⟨d, hd, -⟩ := hwaiting
    exact List.ne_nil_of_mem hd
  cases h with
  | answered | panicked | subscribed | recalled | remembered =>
    exact ⟨above, below, hds, hk, hne, .inr hwaiting⟩
  | raised patience hreply => exact awaits_deliver_of_waiting _ _ _ hds hk hwaiting
  | handled w d ds o =>
    cases above with
    | nil => exact absurd rfl hne
    | cons d' above =>
      obtain ⟨rfl, hrest⟩ := List.cons.inj hds
      obtain ⟨d₁, hd₁, r, hr, hfollow⟩ := hwaiting
      rcases List.mem_cons.mp hd₁ with rfl | houter
      · exact awaits_deliver_of_mem hr hfollow hrest hk
      · exact awaits_deliver_of_waiting _ _ _ hrest hk ⟨d₁, houter, r, hr, hfollow⟩

/-- Without a restoration, a panel that is up to date or still to be reloaded remains so. -/
theorem Step.isUpToDate (h : Step supply m t m') (hm : m.IsUpToDate hub panel k)
    (hfollows : m.world.Follows hub panel handles)
    (hafter : ∀ a ∈ t, a.after.Follows hub panel handles) (hk : k ≤ m.dispatches.length)
    (ht : ∀ a ∈ t, ¬a.Restores hub) : m'.IsUpToDate hub panel k := by
  rcases hm with hcurrent | ⟨above, below, hds, hlength, -, ⟨event, hprogram⟩ | hwaiting⟩
  · by_cases htold : ∃ a ∈ t, ∃ event, a.Announces hub event ∧ event.tells
    · obtain ⟨a, ha, event, hevent, htells⟩ := htold
      exact .inr (h.awaits_of_announces ha hevent htells (hafter a ha) hk)
    · have hchanges : m.world.Changes hub (t.flatMap (Moment.lost hub)) False m'.world := by
        refine h.changes (fun a ha => lost_subset_flatMap ha) fun a ha hmoves => ?_
        exact hmoves.elim (ht a ha) fun htells => htold ⟨a, ha, htells⟩
      exact .inl (hcurrent.changes hchanges)
  · exact .inl (h.isCurrent_of_follow hprogram hfollows.place)
  · exact .inr (h.awaits_of_waiting hds hlength hwaiting)

/-- When a panel is attached it is up to date, and it follows its hub. -/
theorem Step.follows_of_attaches {a : Moment σ} (h : Step supply m [a] m')
    (ha : a.Attaches hub panel) :
    m'.world.IsCurrent hub panel ∧ ∃ handles, m'.world.Follows hub panel handles := by
  obtain @⟨w, w'⟩ := ha
  cases h with
  | answered patience hreply =>
    rcases World.withHub_cases w hub fun h =>
      .done (some (w.attachPanel hub h).1) (w.attachPanel hub h).2 with ⟨-, heq⟩ | ⟨h, hhub, heq⟩
    · exact absurd (Reply.done.inj (heq.symm.trans hreply)).1 nofun
    · obtain ⟨hpanel, rfl⟩ := Reply.done.inj (heq.symm.trans hreply)
      obtain rfl : w.panels.length = panel :=
        (World.attachPanel_eq hhub).1.symm.trans (Option.some.inj hpanel)
      exact ⟨(World.follows_attachPanel hhub).1, _, (World.follows_attachPanel hhub).2⟩

/-- After a moment that refreshes the panel it is up to date, or still to be reloaded. -/
theorem Step.isUpToDate_of_refreshes {b : Moment σ} (h : Step supply m [b] m')
    (hb : b.Refreshes hub panel) (hafter : b.after.Follows hub panel handles)
    (hk : k ≤ m.dispatches.length) : m'.IsUpToDate hub panel k := by
  cases hb with
  | attached hattaches => exact .inl (h.follows_of_attaches hattaches).1
  | refreshed =>
    cases h with
    | answered patience hreply =>
      obtain ⟨-, rfl⟩ := Reply.done.inj hreply
      have hplace := hafter.place
      rw [Moment.after, Reply.world, World.places_reloadPanel] at hplace
      exact .inl (World.isCurrent_reloadPanel hplace none)
    | raised patience hreply | panicked patience hreply => contradiction
  | announced hevent htells =>
    exact .inr (h.awaits_of_announces (List.mem_singleton_self _) hevent htells hafter hk)

/-! ## Runs -/

theorem Runs.keepsHandles (h : Runs supply m t m') (hm : m.world.KeepsHandles hub) :
    m'.world.KeepsHandles hub := by
  induction h with
  | refl m => exact hm
  | step h rest ih => exact ih (h.keepsHandles hm)

theorem Runs.follows (h : Runs supply m t m') (hkeeps : m.world.KeepsHandles hub)
    (hm : m.world.Follows hub panel handles) (ht : ∀ a ∈ t, ¬a.Loosens panel) :
    m'.world.Follows hub panel handles := by
  induction h with
  | refl m => exact hm
  | step h rest ih =>
    obtain ⟨hfirst, hlater⟩ := List.forall_mem_append.mp ht
    exact ih (h.keepsHandles hkeeps) (h.follows hkeeps hm hfirst).1 hlater

theorem Runs.isUpToDate (h : Runs supply m t m') (hm : m.IsUpToDate hub panel k)
    (hkeeps : m.world.KeepsHandles hub) (hfollows : m.world.Follows hub panel handles)
    (hlevel : m.IsLevel) (hdepth : ∀ a ∈ t, k ≤ a.before.depth) (hk : k ≤ m'.dispatches.length)
    (hloosens : ∀ a ∈ t, ¬a.Loosens panel) (hrestores : ∀ a ∈ t, ¬a.Restores hub) :
    m'.IsUpToDate hub panel k := by
  induction h with
  | refl m => exact hm
  | step h rest ih =>
    have hbefore := (Runs.step h rest).le_length hlevel hdepth hk
    obtain ⟨-, hdepth⟩ := List.forall_mem_append.mp hdepth
    obtain ⟨hfirst, hloosens⟩ := List.forall_mem_append.mp hloosens
    obtain ⟨hquiet, hrestores⟩ := List.forall_mem_append.mp hrestores
    obtain ⟨hfollows', hafter⟩ := h.follows hkeeps hfollows hfirst
    exact ih (h.isUpToDate hm hfollows hafter hbefore hquiet) (h.keepsHandles hkeeps) hfollows'
      (h.isLevel hlevel) hdepth hk hloosens hrestores

/-- A panel that is still to be reloaded is so by a dispatch that is going on. -/
theorem IsUpToDate.isCurrent (hm : m.IsUpToDate hub panel m.dispatches.length) :
    m.world.IsCurrent hub panel := by
  rcases hm with hcurrent | ⟨above, below, hds, hlength, hne, -⟩
  · exact hcurrent
  · have hsum := congrArg List.length hds
    rw [List.length_append] at hsum
    exact absurd (List.length_eq_zero_iff.mp (by omega)) hne

/-- Once a panel has been attached, and as long as it is not loosened, it shows what its hub says
whenever the request has been dealt with that refreshed it last, unless the hub has been restored
since. That request may be the one by which it was attached; it may also be one that raised an
event, made by any handler. It has been dealt with when the program runs on that made it or one
farther out, thus in any case when no dispatch is going on. -/
theorem panel_isCurrent {hubs : Nat} {files : Files} {memory : σ} {p : Program σ}
    {pre later mid post : List (Moment σ)} {a b : Moment σ}
    (h : Runs supply ⟨.new hubs files memory, p, []⟩ (pre ++ a :: later) m)
    (ha : a.Attaches hub panel) (hkept : ∀ c ∈ later, ¬c.Loosens panel)
    (hsplit : a :: later = mid ++ b :: post) (hb : b.Refreshes hub panel)
    (hpost : ∀ c ∈ post, ¬c.Restores hub)
    (hdepth : ∀ c ∈ b :: post, m.dispatches.length ≤ c.before.depth) :
    m.world.IsCurrent hub panel := by
  obtain ⟨m₁, m₂, hpre, hattach, hlater⟩ := h.split
  have hkeeps₁ := hpre.keepsHandles (World.keepsHandles_new hub hubs files memory)
  have hlevel₁ : m₁.IsLevel := hpre.isLevel rfl
  obtain ⟨hcurrent, handles, hfollows₂⟩ := hattach.follows_of_attaches ha
  obtain ⟨-, hdepth'⟩ := List.forall_mem_cons.mp hdepth
  cases mid with
  | nil =>
    obtain ⟨rfl, rfl⟩ := List.cons.inj hsplit
    exact (hlater.isUpToDate (.inl hcurrent) (hattach.keepsHandles hkeeps₁) hfollows₂
      (hattach.isLevel hlevel₁) hdepth' (Nat.le_refl _) hkept hpost).isCurrent
  | cons a' mid =>
    obtain ⟨-, rfl⟩ := List.cons.inj hsplit
    obtain ⟨m₃, m₄, hmid, hrefresh, hrest⟩ := hlater.split
    obtain ⟨hkept₁, hkept₂⟩ := List.forall_mem_append.mp hkept
    obtain ⟨hkeptb, hkept₃⟩ := List.forall_mem_cons.mp hkept₂
    have hkeeps₃ := hmid.keepsHandles (hattach.keepsHandles hkeeps₁)
    have hfollows₃ := hmid.follows (hattach.keepsHandles hkeeps₁) hfollows₂ hkept₁
    have hlevel₃ := hmid.isLevel (hattach.isLevel hlevel₁)
    obtain ⟨hfollows₄, hafter⟩ := hrefresh.follows hkeeps₃ hfollows₃
      (List.forall_mem_singleton.mpr hkeptb)
    have hk := (Runs.step hrefresh hrest).le_length hlevel₃ hdepth (Nat.le_refl _)
    have hfresh := hrefresh.isUpToDate_of_refreshes hb
      (hafter b (List.mem_singleton_self b)) hk
    exact (hrest.isUpToDate hfresh (hrefresh.keepsHandles hkeeps₃) hfollows₄
      (hrefresh.isLevel hlevel₃) hdepth' (Nat.le_refl _) hkept₃ hpost).isCurrent

/-- A hub on which an entry is exported when a panel has been attached, after a handler that removes
it before the panel is told of it. -/
def exportBeforePanel : Machine Unit :=
  let program : Program Unit := .subscribe 0 .entryCreated removeAgain fun _ =>
    .request (.attachPanel 0) fun _ => .request exportSquare fun _ => .finish .succeeded
  ⟨.new 1 ⟨[], .empty⟩ (), program, []⟩

/-- The panel is told of the removal first, and is up to date in the end all the same. -/
theorem panel_isCurrent_exportBeforePanel :
    ∃ t m, Runs standingSupply exportBeforePanel t m ∧
      t.map Moment.request = [.attachPanel 0, exportSquare, .store 0 (.remove "functions" ⟨"a"⟩),
        .followPanel 0 .entryRemoved, .followPanel 0 .entryCreated] ∧
      m.dispatches = [] ∧ m.world.IsCurrent 0 0 := by
  obtain ⟨a, later, m, hrun, hattaches, hrequests, hend⟩ :
      ∃ a later m, Runs standingSupply exportBeforePanel ([] ++ a :: later) m ∧
        a.Attaches 0 0 ∧ later.map Moment.request = [exportSquare,
          .store 0 (.remove "functions" ⟨"a"⟩), .followPanel 0 .entryRemoved,
          .followPanel 0 .entryCreated] ∧ m.dispatches = [] := by
    apply Exists.intro
    apply Exists.intro
    apply Exists.intro
    constructor
    · apply Runs.silent (.subscribed _ _ _ _ _ _)
      apply Runs.moment (by exact .answered 1 rfl)
      apply Runs.moment (by exact .raised 1 rfl)
      apply Runs.moment (by exact .raised 1 rfl)
      apply Runs.moment (by exact .answered 1 rfl)
      apply Runs.silent (.handled _ _ _ _)
      apply Runs.silent (.handled _ _ _ _)
      apply Runs.moment (by exact .answered 1 rfl)
      apply Runs.silent (.handled _ _ _ _)
      exact .refl _
    · exact ⟨.intro, rfl, rfl⟩
  have hplain : ∀ c ∈ later, ¬c.Loosens 0 ∧ ¬c.Restores 0 := by
    intro c hc
    have hmem := List.mem_map_of_mem (f := Moment.request) hc
    simp only [hrequests, exportSquare, List.mem_cons, List.not_mem_nil, or_false] at hmem
    constructor
    · intro hloosens
      rcases hloosens.request with hr | ⟨s, hr⟩ <;> simp [hr] at hmem
    · intro hrestores
      rcases hrestores.request with ⟨s, hr⟩ | ⟨path, hr⟩ <;> simp [hr] at hmem
  have hattach : a.request = .attachPanel 0 := by
    cases hattaches
    rfl
  refine ⟨_, m, hrun, ?_, hend, ?_⟩
  · rw [List.nil_append, List.map_cons, hrequests, hattach]
  · refine panel_isCurrent hrun hattaches (fun c hc => (hplain c hc).1) (List.nil_append _).symm
      (.attached hattaches) (fun c hc => (hplain c hc).2) fun c _ => ?_
    rw [hend]
    exact Nat.zero_le _

end LabExchange.Machine
