import LabExchange.Proofs.Hub.Turns

/-!
# Dispatching an event

An event goes to the handlers that its hub has for it when it is raised: to each of them once, in
the order in which they were registered, and to no other. Handlers may come and go meanwhile, raise
events of their own, and end badly. The report counts how they have ended.
-/
namespace LabExchange

variable {σ : Type} {lost : List Nat} {moved : Prop}

/-! ## Numbers of handlers -/

namespace Hub

/-- Handlers that were registered later have greater numbers, and all these have been given out. -/
structure IsNumbered (h : Hub σ) : Prop where
  increasing : (h.registrations.map (·.id)).Pairwise (· < ·)
  given : ∀ r ∈ h.registrations, r.id < h.nextHandler

theorem isNumbered_new : (Hub.new : Hub σ).IsNumbered := ⟨List.Pairwise.nil, nofun⟩

theorem IsNumbered.register {h : Hub σ} (hh : h.IsNumbered) (kind : EventKind)
    (handler : Handler σ) : (h.register kind handler).IsNumbered where
  increasing := by
    rw [Hub.register, List.map_append, List.pairwise_append]
    refine ⟨hh.increasing, List.pairwise_singleton _ _, fun i hi j hj => ?_⟩
    obtain ⟨r, hr, rfl⟩ := List.mem_map.mp hi
    obtain rfl := List.mem_singleton.mp hj
    exact hh.given r hr
  given r hr := by
    rcases List.mem_append.mp hr with hold | hnew
    · exact Nat.lt_succ_of_lt (hh.given r hold)
    · obtain rfl := List.mem_singleton.mp hnew
      exact Nat.lt_succ_self _

theorem IsNumbered.watch {h : Hub σ} (hh : h.IsNumbered) (handlers : EventKind → Handler σ) :
    (h.watch handlers).IsNumbered :=
  ((hh.register _ _).register _ _).register _ _

theorem IsNumbered.change {h h' : Hub σ} (hh : h.IsNumbered) (hchange : h.Change lost moved h') :
    h'.IsNumbered := by
  cases hchange with
  | counted | stored => exact ⟨hh.increasing, hh.given⟩
  | registered kind handler => exact hh.register kind handler
  | unregistered =>
    refine ⟨?_, fun r hr => hh.given r (List.mem_filter.mp hr).1⟩
    exact hh.increasing.sublist (List.filter_sublist.map _)

theorem IsNumbered.handlersOf {h : Hub σ} (hh : h.IsNumbered) (kind : EventKind) :
    ((h.handlersOf kind).map (·.id)).Pairwise (· < ·) :=
  hh.increasing.sublist (List.filter_sublist.map _)

end Hub

namespace World

variable {w w' : World σ} {hub : Nat}

/-- The handlers of a hub that is alive are numbered. -/
def IsNumbered (hub : Nat) (w : World σ) : Prop := ∀ h, w.hub? hub = some h → h.IsNumbered

theorem isNumbered_new (hub hubs : Nat) (files : Files) (memory : σ) :
    (World.new hubs files memory).IsNumbered hub := by
  intro h hhub
  rw [hub?_new hhub]
  exact Hub.isNumbered_new

theorem IsNumbered.change (hw : w.IsNumbered hub) (h : Change hub lost moved w w') :
    w'.IsNumbered hub := by
  intro h' hh'
  cases h with
  | ofHub hhub hpanels =>
    obtain ⟨h, hold, hchange⟩ := hhub h' hh'
    exact (hw h hold).change hchange
  | attached hhub hhub' hpanels =>
    obtain rfl := Option.some.inj (hhub'.symm.trans hh')
    exact (hw _ hhub).watch _
  | attachedElsewhere hhub | reloaded _ _ hhub => exact hw h' (hhub ▸ hh')

theorem IsNumbered.changes (hw : w.IsNumbered hub) (h : Changes hub lost moved w w') :
    w'.IsNumbered hub := by
  induction h with
  | refl => exact hw
  | tail _ hstep ih => exact ih.change hstep

end World

namespace Machine

variable {supply : Supply} {m m' : Machine σ} {t : List (Moment σ)} {s : List (Sign σ)}
  {hub : Nat} {event : HubEvent} {next : DispatchReport → Program σ} {ds : List (Dispatch σ)}
  {handlers : List (Registration σ)} {turns : List (Turn σ)} {endings : List (Nat × Outcome)}

theorem Runs.isNumbered (h : Runs supply m t m') (hm : m.world.IsNumbered hub) :
    m'.world.IsNumbered hub := by
  induction h with
  | refl m => exact hm
  | step h rest ih =>
    have hchanges : World.Changes hub (List.flatMap (Moment.lost hub) _) True _ _ :=
      h.changes (fun a ha => lost_subset_flatMap ha) fun _ _ _ => trivial
    exact ih (hm.changes hchanges)

/-! ## The report -/

/-- What a report says of handlers that have ended. -/
def tally (endings : List (Nat × Outcome)) : DispatchReport :=
  endings.foldl (fun report e => report.count e.2) .empty

/-- The handlers among those that have ended which have not ended well. -/
def failuresAmong (endings : List (Nat × Outcome)) : List (Nat × Outcome) :=
  endings.filter (·.2 ≠ .succeeded)

theorem tally_concat (endings : List (Nat × Outcome)) (handler : Nat) (o : Outcome) :
    tally (endings ++ [(handler, o)]) = (tally endings).count o := by
  simp [tally]

/-- A report counts all handlers that have ended, and those apart that have not ended well. -/
theorem tally_counts (endings : List (Nat × Outcome)) :
    (tally endings).delivered + (tally endings).failed = endings.length ∧
      (tally endings).failed = (failuresAmong endings).length := by
  induction endings using List.reverseRecOn with
  | nil => exact ⟨rfl, rfl⟩
  | append_singleton endings e ih =>
    obtain ⟨handler, o⟩ := e
    obtain ⟨hall, hfailed⟩ := ih
    rw [tally_concat, failuresAmong, List.filter_append, List.length_append, List.length_append,
      ← failuresAmong]
    cases o with
    | succeeded =>
      simp [DispatchReport.count]
      omega
    | failed causes | panicked message =>
      simp [DispatchReport.count]
      omega

/-! ## On the way through the handlers -/

/-- How far an event has got, when it was raised within some dispatches and goes to some handlers:
the turns that have begun for it and the handlers that have ended are the first ones, in their
order. -/
inductive Delivers (hub : Nat) (event : HubEvent) (next : DispatchReport → Program σ)
    (ds : List (Dispatch σ)) (handlers : List (Registration σ)) :
    List (Turn σ) → List (Nat × Outcome) → Machine σ → Prop
  | running {turns : List (Turn σ)} {endings : List (Nat × Outcome)} {m : Machine σ}
      {above : List (Dispatch σ)} {done rest : List (Registration σ)} {r : Registration σ}
      (stack : m.dispatches = above ++ ⟨hub, event, r.id, rest, tally endings, next⟩ :: ds)
      (split : handlers = done ++ r :: rest) (begun : turns = (done ++ [r]).map (.of hub event))
      (ended : endings.map Prod.fst = done.map (·.id)) :
      Delivers hub event next ds handlers turns endings m
  | finished {turns : List (Turn σ)} {endings : List (Nat × Outcome)} {m : Machine σ}
      (stack : m.dispatches = ds) (goesOn : m.program = next (tally endings))
      (begun : turns = handlers.map (.of hub event))
      (ended : endings.map Prod.fst = handlers.map (·.id)) :
      Delivers hub event next ds handlers turns endings m

/-- An event is handed to the next handler, if there is one. -/
theorem delivers_deliver (hub : Nat) (event : HubEvent) (next : DispatchReport → Program σ)
    (done rest : List (Registration σ)) (hturns : turns = done.map (.of hub event))
    (hendings : endings.map Prod.fst = done.map (·.id)) (w : World σ)
    (hds : m.outer.length = ds.length) :
    Delivers hub event next ds (done ++ rest)
      (turns ++ Sign.turnsAt ds.length
        (m.beginnings (deliver hub event next ds rest (tally endings) w)))
      endings (deliver hub event next ds rest (tally endings) w) := by
  rw [beginnings_deliver rest (tally endings) w hds, hturns]
  cases rest with
  | nil => exact .finished rfl rfl (by simp [Sign.turnsAt]) (by rw [hendings, List.append_nil])
  | cons r rest => exact .running (List.nil_append _).symm rfl (by simp [Sign.turnsAt]) hendings

/-- An event is handed to the first handler, if there is one. -/
theorem delivers_of_raised (hub : Nat) (event : HubEvent) (next : DispatchReport → Program σ)
    (handlers : List (Registration σ)) (w : World σ) (hds : m.outer.length = ds.length) :
    Delivers hub event next ds handlers
      (Sign.turnsAt ds.length (m.beginnings (deliver hub event next ds handlers .empty w))) []
      (deliver hub event next ds handlers .empty w) := by
  have hnone : ([] : List (Nat × Outcome)).map Prod.fst =
      ([] : List (Registration σ)).map (·.id) := rfl
  have hbegin := delivers_deliver hub event next [] handlers rfl hnone w hds
  rwa [List.nil_append] at hbegin

/-- What is raised farther in leaves the dispatch alone. -/
theorem exists_above_deliver {i : Nat} {event : HubEvent} {next : DispatchReport → Program σ}
    {ds above below : List (Dispatch σ)} (handlers : List (Registration σ))
    (report : DispatchReport) (w : World σ) (hds : ds = above ++ below) :
    ∃ above', (deliver i event next ds handlers report w).dispatches = above' ++ below := by
  cases handlers with
  | nil => exact ⟨above, hds⟩
  | cons r rest => exact ⟨_ :: above, congrArg (_ :: ·) hds⟩

theorem endingsAt_endings_of_ne {k : Nat} (h : m.outer.length ≠ k) :
    Sign.endingsAt k m.endings = [] := by
  unfold Machine.endings
  split
  · next o d ds hprogram hds =>
    have hne : ds.length ≠ k := by simpa [outer, hprogram, hds] using h
    simp [Sign.endingsAt, hne]
  · rfl

/-- A step within an event carries it on. -/
theorem Step.delivers (h : Step supply m t m') (hm : Delivers hub event next ds handlers turns
    endings m) (hfloor : ds.length < m.dispatches.length) :
    Delivers hub event next ds handlers (turns ++ Sign.turnsAt ds.length (m.signs t m'))
      (endings ++ Sign.endingsAt ds.length (m.signs t m')) m' := by
  cases hm with
  | finished stack => exact absurd hfloor (by rw [stack]; exact Nat.lt_irrefl _)
  | @running above done rest r stack split begun ended =>
    -- as long as something goes on farther in, the level of the event shows nothing
    have hinner : ∀ above', ds.length < m.outer.length →
        m'.dispatches = above' ++ ⟨hub, event, r.id, rest, tally endings, next⟩ :: ds →
        Delivers hub event next ds handlers (turns ++ Sign.turnsAt ds.length (m.signs t m'))
          (endings ++ Sign.endingsAt ds.length (m.signs t m')) m' := by
      intro above' hlt hstack
      rw [turnsAt_signs_of_ne (Nat.ne_of_gt hlt), endingsAt_signs,
        endingsAt_endings_of_ne (Nat.ne_of_gt hlt), List.append_nil, List.append_nil]
      exact .running hstack split begun ended
    cases h with
    | answered | panicked | subscribed | recalled | remembered => exact hinner above hfloor stack
    | raised =>
      obtain ⟨above', hstack⟩ := exists_above_deliver _ _ _ stack
      exact hinner above' hfloor hstack
    | handled w d inner o =>
      cases above with
      | cons d' above =>
        obtain ⟨rfl, rfl⟩ := List.cons.inj stack
        obtain ⟨above', hstack⟩ := exists_above_deliver _ _ _ rfl
        exact hinner above' (by simp [outer]; omega) hstack
      | nil =>
        obtain ⟨rfl, rfl⟩ := List.cons.inj stack
        rw [turnsAt_signs, endingsAt_signs]
        have hended : Sign.endingsAt inner.length (Machine.endings (σ := σ)
            ⟨w, .finish o, ⟨hub, event, r.id, rest, tally endings, next⟩ :: inner⟩) =
              [(r.id, o)] := by
          simp [Machine.endings, Sign.endingsAt]
        rw [hended, afterHandler, ← tally_concat endings r.id o, split,
          List.append_cons]
        refine delivers_deliver hub event next (done ++ [r]) rest begun ?_ _ rfl
        rw [List.map_append, List.map_append, ended]
        rfl

theorem Passes.delivers (h : Passes supply (ds.length + 1) m s m')
    (hm : Delivers hub event next ds handlers turns endings m) :
    Delivers hub event next ds handlers (turns ++ Sign.turnsAt ds.length s)
      (endings ++ Sign.endingsAt ds.length s) m' := by
  induction h generalizing turns endings with
  | refl m => simpa [Sign.turnsAt, Sign.endingsAt] using hm
  | step h hfloor rest ih =>
    have hrest := ih (h.delivers hm hfloor)
    simpa only [Sign.turnsAt_append, Sign.endingsAt_append, List.append_assoc] using hrest

/-- If every handler comes to an end, so does the event. -/
theorem exists_passes_deliver
    (hends : ∀ r ∈ handlers, ∀ w, ∃ t o w',
      Runs supply ⟨w, r.handler event, []⟩ t ⟨w', .finish o, []⟩)
    (report : DispatchReport) (w : World σ) :
    ∃ s m, Passes supply (ds.length + 1) (deliver hub event next ds handlers report w) s m ∧
      m.dispatches = ds := by
  induction handlers generalizing report w with
  | nil => exact ⟨[], _, .refl _, rfl⟩
  | cons r rest ih =>
    obtain ⟨hends, hrest⟩ := List.forall_mem_cons.mp hends
    obtain ⟨t, o, w', hrun⟩ := hends { w with depth := w.depth + 1 }
    obtain ⟨s, hpasses⟩ := hrun.exists_passes_within (⟨hub, event, r.id, rest, report, next⟩ :: ds)
    obtain ⟨s', m, hlater, hm⟩ := ih hrest (report.count o) _
    exact ⟨_, m, hpasses.trans (.step (.handled w' _ ds o) (Nat.le_refl _) hlater), hm⟩

/-! ## An event from beginning to end -/

/-- Whenever an event is raised in a run, whatever its handlers do: the turns that begin for it are
those of the handlers that its hub has for it at that moment, in the order in which they were
registered, as far as it has got. When it is over, each of them has begun and ended once, the
program that has raised it goes on with a report that counts them all and those that have failed
apart, and it is over if every handler comes to an end. -/
theorem dispatch_exact {hubs patience : Nat} {files : Files} {memory : σ} {p : Program σ}
    {w w' : World σ} {r : Request} {next : r.Answer → Program σ}
    {answer : DispatchReport → r.Answer}
    (hrun : Runs supply ⟨.new hubs files memory, p, []⟩ t ⟨w, .request r next, ds⟩)
    (hreply : w.reply supply patience r = .raises hub event answer w') :
    ∃ h m₁, w'.hub? hub = some h ∧
      Step supply ⟨w, .request r next, ds⟩ [⟨w, r, .raises hub event answer w'⟩] m₁ ∧
      ((h.handlersOf event.kind).map (·.id)).Pairwise (· < ·) ∧
      (∀ s m, Passes supply (ds.length + 1) m₁ s m →
        let turns := Sign.turnsAt ds.length (beginnings ⟨w, .request r next, ds⟩ m₁ ++ s)
        let endings := Sign.endingsAt ds.length s
        turns <+: (h.handlersOf event.kind).map (.of hub event) ∧
          (m.dispatches.length ≤ ds.length →
            turns = (h.handlersOf event.kind).map (.of hub event) ∧
            endings.map Prod.fst = (h.handlersOf event.kind).map (·.id) ∧
            ∃ report, m.dispatches = ds ∧ m.program = next (answer report) ∧
              report.delivered + report.failed = (h.handlersOf event.kind).length ∧
              report.failed = (failuresAmong endings).length)) ∧
      ((∀ r ∈ h.handlersOf event.kind, ∀ w, ∃ t o w',
          Runs supply ⟨w, r.handler event, []⟩ t ⟨w', .finish o, []⟩) →
        ∃ s m, Passes supply (ds.length + 1) m₁ s m ∧ m.dispatches = ds) := by
  have halive := (World.follows_reply hub supply patience w r).alive hreply
  obtain ⟨h, hhub⟩ := Option.isSome_iff_exists.mp halive
  have hm₁ : dispatch hub event (fun report => next (answer report)) ds w' =
      deliver hub event (fun report => next (answer report)) ds (h.handlersOf event.kind) .empty
        (w'.beginDispatch hub |>.addLog
          [event.dispatchLine (h.handlersOf event.kind).length]) := by
    simp only [dispatch, hhub, Option.map_some, Option.getD_some]
  refine ⟨h, _, hhub, .raised patience hreply, ?_, fun s m hpasses => ?_, fun hends => ?_⟩
  · have hnumbered : w.IsNumbered hub := hrun.isNumbered (World.isNumbered_new _ _ _ _)
    have hreplied : Moment.IsReply supply ⟨w, r, .raises hub event answer w'⟩ := ⟨patience, hreply⟩
    exact (hnumbered.changes (hreplied.changes hub) h hhub).handlersOf _
  · rw [hm₁] at hpasses ⊢
    have hds : (⟨w, .request r next, ds⟩ : Machine σ).outer.length = ds.length := rfl
    have hdelivers := hpasses.delivers (delivers_of_raised hub event _ _ _ hds)
    rw [List.nil_append, ← Sign.turnsAt_append] at hdelivers
    cases hdelivers with
    | @running above done rest r' stack split begun ended =>
      refine ⟨?_, fun hle => ?_⟩
      · rw [begun, split, List.append_cons done r' rest]
        exact (List.prefix_append _ _).map _
      · rw [stack] at hle
        simp at hle
        omega
    | finished stack goesOn begun ended =>
      obtain ⟨hall, hfailed⟩ := tally_counts (Sign.endingsAt ds.length s)
      refine ⟨begun ▸ List.prefix_refl _, fun _ => ⟨begun, ended, _, stack, goesOn, ?_, hfailed⟩⟩
      rw [hall, ← List.length_map Prod.fst, ended, List.length_map]
  · rw [hm₁]
    exact exists_passes_deliver hends _ _

/-- A handler that subscribes another one to its event, gives up the second handler of its hub, and
fails. -/
def unsettle : Handler Unit := fun _ =>
  .subscribe 0 .entriesCleared (fun _ => .finish .succeeded) fun _ =>
    .request (.unsubscribe ⟨0, 1, .entriesCleared⟩) fun _ => .finish (.failed ["in vain"])

/-- An event goes to that handler and to one that panics. -/
def unsettled : Program Unit :=
  .subscribe 0 .entriesCleared unsettle fun _ =>
    .subscribe 0 .entriesCleared (fun _ => .finish (.panicked none)) fun _ =>
      .request (.emit 0 (.entriesCleared .all)) fun _ => .finish .succeeded

/-- The two handlers that are there when the event is raised have their turns, although the first
one gives up the second one, and the one that comes in between has none. -/
theorem dispatch_exact_unsettled : ∃ w m₁ s m, ∃ report : DispatchReport,
    (∃ t, Runs standingSupply ⟨.new 1 ⟨[], .empty⟩ (), unsettled, []⟩ t
      ⟨w, .request (.emit 0 (.entriesCleared .all)) fun _ => .finish .succeeded, []⟩) ∧
    (∃ a, Step standingSupply
      ⟨w, .request (.emit 0 (.entriesCleared .all)) fun _ => .finish .succeeded, []⟩ [a] m₁) ∧
    Passes standingSupply 1 m₁ s m ∧ m.dispatches = [] ∧
    (Sign.endingsAt 0 s).map Prod.fst = [0, 1] ∧ report.delivered + report.failed = 2 ∧
    report.failed = (failuresAmong (Sign.endingsAt 0 s)).length := by
  have hrun : ∃ t w, Runs standingSupply ⟨.new 1 ⟨[], .empty⟩ (), unsettled, []⟩ t
      ⟨w, .request (.emit 0 (.entriesCleared .all)) fun _ => .finish .succeeded, []⟩ ∧
      w.hub? 0 = some ⟨1, 0, .empty, 2, [⟨0, .entriesCleared, unsettle⟩,
        ⟨1, .entriesCleared, fun _ => .finish (.panicked none)⟩]⟩ :=
    ⟨[], _, .silent (.subscribed _ _ _ _ _ _) (.silent (.subscribed _ _ _ _ _ _) (.refl _)), rfl⟩
  obtain ⟨t, w, hrun, hhub⟩ := hrun
  have hreply : w.reply standingSupply 0 (.emit 0 (.entriesCleared .all)) =
      .raises 0 (.entriesCleared .all) some w := World.withHub_of_hub? hhub _
  obtain ⟨h, m₁, hhub', hstep, -, hpasses, hends⟩ := dispatch_exact hrun hreply
  obtain rfl := Option.some.inj (hhub.symm.trans hhub')
  obtain ⟨s, m, hs, hm⟩ := hends (by
    intro r hr w
    rcases List.mem_pair.mp hr with rfl | rfl
    · exact ⟨_, _, _, .silent (.subscribed _ _ _ _ _ _) (.moment (.answered 0 rfl) (.refl _))⟩
    · exact ⟨_, _, _, .refl _⟩)
  obtain ⟨-, hover⟩ := hpasses s m hs
  obtain ⟨-, hended, report, -, -, hcount, hfailed⟩ := hover (Nat.le_of_eq (congrArg _ hm))
  exact ⟨w, m₁, s, m, report, ⟨t, hrun⟩, ⟨_, hstep⟩, hs, hm, hended, hcount, hfailed⟩

end Machine
end LabExchange
