import LabExchange.Proofs.Hub.Machine

/-!
# Running with fuel and running step by step

A program has a result with enough fuel if and only if the machine gets there by its steps. One
direction is by induction on the fuel. For the other one, the result of a machine is computed with
fuel too, by running its program and then its dispatches from the inside out; a step backwards
takes a little more fuel, and more fuel does no harm.
-/
namespace LabExchange

variable {σ : Type}

/-! ## From fuel to steps -/

namespace Machine

/-- If running with some fuel is a matter of steps, then so is handing out an event. -/
theorem runs_of_deliver {supply : Supply} {run : World.Runner σ}
    (hrun : ∀ {p w o w'}, run p w = some (o, w') → ∀ ds : List (Dispatch σ),
      ∃ t, Runs supply ⟨w, p, ds⟩ t ⟨w', .finish o, ds⟩)
    (hub : Nat) {event : HubEvent} (next : DispatchReport → Program σ) (ds : List (Dispatch σ))
    {handlers : List (Registration σ)} {report report' : DispatchReport} {w w' : World σ}
    (h : World.deliver run event handlers report w = some (report', w')) :
    ∃ t, Runs supply (deliver hub event next ds handlers report w) t
      ⟨w'.endDispatch hub, next report', ds⟩ := by
  induction handlers generalizing report w with
  | nil =>
    obtain ⟨rfl, rfl⟩ : report = report' ∧ w = w' := by simpa [World.deliver] using h
    exact ⟨[], .refl _⟩
  | cons r rest ih =>
    obtain ⟨⟨o, w₁⟩, hhandler, hrest⟩ := Option.bind_eq_some_iff.mp h
    obtain ⟨t, ht⟩ := hrun hhandler (⟨hub, event, r.id, rest, report, next⟩ :: ds)
    obtain ⟨t', ht'⟩ := ih hrest
    exact ⟨_, ht.trans (.step (.handled w₁ _ ds o) ht')⟩

theorem runs_of_run {supply : Supply} {fuel : Nat} {p : Program σ} {w w' : World σ} {o : Outcome}
    (h : World.run supply fuel p w = some (o, w')) (ds : List (Dispatch σ)) :
    ∃ t, Runs supply ⟨w, p, ds⟩ t ⟨w', .finish o, ds⟩ := by
  induction fuel generalizing p w o w' ds with
  | zero => simp [World.run] at h
  | succ fuel ih =>
    cases p with
    | finish outcome =>
      obtain ⟨rfl, rfl⟩ : outcome = o ∧ w = w' := by simpa [World.run] using h
      exact ⟨[], .refl _⟩
    | subscribe hub kind handler next =>
      obtain ⟨t, ht⟩ := ih h ds
      exact ⟨_, .step (.subscribed w ds hub kind handler next) ht⟩
    | «recall» next =>
      obtain ⟨t, ht⟩ := ih h ds
      exact ⟨_, .step (.recalled w ds next) ht⟩
    | remember change next =>
      obtain ⟨t, ht⟩ := ih h ds
      exact ⟨_, .step (.remembered w ds change next) ht⟩
    | request r next =>
      simp only [World.run, World.perform] at h
      cases hreply : w.reply supply fuel r with
      | done answer w₁ =>
        rw [hreply] at h
        obtain ⟨t, ht⟩ := ih h ds
        exact ⟨_, .step (.answered fuel hreply) ht⟩
      | raises hub event answer w₁ =>
        rw [hreply] at h
        obtain ⟨⟨_, w₂⟩, hdispatch, hrest⟩ := Option.bind_eq_some_iff.mp h
        obtain ⟨⟨report, w₃⟩, hdispatch, heq⟩ := Option.map_eq_some_iff.mp hdispatch
        obtain ⟨⟨report', w₄⟩, hdeliver, heq'⟩ := Option.map_eq_some_iff.mp hdispatch
        cases heq
        cases heq'
        obtain ⟨t, ht⟩ := runs_of_deliver ih hub (fun report => next (answer report)) ds hdeliver
        obtain ⟨t', ht'⟩ := ih hrest ds
        exact ⟨_, .step (.raised fuel hreply) (ht.trans ht')⟩
      | panics message w₁ =>
        rw [hreply] at h
        obtain ⟨rfl, rfl⟩ : Outcome.panicked (some message) = o ∧ w₁ = w' := by simpa using h
        exact ⟨_, (Step.panicked fuel hreply).runs⟩
      | waiting =>
        rw [hreply] at h
        simp at h

end Machine

/-! ## More fuel -/

namespace World

/-- One way of running programs has all the results that another one has. -/
def Runner.Extends (f g : Runner σ) : Prop := ∀ {p w x}, g p w = some x → f p w = some x

theorem exportDrawing_mono {s : Store} {x : Store.Export} {ids : Nat → EntryId} {now : Timestamp}
    {n m drawn : Nat} {result : Store.ExportResult × Nat} (hnm : n ≤ m)
    (h : s.exportDrawing x ids now n drawn = some result) :
    s.exportDrawing x ids now m drawn = some result := by
  induction n generalizing m drawn with
  | zero => simp [Store.exportDrawing] at h
  | succ n ih =>
    obtain ⟨m, rfl⟩ : ∃ k, m = k + 1 := ⟨m - 1, by omega⟩
    rw [Store.exportDrawing] at h ⊢
    cases hresult : s.exportData x (ids drawn) now with
    | redraw =>
      rw [hresult] at h
      exact ih (Nat.le_of_succ_le_succ hnm) h
    | refused | exhausted | stored =>
      rw [hresult] at h
      exact h

/-- More patience makes a difference only to an export that is still waiting. -/
theorem reply_mono {supply : Supply} {w : World σ} {r : Request} {n m : Nat} (hnm : n ≤ m)
    {reply : Reply σ r.Answer} (h : w.reply supply n r = reply) (hreply : reply ≠ .waiting) :
    w.reply supply m r = reply := by
  cases r with
  | exportData id x =>
    simp only [World.reply, withHub] at h ⊢
    cases hhub : w.hub? id with
    | none => simpa [hhub] using h
    | some hub =>
      simp only [hhub, exportReply] at h ⊢
      cases hdraw : hub.store.exportDrawing x supply.id (supply.time w.drawnTimes) n w.drawnIds with
      | none =>
        rw [hdraw] at h
        exact absurd h.symm hreply
      | some result =>
        rw [hdraw] at h
        rw [exportDrawing_mono hnm hdraw]
        exact h
  | _ => exact h

theorem deliver_mono {f g : Runner σ} (hfg : Runner.Extends f g) {event : HubEvent}
    {handlers : List (Registration σ)} {report : DispatchReport} {w : World σ}
    {x : DispatchReport × World σ} (h : deliver g event handlers report w = some x) :
    deliver f event handlers report w = some x := by
  induction handlers generalizing report w with
  | nil => exact h
  | cons r rest ih =>
    obtain ⟨y, hy, hrest⟩ := Option.bind_eq_some_iff.mp h
    exact Option.bind_eq_some_iff.mpr ⟨y, hfg hy, ih hrest⟩

theorem perform_mono {f g : Runner σ} (hfg : Runner.Extends f g) {supply : Supply} {n m : Nat}
    (hnm : n ≤ m) {r : Request} {w : World σ} {x : Except String r.Answer × World σ}
    (h : perform g supply n r w = some x) : perform f supply m r w = some x := by
  rw [perform] at h ⊢
  cases hreply : w.reply supply n r with
  | done answer w₁ =>
    rw [hreply] at h
    rw [reply_mono hnm hreply nofun]
    exact h
  | raises hub event answer w₁ =>
    rw [hreply] at h
    rw [reply_mono hnm hreply nofun]
    obtain ⟨y, hdispatch, hx⟩ := Option.map_eq_some_iff.mp h
    obtain ⟨z, hdeliver, hy⟩ := Option.map_eq_some_iff.mp hdispatch
    refine Option.map_eq_some_iff.mpr ⟨y, Option.map_eq_some_iff.mpr ⟨z, ?_, hy⟩, hx⟩
    exact deliver_mono hfg hdeliver
  | panics message w₁ =>
    rw [hreply] at h
    rw [reply_mono hnm hreply nofun]
    exact h
  | waiting =>
    rw [hreply] at h
    contradiction

theorem run_succ {supply : Supply} {n : Nat} : Runner.Extends (σ := σ) (run supply (n + 1))
    (run supply n) := by
  induction n with
  | zero => exact nofun
  | succ n ih =>
    intro p w x h
    cases p with
    | finish outcome => exact h
    | subscribe hub kind handler next => exact ih h
    | «recall» next => exact ih h
    | remember change next => exact ih h
    | request r next =>
      obtain ⟨⟨answer, w₁⟩, hperform, hrest⟩ := Option.bind_eq_some_iff.mp h
      have hperform' := perform_mono ih (Nat.le_succ n) hperform
      refine Option.bind_eq_some_iff.mpr ⟨⟨answer, w₁⟩, hperform', ?_⟩
      cases answer with
      | ok a => exact ih hrest
      | error message => exact hrest

theorem run_mono {supply : Supply} {n m : Nat} (hnm : n ≤ m) :
    Runner.Extends (σ := σ) (run supply m) (run supply n) := by
  induction hnm with
  | refl => exact id
  | step h ih => exact fun hx => run_succ (ih hx)

end World

/-! ## From steps to fuel -/

namespace Machine

/-- What comes of the dispatches around a program when it has ended. -/
def unwind (run : World.Runner σ) :
    List (Dispatch σ) → Outcome × World σ → Option (Outcome × World σ)
  | [], x => some x
  | d :: ds, (o, w) =>
    (World.deliver run d.event d.waiting (d.report.count o)
      ({ w with depth := w.depth - 1 }.addLog (o.warning d.running d.event.kind))).bind
        fun (report, w) => (run (d.next report) (w.endDispatch d.hub)).bind (unwind run ds)

/-- What a machine comes to in the end. -/
def result (run : World.Runner σ) (m : Machine σ) : Option (Outcome × World σ) :=
  (run m.program m.world).bind (unwind run m.dispatches)

theorem result_deliver (run : World.Runner σ) (hub : Nat) (event : HubEvent)
    (next : DispatchReport → Program σ) (ds : List (Dispatch σ)) (handlers : List (Registration σ))
    (report : DispatchReport) (w : World σ) :
    (deliver hub event next ds handlers report w).result run =
      (World.deliver run event handlers report w).bind fun (report, w) =>
        (run (next report) (w.endDispatch hub)).bind (unwind run ds) := by
  cases handlers with
  | nil => rfl
  | cons r rest =>
    rw [World.deliver, Option.bind_assoc]
    rfl

theorem unwind_mono {f g : World.Runner σ} (hfg : World.Runner.Extends f g)
    {ds : List (Dispatch σ)} {x y : Outcome × World σ} (h : unwind g ds x = some y) :
    unwind f ds x = some y := by
  induction ds generalizing x with
  | nil => exact h
  | cons d ds ih =>
    obtain ⟨⟨report, w⟩, hdeliver, hrest⟩ := Option.bind_eq_some_iff.mp h
    obtain ⟨z, hz, hunwind⟩ := Option.bind_eq_some_iff.mp hrest
    refine Option.bind_eq_some_iff.mpr ⟨(report, w), World.deliver_mono hfg hdeliver, ?_⟩
    exact Option.bind_eq_some_iff.mpr ⟨z, hfg hz, ih hunwind⟩

theorem result_mono {f g : World.Runner σ} (hfg : World.Runner.Extends f g) {m : Machine σ}
    {x : Outcome × World σ} (h : m.result g = some x) : m.result f = some x := by
  obtain ⟨y, hy, hunwind⟩ := Option.bind_eq_some_iff.mp h
  exact Option.bind_eq_some_iff.mpr ⟨y, hfg hy, unwind_mono hfg hunwind⟩

/-- A machine comes to what it comes to after its next step. -/
theorem result_of_step {supply : Supply} {m m' : Machine σ} {t : List (Moment σ)}
    (h : Step supply m t m') {n : Nat} {x : Outcome × World σ}
    (hx : m'.result (World.run supply n) = some x) :
    ∃ k, m.result (World.run supply k) = some x := by
  -- a request needs the patience of its step as well as the fuel of what follows
  have hlater : ∀ k, n ≤ k → m'.result (World.run supply k) = some x :=
    fun k hk => result_mono (World.run_mono hk) hx
  cases h with
  | @answered w w' ds r next answer patience hreply =>
    refine ⟨max n patience + 1, ?_⟩
    have hreply' := World.reply_mono (Nat.le_max_right n patience) hreply nofun
    obtain ⟨y, hy, hunwind⟩ := Option.bind_eq_some_iff.mp (hlater _ (Nat.le_max_left n patience))
    refine Option.bind_eq_some_iff.mpr ⟨y, ?_, unwind_mono World.run_succ hunwind⟩
    simp only [World.run, World.perform, hreply']
    exact hy
  | @raised w w' ds r next hub event answer patience hreply =>
    refine ⟨max n patience + 1, ?_⟩
    have hreply' := World.reply_mono (Nat.le_max_right n patience) hreply nofun
    have hresult := hlater _ (Nat.le_max_left n patience)
    rw [dispatch, result_deliver] at hresult
    obtain ⟨⟨report, w₁⟩, hdeliver, hrest⟩ := Option.bind_eq_some_iff.mp hresult
    obtain ⟨y, hy, hunwind⟩ := Option.bind_eq_some_iff.mp hrest
    refine Option.bind_eq_some_iff.mpr ⟨y, ?_, unwind_mono World.run_succ hunwind⟩
    simp only [World.run, World.perform, hreply', World.dispatch, hdeliver]
    exact hy
  | @panicked w w' ds r next message patience hreply =>
    refine ⟨max n patience + 1, ?_⟩
    have hreply' := World.reply_mono (Nat.le_max_right n patience) hreply nofun
    obtain ⟨y, hy, hunwind⟩ := Option.bind_eq_some_iff.mp (hlater (max n patience + 1) (by omega))
    refine Option.bind_eq_some_iff.mpr ⟨y, ?_, hunwind⟩
    simp only [World.run, World.perform, hreply']
    exact hy
  | subscribed | recalled | remembered =>
    obtain ⟨y, hy, hunwind⟩ := Option.bind_eq_some_iff.mp hx
    exact ⟨n + 1, Option.bind_eq_some_iff.mpr ⟨y, hy, unwind_mono World.run_succ hunwind⟩⟩
  | handled w d ds o =>
    have hresult := hlater (n + 1) (Nat.le_succ n)
    rw [afterHandler, result_deliver] at hresult
    exact ⟨n + 1, hresult⟩

theorem result_of_runs {supply : Supply} {m : Machine σ} {t : List (Moment σ)} {o : Outcome}
    {w : World σ} (h : Runs supply m t ⟨w, .finish o, []⟩) :
    ∃ n, m.result (World.run supply n) = some (o, w) := by
  generalize hend : (⟨w, .finish o, []⟩ : Machine σ) = m' at h
  induction h with
  | refl m =>
    subst hend
    exact ⟨1, rfl⟩
  | step h rest ih =>
    obtain ⟨n, hn⟩ := ih hend
    exact result_of_step h hn

end Machine

/-- A program ends with enough fuel as it ends in a run of single steps. -/
theorem World.exists_run_iff {supply : Supply} {p : Program σ} {w w' : World σ} {o : Outcome} :
    (∃ fuel, World.run supply fuel p w = some (o, w')) ↔
      ∃ t, Machine.Runs supply ⟨w, p, []⟩ t ⟨w', .finish o, []⟩ := by
  constructor
  · rintro ⟨fuel, h⟩
    exact Machine.runs_of_run h []
  · rintro ⟨t, h⟩
    obtain ⟨n, hn⟩ := Machine.result_of_runs h
    obtain ⟨x, hx, hunwind⟩ := Option.bind_eq_some_iff.mp hn
    exact ⟨n, hx.trans hunwind⟩

end LabExchange
